import VidiPr.Pipeline.Cost
import VidiPr.Service.Journal
import VidiPr.Service.LifeCycle
import VidiPr.Service.Schedule

/-!
# The turns of a run

A run of the service with a record of every call of `_process`: which job it was for, what it asked
and what it was answered. The record outlives the process, so it also shows the turns that a crash
cut short.

* **`History`** — a run with its record; every run has one (`history_of_reachable`).
* **`TurnsInv`** — the jobs with a turn are those that were started, every turn is a run of
  `_process` on its job, and the one in progress is where the worker is.
* **`turns_extend`** — a step only adds to the record.
* **`job_cost_bounded`** — what one job can cost over the whole life of the service.
-/

namespace VidiPr

open Effect Prog Relational Text Service

/-- One call of `_process`: its job, and what it has asked and been answered. -/
structure Turn where
  job : Job
  trace : ReqTrace

/-- The turns of a run, by job. -/
abbrev Turns : Type := Nat → Option Turn

/-- One more request of the turn. -/
def Turn.add (turn : Turn) (e : Req) (r : Except PyError e.Resp) : Turn :=
  { turn with trace := turn.trace ++ [⟨e, r⟩] }

variable {D : Deployment}

/-- The record after a step. -/
def note (s : Service D) (ev : Event D) (turns : Turns) : Turns :=
  match ev, s.worker with
  | .worker e r, .processing job _ =>
    Function.update turns job.id ((turns job.id).map fun turn => turn.add e r)
  | .control, .claiming (.ret (some job)) => Function.update turns job.id (some ⟨job, []⟩)
  | _, _ => turns

/-- A run, with the turns of its worker. -/
inductive History [UnicodeDb] : Service D → Turns → Prop where
  | initial (ext : D.external.State) : History (Service.initial D ext) fun _ => none
  | step {s s' : Service D} {ev : Event D} {turns : Turns} (h : History s turns)
      (hs : Step s ev s') : History s' (note s ev turns)

theorem history_of_reachable [UnicodeDb] {P : Service D → Event D → Prop} {s : Service D}
    (h : ReachableIf P s) : ∃ turns, History s turns := by
  induction h with
  | initial ext => exact ⟨_, .initial ext⟩
  | step _ hs _ ih =>
    obtain ⟨turns, hturns⟩ := ih
    exact ⟨_, hturns.step hs⟩

/-- A recorded run is one that can be observed. -/
theorem History.observed [UnicodeDb] {s : Service D} {turns : Turns} (h : History s turns) :
    ∃ seen, Observed s seen := by
  induction h with
  | initial ext => exact ⟨none, .initial ext⟩
  | step _ hs ih =>
    obtain ⟨seen, hobs⟩ := ih
    exact ⟨_, hobs.step hs⟩

theorem History.life [UnicodeDb] {s : Service D} {turns : Turns} (h : History s turns) :
    ∃ seen F, Observed s seen ∧ LifeInv F s seen := by
  obtain ⟨seen, hobs⟩ := h.observed
  obtain ⟨F, hinv⟩ := life_observed hobs
  exact ⟨seen, F, hobs, hinv⟩

/-! ## What a step adds -/

variable {s s' : Service D} {turns : Turns}

theorem note_processing {job : Job} {p : Py Unit} {e : Req} {r : Except PyError e.Resp}
    (h : s.worker = .processing job p) :
    note s (.worker e r) turns =
      Function.update turns job.id ((turns job.id).map fun turn => turn.add e r) := by
  unfold note
  rw [h]

theorem note_claimed {job : Job} (h : s.worker = .claiming (.ret (some job))) :
    note s .control turns = Function.update turns job.id (some ⟨job, []⟩) := by
  unfold note
  rw [h]

/-- A request of another routine is not recorded. -/
theorem note_worker {e : Req} {r : Except PyError e.Resp}
    (h : ∀ job p, s.worker ≠ .processing job p) : note s (.worker e r) turns = turns := by
  unfold note
  split
  · rename_i heq hphase
    exact absurd hphase (h _ _)
  · rename_i heq _
    cases heq
  · rfl

/-- The loop records nothing but the start of a turn. -/
theorem note_control (h : ∀ job, s.worker ≠ .claiming (.ret (some job))) :
    note s .control turns = turns := by
  unfold note
  split
  · rename_i heq _
    cases heq
  · rename_i hphase
    exact absurd hphase (h _)
  · rfl

/-- What the worker's requests may be answered. -/
def answers (X : External) : Sem Req Req.Resp PyError Unit :=
  anyOf fun e r => ∃ w w', sem X .worker e w r w'

/-- The turn is a run of `_process` that has come to `p`. -/
def Turn.Runs (D : Deployment) [UnicodeDb] (turn : Turn) (p : Py Unit) : Prop :=
  Run (answers D.external) (Worker.process D.config D.reviewer.run turn.job) () turn.trace p ()

theorem Turn.Runs.add [UnicodeDb] {turn : Turn} {e : Req}
    {k : Except PyError e.Resp → Py Unit} {r : Except PyError e.Resp} {w w' : World D.external}
    (h : turn.Runs D (.call e k)) (hsem : sem D.external .worker e w r w') :
    (turn.add e r).Runs D (k r) :=
  Run.snoc h ⟨w, w', hsem⟩

/-- The jobs with a turn are those that were started, every turn is a run of `_process` on its
job, and the turn in progress is where the worker is. -/
structure TurnsInv [UnicodeDb] (s : Service D) (turns : Turns) : Prop where
  begun : ∀ id, id ∈ s.started ↔ ∃ turn, turns id = some turn
  runs : ∀ id turn, turns id = some turn → turn.job.id = id ∧ ∃ p, turn.Runs D p
  current : ∀ job p, s.worker = .processing job p →
    ∃ turn, turns job.id = some turn ∧ turn.job = job ∧ turn.Runs D p

namespace TurnsInv

variable [UnicodeDb]

/-- The worker starts nothing and is in no turn. -/
theorem move (h : TurnsInv s turns) {t : Service D} (hstarted : t.started = s.started)
    (hphase : ∀ job p, t.worker ≠ .processing job p) : TurnsInv t turns :=
  ⟨hstarted ▸ h.begun, h.runs, fun job p hp => absurd hp (hphase job p)⟩

/-- The worker stays where it is. -/
theorem stay (h : TurnsInv s turns) {t : Service D} (hstarted : t.started = s.started)
    (hphase : t.worker = s.worker) : TurnsInv t turns :=
  ⟨hstarted ▸ h.begun, h.runs, hphase ▸ h.current⟩

/-- A turn begins: the job that was claimed gets an empty record, and the worker is at the start of
`_process` on it. -/
theorem begin (h : TurnsInv s turns) {job : Job} {t : Service D}
    (hstarted : t.started = job.id :: s.started)
    (hphase : t.worker = .processing job (Worker.process D.config D.reviewer.run job)) :
    TurnsInv t (Function.update turns job.id (some ⟨job, []⟩)) := by
  have hnew : (⟨job, []⟩ : Turn).Runs D (Worker.process D.config D.reviewer.run job) := .refl _ _
  refine ⟨fun id => ?_, fun id turn hturn => ?_, fun job' p hp => ?_⟩
  · rw [hstarted, List.mem_cons, h.begun]
    by_cases hid : id = job.id
    · subst hid
      simp
    · rw [Function.update_of_ne hid, or_iff_right hid]
  · by_cases hid : id = job.id
    · subst hid
      rw [Function.update_self] at hturn
      cases hturn
      exact ⟨rfl, _, hnew⟩
    · rw [Function.update_of_ne hid] at hturn
      exact h.runs id turn hturn
  · rw [hphase] at hp
    cases hp
    exact ⟨_, Function.update_self .., rfl, hnew⟩

/-- The turn in progress makes a request, which is added to the record of its job together with its
answer. -/
theorem request (h : TurnsInv s turns) {job : Job} {e : Req} {k : Except PyError e.Resp → Py Unit}
    {r : Except PyError e.Resp} {w w' : World D.external} {t : Service D}
    (hphase : s.worker = .processing job (.call e k)) (hsem : sem D.external .worker e w r w')
    (hstarted : t.started = s.started) (hnext : t.worker = .processing job (k r)) :
    TurnsInv t (Function.update turns job.id ((turns job.id).map fun turn => turn.add e r)) := by
  obtain ⟨turn, hturn, rfl, hruns⟩ := h.current _ _ hphase
  have hadded := hruns.add hsem
  rw [hturn, Option.map_some]
  refine ⟨fun id => ?_, fun id turn' hturn' => ?_, fun job' p hp => ?_⟩
  · -- a request starts no job
    rw [hstarted, h.begun]
    by_cases hid : id = turn.job.id
    · subst hid
      simp [hturn]
    · rw [Function.update_of_ne hid]
  · -- the turn in progress has one request more, and the others are over
    by_cases hid : id = turn.job.id
    · subst hid
      rw [Function.update_self] at hturn'
      cases hturn'
      exact ⟨rfl, _, hadded⟩
    · rw [Function.update_of_ne hid] at hturn'
      exact h.runs id turn' hturn'
  · rw [hnext] at hp
    cases hp
    exact ⟨_, Function.update_self .., rfl, hadded⟩

end TurnsInv

section Records

variable [UnicodeDb]

/-- The step lemma. Only a claim that found a job adds a turn, and only a request of the worker
inside `_process` makes one longer; every other step leaves the record alone. -/
theorem turns_step {ev : Event D} (h : TurnsInv s turns) (hs : Step s ev s') :
    TurnsInv s' (note s ev turns) := by
  cases hs with
  | external | spawn | call | requestStop => exact h.stay rfl rfl
  | start | crash => exact h.move rfl fun job p hp => by cases hp
  | recoverStep hphase =>
    rw [note_worker fun job p hp => by rw [hphase] at hp; cases hp]
    exact h.move rfl fun job p hp => by cases hp
  | claimStep hphase =>
    rw [note_worker fun job p hp => by rw [hphase] at hp; cases hp]
    exact h.move rfl fun job p hp => by cases hp
  | claimedSome hphase =>
    rw [note_claimed hphase]
    exact h.begin rfl rfl
  | processStep hphase hsem =>
    rw [note_processing hphase]
    exact h.request hphase hsem rfl rfl
  | recover hphase | recovered hphase | leave hphase | claim hphase | claimedNone hphase
  | wake hphase | claimRaised hphase | processed hphase | processRaised hphase =>
    rw [note_control fun job hp => by rw [hphase] at hp; cases hp]
    exact h.move rfl fun job p hp => by cases hp

/-- The run lemma: whatever the run has done, its record and the phase of the worker agree. -/
theorem turns_history (h : History s turns) : TurnsInv s turns := by
  induction h with
  | initial ext =>
    refine ⟨fun id => iff_of_false List.not_mem_nil ?_, ?_, ?_⟩
    all_goals
      intros
      simp_all [Service.initial]
  | step _ hs ih => exact turns_step ih hs

/-! ## The record only grows -/

/-- Every turn is still there, with what it has asked since. -/
def Turns.Extends (turns turns' : Turns) : Prop :=
  ∀ id turn, turns id = some turn → ∃ more, turns' id = some ⟨turn.job, turn.trace ++ more⟩

omit [UnicodeDb] in
theorem Turns.Extends.refl (turns : Turns) : turns.Extends turns :=
  fun id turn hturn => ⟨[], by rw [List.append_nil, hturn]⟩

omit [UnicodeDb] in
theorem Turns.Extends.trans {turns₁ turns₂ turns₃ : Turns} (h : turns₁.Extends turns₂)
    (h' : turns₂.Extends turns₃) : turns₁.Extends turns₃ := by
  intro id turn hturn
  obtain ⟨more, hmore⟩ := h id turn hturn
  obtain ⟨more', hmore'⟩ := h' id _ hmore
  exact ⟨more ++ more', by rw [hmore', List.append_assoc]⟩

/-- A job that is handed to `_process` has no turn yet. -/
theorem turn_fresh (h : History s turns) {job : Job}
    (hphase : s.worker = .claiming (.ret (some job))) : turns job.id = none := by
  obtain ⟨seen, F, _, hinv⟩ := h.life
  have hnodup := life_started hinv (.claimedSome hphase)
  cases hturn : turns job.id with
  | none => rfl
  | some turn =>
    have hmem : job.id ∈ s.started := ((turns_history h).begun job.id).mpr ⟨turn, hturn⟩
    exact absurd hmem (List.nodup_cons.mp hnodup).1

/-- A step changes the record of the turn in progress only, and only adds to it. -/
theorem turns_extend {ev : Event D} (h : History s turns) (hs : Step s ev s') :
    turns.Extends (note s ev turns) := by
  unfold note
  split
  · rename_i e r job p _
    intro id turn hturn
    by_cases hid : id = job.id
    · subst hid
      rw [Function.update_self, hturn]
      exact ⟨[⟨e, r⟩], rfl⟩
    · rw [Function.update_of_ne hid]
      exact Turns.Extends.refl turns id turn hturn
  · rename_i job hphase
    intro id turn hturn
    have hid : id ≠ job.id := by
      rintro rfl
      rw [turn_fresh h hphase] at hturn
      cases hturn
    rw [Function.update_of_ne hid]
    exact Turns.Extends.refl turns id turn hturn
  · exact .refl turns

theorem History.later (h : History s turns) (hlater : Later s s') :
    ∃ turns', History s' turns' ∧ turns.Extends turns' := by
  induction hlater with
  | refl => exact ⟨turns, h, .refl turns⟩
  | tail _ hstep ih =>
    obtain ⟨_, hs⟩ := hstep
    obtain ⟨turns', hturns', hext⟩ := ih
    exact ⟨_, hturns'.step hs, hext.trans (turns_extend hturns' hs)⟩

/-! ## What a job costs -/

section Cost

variable [ConfigLibrary] [PromptFiles] {X : External} {W : Workload} {config : OperatorConfig}
  {reviewer : Reviewer}

/-- **What one job can cost.** The jobs with a turn are those that were started, a job has one turn
in the whole life of the service, crashes and restarts included, and no turn goes over its
budget of githubkit calls, chats and commits. -/
theorem job_cost_bounded {s : Service (.serve X W config (Reviewer.routine reviewer))}
    (h : History s turns) :
    (∀ id, id ∈ s.started ↔ ∃ turn, turns id = some turn) ∧
    (∀ id turn, turns id = some turn → turn.job.id = id ∧
      spent Req.price turn.trace ≤ Worker.turnBudget reviewer.pipeline.maxChunks) ∧
    ∀ s', Later s s' → ∃ turns', History s' turns' ∧ turns.Extends turns' := by
  have hinv := turns_history h
  refine ⟨hinv.begun, fun id turn hturn => ?_, fun s' hlater => h.later hlater⟩
  obtain ⟨hid, p, hruns⟩ := hinv.runs id turn hturn
  exact ⟨hid, Worker.process_spent_le config reviewer turn.job hruns⟩

end Cost

end Records

section Example

attribute [local instance] asciiDb exampleLibrary emptyPrompts

/-- The service on a day on which everything works. -/
abbrev healthyService : Deployment :=
  .serve healthy enqueueWorkload exampleConfig (Reviewer.routine exampleReviewer)

/-- A run in which one job is reviewed. -/
theorem exists_reviewed :
    ∃ s : Service healthyService, Reachable s ∧ s.started = [1] ∧
      (∃ job ∈ s.world.db.committed.jobs, job.id = 1 ∧ job.outcome = (.done, none, none)) ∧
      ∃ row ∈ s.world.db.committed.reviewsPosted, row.id = 1 ∧ row.reviewId = 100 := by
  obtain ⟨s, hs, htest⟩ := exists_of_schedule healthyResponder (fun _ _ => true)
    (fun _ _ _ => trivial) (({} : Memory), (0 : Nat))
    ([.start, .spawn 1 exampleTrigger] ++ List.replicate 7 (.call 1 false) ++
      -- the claim, the review and its transaction
      List.replicate 37 (.worker false))
    (fun (s : Service healthyService) => decide (s.started = [1] ∧
      (∃ job ∈ s.world.db.committed.jobs, job.id = 1 ∧ job.outcome = (.done, none, none)) ∧
      ∃ row ∈ s.world.db.committed.reviewsPosted, row.id = 1 ∧ row.reviewId = 100))
    (by decide +kernel)
  exact ⟨s, hs, of_decide_eq_true htest⟩

/-- The cost of that job. -/
theorem job_cost_bounded_reviewed :
    ∃ (s : Service healthyService) (turns : Turns) (turn : Turn), History s turns ∧
      turns 1 = some turn ∧ spent Req.price turn.trace ≤ Worker.turnBudget 5 := by
  obtain ⟨s, hs, hstarted, -⟩ := exists_reviewed
  obtain ⟨turns, hturns⟩ := history_of_reachable hs
  obtain ⟨hbegun, hcost, -⟩ := job_cost_bounded hturns
  have hone : 1 ∈ s.started := by rw [hstarted]; exact List.mem_singleton_self 1
  obtain ⟨turn, hturn⟩ := (hbegun 1).mp hone
  exact ⟨s, turns, turn, hturns, hturn, (hcost 1 turn hturn).2⟩

end Example

end VidiPr
