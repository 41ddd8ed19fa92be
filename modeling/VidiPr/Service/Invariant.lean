import VidiPr.Service.WorkerSpec

/-!
# The invariant of the service

What holds in every reachable state of every deployment, whatever the workload, the reviewer and
the outside are.

* **`Inv F`** — locks and unfinished jobs correspond, every task in flight is still safe to run,
  and the worker is where its phase says. `F` is the set of jobs that are running although no
  worker works on them.
* **`inv_step`** — the step lemma, one case for each step of the service. `F` gains a job in one
  case only: the process dies while its worker holds one.
* **`inv_reachable`**, **`inv_reachableIf`** — the run lemmas.
-/

namespace VidiPr

open Effect Prog Relational Text Service

/-! ## Where the worker is -/

/-- Nothing is known about how the outside moves. -/
abbrev anyMove (X : External) : X.State → X.State → Prop := fun _ _ => True

section Phases

variable (X : External) (F : Nat → Prop) (cooldownSeconds : Nat)

/-- The rest of `recover_on_startup` and its commit. -/
def RecoveringOk (p : Py Unit) (world : World X) (log : WorkerLog) : Prop :=
  Safe (workerSetting X (anyMove X) (RecoverStore F)) p
    (Post (fun _ => onStore (Reading fun _ log => 0 < log.commits)) (onStore Failed)) (world, log)

/-- The rest of `_claim_one`. -/
def ClaimingOk (p : Py (Option Job)) (world : World X) (log : WorkerLog) : Prop :=
  Safe (workerSetting X (anyMove X) (ClaimStore F)) p
    (Post (fun result => onStore (Reading (ClaimResult F result))) (onStore Failed)) (world, log)

/-- The rest of `_process`. -/
def ProcessingOk (job : Job) (p : Py Unit) (world : World X) (log : WorkerLog) : Prop :=
  ∃ reviews, Safe (workerSetting X (anyMove X) (ProcessStore F job reviews)) p
    (Post (fun _ => onStore (Reading (Finished F job reviews)))
      (onStore (Broke X cooldownSeconds))) (world, log)

/-- Between two turns: the running jobs are those of `F`, and no transaction is open. -/
def AtRest (world : World X) : Prop :=
  world.db.committed.RunningIs F ∧ ¬ world.db.Owns .worker

/-- What the phase of the worker says about the store. -/
def WorkerOk (phase : WorkerPhase) (world : World X) (log : WorkerLog) : Prop :=
  match phase with
  | .down | .idle | .waiting | .stopped => AtRest X F world
  | .recovering p => RecoveringOk X F p world log
  | .claiming p => ClaimingOk X F p world log
  | .processing job p => ProcessingOk X F cooldownSeconds job p world log
  | .dead _ holding => Broke X cooldownSeconds world.db log ∧
      (holding = false → world.db.committed.RunningIs F) ∧
      (holding = true → ∃ job, Held F job world.db.committed)

variable {X F cooldownSeconds}

theorem ClaimStore.grows {commits : Nat} {db db' : Db} (h : ClaimStore F commits db)
    (hg : db.Grows db') : ClaimStore F commits db' :=
  ⟨fun h0 => (h.1 h0).grows hg, fun hpos => (h.2 hpos).imp fun _ hheld => hheld.grows hg⟩

theorem RecoverStore.grows {commits : Nat} {db db' : Db} (h : RecoverStore F commits db)
    (hg : db.Grows db') : RecoverStore F commits db' :=
  ⟨fun h0 => (h.1 h0).grows hg, fun hpos => (h.2 hpos).grows hg⟩

theorem ProcessStore.grows {job : Job} {reviews : Table Nat ReviewPosted ReviewPosted.id}
    {commits : Nat} {db db' : Db} (h : ProcessStore F job reviews commits db)
    (hg : db.Grows db') : ProcessStore F job reviews commits db' := by
  refine ⟨fun h0 => ⟨(h.1 h0).1.grows hg, hg.reviews.trans (h.1 h0).2⟩, fun hpos => ?_⟩
  obtain ⟨result, hst, hsettled⟩ := h.2 hpos
  exact ⟨result, hst, hsettled.grows hg⟩

/-- A step of another task leaves the worker where it is. -/
theorem WorkerOk.env {phase : WorkerPhase} {world world' : World X} {log : WorkerLog} {n : Nat}
    (h : WorkerOk X F cooldownSeconds phase world log)
    (hstep : ActorStep (.call n) world.db world'.db)
    (hgrows : world.db.committed.Grows world'.db.committed)
    (hlocks : LockInv world'.db.committed) : WorkerOk X F cooldownSeconds phase world' log := by
  have hrest : AtRest X F world → AtRest X F world' := fun hw =>
    ⟨hw.1.grows hgrows, hstep.not_owns (by simp) hw.2⟩
  cases phase with
  | down => exact hrest h
  | idle => exact hrest h
  | waiting => exact hrest h
  | stopped => exact hrest h
  -- in the middle of a routine: what is left of it is safe against the others
  | recovering p =>
    exact Safe.env h ⟨⟨n, hstep⟩, hgrows, trivial, rfl⟩ ⟨hlocks, h.inv.2.grows hgrows⟩
  | claiming p =>
    exact Safe.env h ⟨⟨n, hstep⟩, hgrows, trivial, rfl⟩ ⟨hlocks, h.inv.2.grows hgrows⟩
  | processing job p =>
    obtain ⟨reviews, hsafe⟩ := h
    exact ⟨reviews, hsafe.env ⟨⟨n, hstep⟩, hgrows, trivial, rfl⟩
      ⟨hlocks, hsafe.inv.2.grows hgrows⟩⟩
  -- a dead task holds what it held
  | dead x holding =>
    obtain ⟨⟨hnoTx, hfault⟩, hfree, hheld⟩ := h
    refine ⟨⟨hstep.not_owns (by simp) hnoTx, hfault⟩, fun hb => (hfree hb).grows hgrows,
      fun hb => ?_⟩
    obtain ⟨job, hj⟩ := hheld hb
    exact ⟨job, hj.grows hgrows⟩

end Phases

/-! ## The invariant -/

variable {D : Deployment}

/-- The cooldown the worker's comments are posted under. -/
def Deployment.cooldownSeconds (D : Deployment) : Nat :=
  D.config.pipeline.failureCommentCooldownSeconds

/-- The invariant of the service. -/
structure Inv (F : Nat → Prop) (s : Service D) : Prop where
  locks : LockInv s.world.db.committed
  calls : ∀ n call, s.calls n = some call →
    Safe (callSetting D.external n queueContract) call.prog
      (fun r => onDb (D.workload.Promise n call.since call.task r)) s.world
  free : ∀ n, s.calls n = none → ¬ s.world.db.Owns (.call n)
  worker : WorkerOk D.external F D.cooldownSeconds s.worker s.world s.log
  begun : ∀ id ∈ s.started, s.world.db.committed.Begun id

/-- The running jobs of a store whose worker holds none: recovery may have ended some. -/
theorem Inv.running {F : Nat → Prop} {s : Service D} (h : Inv F s) (hfree : ¬ s.Holding) :
    ∃ F', (∀ id, F' id → F id) ∧ s.world.db.committed.RunningIs F' := by
  have hw := h.worker
  unfold Service.Holding at hfree
  cases hphase : s.worker with
  | recovering p =>
    rw [hphase] at hw
    -- before the recovery commits, the jobs are as they were
    rcases Nat.eq_zero_or_pos s.log.commits with h0 | hpos
    · exact ⟨F, fun _ hid => hid, hw.inv.2.1 h0⟩
    · exact ⟨fun _ => False, fun _ => False.elim, hw.inv.2.2 hpos⟩
  -- nothing is claimed before the commit
  | claiming p =>
    rw [hphase] at hw hfree
    exact ⟨F, fun _ hid => hid, hw.inv.2.1 (by simpa using hfree)⟩
  -- the outcome is committed, or the job would be held
  | processing job p =>
    rw [hphase] at hw hfree
    obtain ⟨reviews, hsafe⟩ := hw
    obtain ⟨result, _, hsettled⟩ := hsafe.inv.2.2 (Nat.pos_of_ne_zero hfree)
    exact ⟨F, fun _ hid => hid, hsettled.only⟩
  | dead x holding =>
    rw [hphase] at hw hfree
    exact ⟨F, fun _ hid => hid, hw.2.1 (by simpa using hfree)⟩
  | _ =>
    rw [hphase] at hw
    exact ⟨F, fun _ hid => hid, hw.1⟩

theorem inv_initial (ext : D.external.State) : Inv (fun _ => False) (Service.initial D ext) where
  locks := lockInv_empty
  calls n call h := by cases h
  free n _ := by simp [Service.initial, Sqlite.Owns]
  worker := by
    refine ⟨fun id => ⟨?_, False.elim⟩, by simp [Service.initial, Sqlite.Owns]⟩
    rintro ⟨job, hjob, _⟩
    exact absurd hjob (Table.not_mem_empty job)
  begun id h := by cases h

/-! ## One step -/

section Steps

variable {F : Nat → Prop} {cooldownSeconds : Nat} {s : Service D}

/-- A step of one task, seen by the other tasks. -/
theorem Inv.calls_env (h : Inv F s) {a : Actor} {world : World D.external}
    (hstep : ActorStep a s.world.db world.db) (hlocks : LockInv world.db.committed) {n : Nat}
    {call : Call D.workload} (hcall : s.calls n = some call) (hne : a ≠ .call n) :
    Safe (callSetting D.external n queueContract) call.prog
      (fun r => onDb (D.workload.Promise n call.since call.task r)) world :=
  (h.calls n call hcall).env ⟨⟨a, hne, hstep⟩, trivial⟩ hlocks

/-- A request of the worker: the tasks and the locks are as the step of the store leaves them, and
what remains is to say where the worker is now. -/
theorem Inv.workerStep {F' : Nat → Prop} (h : Inv F s) {world : World D.external}
    {phase : WorkerPhase} {log : WorkerLog} (hstep : ActorStep .worker s.world.db world.db)
    (hlocks : LockInv world.db.committed)
    (hadv : s.world.db.committed.Advances world.db.committed)
    (hw : WorkerOk D.external F' D.cooldownSeconds phase world log) :
    Inv F' { s with world, worker := phase, log } where
  locks := hlocks
  calls n call hcall := h.calls_env hstep hlocks hcall (by simp)
  free n hn := hstep.not_owns (by simp) (h.free n hn)
  worker := hw
  begun id hid := hadv.begun (h.begun id hid)

/-- A step that makes no request: the store is the same, and only the worker may be in another
phase. -/
theorem Inv.control {F' : Nat → Prop} (h : Inv F s) {phase : WorkerPhase} {log : WorkerLog}
    {stop : Bool} (hw : WorkerOk D.external F' D.cooldownSeconds phase s.world log) :
    Inv F' { s with worker := phase, log, stop } :=
  ⟨h.locks, h.calls, h.free, hw, h.begun⟩

/-- A request of task `n`: it keeps the contract of the queue, on which the worker and the other
tasks rely. -/
theorem Inv.callStep (h : Inv F s) {n : Nat} {task : D.workload.Task} {since : Nat} {e : Req}
    {k : Except PyError e.Resp → Py (D.workload.Result task)} {r : Except PyError e.Resp}
    {world : World D.external} (hcall : s.calls n = some ⟨task, since, .call e k⟩)
    (hsem : sem D.external (.call n) e s.world r world) :
    Inv F { s with
      world
      calls := Function.update s.calls n (some ⟨task, since, k r⟩) } := by
  have hstep : ActorStep (.call n) s.world.db world.db := actorStep_of_sem hsem
  have hsafe := h.calls n _ hcall
  obtain ⟨hgrows, hsafe'⟩ := hsafe.step hsem
  have hlocks : LockInv world.db.committed := hsafe'.inv
  refine ⟨hlocks, fun m call hm => ?_, fun m hm => ?_, h.worker.env hstep hgrows hlocks,
    fun id hid => hgrows.advances.begun (h.begun id hid)⟩
  · -- the task that stepped, or another one
    by_cases heq : m = n
    · subst heq
      simp only [Function.update_self, Option.some.injEq] at hm
      subst hm
      exact hsafe'
    · simp only [Function.update_of_ne heq] at hm
      exact h.calls_env hstep hlocks hm (by simpa using Ne.symm heq)
  · have hne : m ≠ n := by
      rintro rfl
      simp at hm
    simp only [Function.update_of_ne hne] at hm
    exact hstep.not_owns (by simpa using Ne.symm hne) (h.free m hm)

/-- A new task starts with no transaction and an empty history of its own. -/
theorem Inv.spawn (h : Inv F s) {n : Nat} (task : D.workload.Task) (hn : s.calls n = none) :
    Inv F { s with
      calls := Function.update s.calls n
        (some ⟨task, s.world.db.log.length, D.workload.prog task⟩) } := by
  refine ⟨h.locks, fun m call hm => ?_, fun m hm => ?_, h.worker, h.begun⟩
  · by_cases heq : m = n
    · subst heq
      simp only [Function.update_self, Option.some.injEq] at hm
      subst hm
      refine Safe.of_triple (D.workload.keeps D.external m _ task) h.locks ⟨h.free m hn, ?_⟩
      exact ⟨Nat.le_refl _, by simp [Sqlite.committersSince]⟩
    · simp only [Function.update_of_ne heq] at hm
      exact h.calls m call hm
  · have hne : m ≠ n := by
      rintro rfl
      simp at hm
    simp only [Function.update_of_ne hne] at hm
    exact h.free m hm

/-- The process dies: the running jobs stay running. -/
theorem Inv.crash {F' : Nat → Prop} (h : Inv F s) (hrun : s.world.db.committed.RunningIs F') :
    Inv F' { s with
      world := { s.world with db := s.world.db.crash }
      worker := .down
      calls := fun _ => none } := by
  refine ⟨h.locks, fun n call hcall => by simp at hcall, fun n _ => ?_, ⟨hrun, ?_⟩, h.begun⟩
  · simp [Sqlite.crash, Sqlite.Owns]
  · simp [Sqlite.crash, Sqlite.Owns]

variable (cooldownSeconds) in
/-- A task of the worker that ended with an exception in the phase `claiming`. -/
theorem ClaimingOk.dead {X : External} {x : PyError} {world : World X} {log : WorkerLog}
    (h : ClaimingOk X F (.raise x) world log) :
    WorkerOk X F cooldownSeconds (.dead x (decide (0 < log.commits))) world log := by
  refine ⟨h.error.broke, fun hb => ?_, fun hb => ?_⟩
  · exact h.inv.2.1 (by simpa using hb)
  · exact h.inv.2.2 (by simpa using hb)

theorem ProcessingOk.dead {X : External} {job : Job} {x : PyError} {world : World X}
    {log : WorkerLog} (h : ProcessingOk X F cooldownSeconds job (.raise x) world log) :
    WorkerOk X F cooldownSeconds (.dead x (decide (log.commits = 0))) world log := by
  obtain ⟨reviews, hsafe⟩ := h
  refine ⟨hsafe.error, fun hb => ?_, fun hb => ?_⟩
  · obtain ⟨result, _, hsettled⟩ := hsafe.inv.2.2 (Nat.pos_of_ne_zero (by simpa using hb))
    exact hsettled.only
  · exact ⟨job, (hsafe.inv.2.1 (by simpa using hb)).1⟩

/-- A claimed job goes to `_process`. -/
theorem ClaimingOk.process [UnicodeDb] {X : External} {job : Job} {world : World X}
    {log : WorkerLog} (h : ClaimingOk X F (.ret (some job)) world log) (config : OperatorConfig)
    (reviewer : ReviewRoutine) :
    ProcessingOk X F config.pipeline.failureCommentCooldownSeconds job
      (Worker.process config reviewer.run job) world {} ∧
      world.db.committed.Begun job.id := by
  obtain ⟨hnoTx, _, hheld⟩ := h.ok
  refine ⟨⟨world.db.committed.reviewsPosted, ?_⟩, job, hheld.row, rfl, by simp [hheld.running]⟩
  refine Safe.of_triple (process_triple reviewer) ⟨h.inv.1, ?_, by simp⟩ ⟨hnoTx, rfl⟩
  exact fun _ => ⟨hheld, rfl⟩

end Steps

section Runs

variable [UnicodeDb] {F : Nat → Prop}

/-- Every step keeps the invariant. The set of abandoned jobs changes only between two processes,
and grows only when the process dies while its worker holds a job. In each case the phase of the
worker before the step says what is known, and its routine what the step may do. -/
theorem inv_step {s s' : Service D} {ev : Event D} (h : Inv F s) (hs : Step s ev s') :
    ∃ F', ((ev = .crash → ¬ s.Holding) → ∀ id, F' id → F id) ∧
      (F' = F ∨ s'.worker = .down) ∧ Inv F' s' := by
  have hw := h.worker
  have hsame : ∀ {P : Prop}, P → ∀ id, F id → F id := fun _ _ hid => hid
  cases hs with
  | external hmove =>
    -- the outside moves on, and nobody depends on it
    refine ⟨F, hsame, Or.inl rfl, h.locks, fun n call hcall => ?_, h.free, ?_, h.begun⟩
    · exact (h.calls n call hcall).env ⟨⟨.worker, by simp, .same⟩, trivial⟩ h.locks
    · exact h.worker.env (n := 0) .same (.refl _) h.locks
  | spawn n task hn => exact ⟨F, hsame, Or.inl rfl, h.spawn task hn⟩
  | call hcall hsem => exact ⟨F, hsame, Or.inl rfl, h.callStep hcall hsem⟩
  | start hphase =>
    rw [hphase] at hw
    exact ⟨F, hsame, Or.inl rfl, h.control hw⟩
  | recover hphase _ =>
    rw [hphase] at hw
    -- the routine is safe from its first request on
    refine ⟨F, hsame, Or.inl rfl, h.control ?_⟩
    exact Safe.of_triple recoveryRoutine_triple ⟨h.locks, fun _ => hw.1, by simp⟩ ⟨hw.2, rfl⟩
  | recoverStep hphase hsem =>
    rw [hphase] at hw
    obtain ⟨hadv, hsafe⟩ := Safe.step hw (workerSem_of_sem hsem)
    exact ⟨F, hsame, Or.inl rfl, h.workerStep (actorStep_of_sem hsem) hsafe.inv.1 hadv hsafe⟩
  | recovered hphase =>
    rw [hphase] at hw
    -- recovery has failed every job that was running
    obtain ⟨hnoTx, hpos⟩ := Safe.ok hw
    exact ⟨fun _ => False, fun _ _ => False.elim, Or.inr rfl, h.control ⟨hw.inv.2.2 hpos, hnoTx⟩⟩
  | requestStop => exact ⟨F, hsame, Or.inl rfl, h.control hw⟩
  | leave hphase _ =>
    rw [hphase] at hw
    exact ⟨F, hsame, Or.inl rfl, h.control hw⟩
  -- the same for `_claim_one`
  | claim hphase _ =>
    rw [hphase] at hw
    refine ⟨F, hsame, Or.inl rfl, h.control ?_⟩
    refine Safe.of_triple claimOne_triple ⟨h.locks, fun _ => hw.1, by simp⟩ ⟨hw.2, rfl, ?_⟩
    exact fun hqueued => pendingJobs_isEmpty.mp (by simpa using hqueued)
  | claimStep hphase hsem =>
    rw [hphase] at hw
    obtain ⟨hadv, hsafe⟩ := Safe.step hw (workerSem_of_sem hsem)
    exact ⟨F, hsame, Or.inl rfl, h.workerStep (actorStep_of_sem hsem) hsafe.inv.1 hadv hsafe⟩
  | claimedNone hphase =>
    rw [hphase] at hw
    -- nothing was found, and nothing committed
    obtain ⟨hnoTx, hzero, _⟩ := Safe.ok hw
    exact ⟨F, hsame, Or.inl rfl, h.control ⟨hw.inv.2.1 hzero, hnoTx⟩⟩
  | wake hphase =>
    rw [hphase] at hw
    exact ⟨F, hsame, Or.inl rfl, h.control hw⟩
  | @claimedSome job hphase =>
    rw [hphase] at hw
    -- the job is now held by `_process`
    obtain ⟨hproc, hbegun⟩ := ClaimingOk.process hw D.config D.reviewer
    refine ⟨F, hsame, Or.inl rfl, h.locks, h.calls, h.free, hproc, fun id hid => ?_⟩
    rcases List.mem_cons.mp hid with rfl | hold
    · exact hbegun
    · exact h.begun id hold
  | @claimRaised x hphase =>
    rw [hphase] at hw
    refine ⟨F, hsame, Or.inl rfl, h.control ?_⟩
    have := ClaimingOk.dead D.cooldownSeconds hw
    simpa only [Service.Holding, hphase] using this
  | processStep hphase hsem =>
    rw [hphase] at hw
    obtain ⟨reviews, hsafe⟩ := hw
    obtain ⟨hadv, hsafe'⟩ := hsafe.step (workerSem_of_sem hsem)
    exact ⟨F, hsame, Or.inl rfl,
      h.workerStep (actorStep_of_sem hsem) hsafe'.inv.1 hadv ⟨reviews, hsafe'⟩⟩
  | processed hphase =>
    rw [hphase] at hw
    obtain ⟨reviews, hsafe⟩ := hw
    -- the outcome is committed, so the job is settled
    obtain ⟨hnoTx, result, _, _, hsettled⟩ := hsafe.ok
    exact ⟨F, hsame, Or.inl rfl, h.control ⟨hsettled.only, hnoTx⟩⟩
  | processRaised hphase =>
    rw [hphase] at hw
    refine ⟨F, hsame, Or.inl rfl, h.control ?_⟩
    have := ProcessingOk.dead hw
    simpa only [Service.Holding, hphase] using this
  | crash =>
    by_cases hhold : s.Holding
    · -- the job that was held stays running, for good
      exact ⟨s.world.db.committed.Running, fun hno => absurd hhold (hno rfl),
        Or.inr rfl, h.crash fun _ => Iff.rfl⟩
    · obtain ⟨F', hsub, hrun⟩ := h.running hhold
      exact ⟨F', fun _ => hsub, Or.inr rfl, h.crash hrun⟩

/-- The run lemma: in every reachable state the invariant holds for some set of jobs that are
running. -/
theorem inv_reachable {P : Service D → Event D → Prop} {s : Service D} (h : ReachableIf P s) :
    ∃ F, Inv F s := by
  induction h with
  | initial ext => exact ⟨_, inv_initial ext⟩
  | step _ hs _ ih =>
    obtain ⟨F, hinv⟩ := ih
    obtain ⟨F', _, _, hinv'⟩ := inv_step hinv hs
    exact ⟨F', hinv'⟩

/-- Along a run whose process never dies while its worker holds a job, no job is abandoned. -/
theorem inv_reachableIf {P : Service D → Event D → Prop}
    (hP : ∀ s ev, P s ev → ev = .crash → ¬ s.Holding) {s : Service D} (h : ReachableIf P s) :
    Inv (fun _ => False) s := by
  induction h with
  | initial ext => exact inv_initial ext
  | step _ hs hcond ih =>
    obtain ⟨F', hsub, _, hinv'⟩ := inv_step ih hs
    have hempty : F' = fun _ => False :=
      funext fun id => propext ⟨hsub (hP _ _ hcond) id, False.elim⟩
    exact hempty ▸ hinv'

end Runs

end VidiPr
