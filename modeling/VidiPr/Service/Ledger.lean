import VidiPr.Pipeline.Outcome
import VidiPr.Service.History

/-!
# The ledger

`reviews_posted` and the job table are the service's memory of what it has posted. Over whole runs,
crashes and restarts included, both are what the turns of the worker have kept, so they agree with
each other and with what GitHub has accepted, that is, with the `create_review` calls it has
answered with success.

* **`Booked`** — the rows of `reviews_posted` are those the turns have kept, each in one of them.
* **`Settles`** — the row of a started job says what its turn has kept last.
* **`ledger`** — job by job: its turn has posted one review and entered it, or it has posted none
  and entered none, or it has not entered its outcome and the job is still running.
-/

namespace VidiPr

open Effect Prog Relational Text Service

/-! ## Routines that keep a relation -/

/-- A relation of stores that the statements of `O` keep. -/
structure Kept (O : Dml → Prop) (R : Db → Db → Prop) : Prop where
  refl : ∀ db, R db db
  trans : ∀ {db₁ db₂ db₃}, R db₁ db₂ → R db₂ db₃ → R db₁ db₃
  apply : ∀ d, O d → ∀ db, R db (d.apply db).2

/-- What is left of a routine of `a` sends statements of `O` only, and its transaction has kept
`R`. -/
structure Minds {α : Type} (O : Dml → Prop) (R : Db → Db → Prop) (a : Actor) (p : Py α)
    (s : Sqlite) : Prop where
  calls : p.Calls (Req.Writes O)
  tx : TxKeeps R a s

namespace Minds

variable {α : Type} {O : Dml → Prop} {R : Db → Db → Prop} {a b : Actor} {p : Py α} {s s' : Sqlite}

theorem of_not_owns (hp : p.Calls (Req.Writes O)) (hfree : ¬ s.Owns a) : Minds O R a p s :=
  ⟨hp, txKeeps_of_not_owns hfree⟩

theorem env (h : Minds O R a p s) (hne : b ≠ a) (hstep : ActorStep b s s') : Minds O R a p s' :=
  ⟨h.calls, h.tx.env hne hstep⟩

/-- A request of the routine commits what keeps `R`. -/
theorem step {X : External} {e : Req} {k : Except PyError e.Resp → Py α} {r : Except PyError e.Resp}
    {w w' : World X} (h : Minds O R a (.call e k) w.db) (hkept : Kept O R)
    (hsem : sem X a e w r w') :
    R w.db.committed w'.db.committed ∧ Minds O R a (k r) w'.db := by
  obtain ⟨hsame, htx⟩ := tx_step hkept.refl hkept.trans hkept.apply h.calls.1 hsem h.tx
  exact ⟨hsame, h.calls.2 r, htx⟩

end Minds

section Calls

variable {D : Deployment} {s s' : Service D} {O : D.workload.Task → Dml → Prop}
  {R : D.workload.Task → Db → Db → Prop}

/-- Every task in flight sends its own statements only. -/
def CallsMind (O : D.workload.Task → Dml → Prop) (R : D.workload.Task → Db → Db → Prop)
    (s : Service D) : Prop :=
  ∀ n call, s.calls n = some call → Minds (O call.task) (R call.task) (.call n) call.prog s.world.db

theorem CallsMind.worker (h : CallsMind O R s) {t : Service D} {e : Req} {r : Except PyError e.Resp}
    {world : World D.external} (hsem : sem D.external .worker e s.world r world)
    (hworld : t.world = world) (hcalls : t.calls = s.calls) : CallsMind O R t := by
  intro n call hn
  rw [hworld]
  exact (h n call (hcalls ▸ hn)).env (b := .worker) (by simp) (actorStep_of_sem hsem)

/-- The step lemma of the tasks: each of them sends only statements it is allowed to, so its
transaction can only relate the stores as these statements do. -/
theorem callsMind_step [UnicodeDb] {ev : Event D} {F : Nat → Prop}
    (hD : ∀ task, (D.workload.prog task).Calls (Req.Writes (O task)))
    (hR : ∀ task, Kept (O task) (R task)) (h : CallsMind O R s) (hinv : Inv F s)
    (hs : Step s ev s') : CallsMind O R s' := by
  cases hs with
  -- a new task has written nothing
  | spawn n task hn =>
    intro m call hm
    change Function.update s.calls n _ m = some call at hm
    by_cases heq : m = n
    · subst heq
      rw [Function.update_self] at hm
      cases hm
      exact .of_not_owns (hD task) (hinv.free _ hn)
    · rw [Function.update_of_ne heq] at hm
      exact h m call hm
  -- the task makes a statement of its own, and the others keep theirs
  | @call n task since e k r world hcall hsem =>
    intro m call hm
    change Function.update s.calls n _ m = some call at hm
    by_cases heq : m = n
    · subst heq
      rw [Function.update_self] at hm
      cases hm
      exact ((h m _ hcall).step (hR task) hsem).2
    · rw [Function.update_of_ne heq] at hm
      have hne : Actor.call n ≠ .call m := fun h => heq (Actor.call.inj h).symm
      exact (h m call hm).env hne (actorStep_of_sem hsem)
  | recoverStep hphase hsem | claimStep hphase hsem | processStep hphase hsem =>
    exact h.worker hsem rfl rfl
  | crash => exact fun n call hn => by cases hn
  | external | start | recover | recovered | requestStop | leave | claim | claimedNone | wake
  | claimedSome | claimRaised | processed | processRaised => exact h

end Calls

/-! ## Who writes the two tables of posts -/

/-- A statement about neither `reviews_posted` nor `failure_cooldowns`. -/
def Dml.SparesPosts : Dml → Prop
  | .insertReviewPosted _ | .upsertFailureCooldown _ => False
  | _ => True

/-- `reviews_posted` and `failure_cooldowns` are the same: the two tables that say what was
posted. -/
structure Db.SamePosts (db db' : Db) : Prop where
  reviews : db'.reviewsPosted = db.reviewsPosted
  cooldowns : db'.failureCooldowns = db.failureCooldowns

theorem samePosts_kept : Kept Dml.SparesPosts Db.SamePosts where
  refl _ := ⟨rfl, rfl⟩
  trans h h' := ⟨h'.reviews.trans h.reviews, h'.cooldowns.trans h.cooldowns⟩
  apply d h db := by
    cases d with
    | insertReviewPosted posted => exact h.elim
    | upsertFailureCooldown cooldown => exact h.elim
    | _ => exact ⟨rfl, rfl⟩

theorem claimOne_sparesPosts : Worker.claimOne.Calls (Req.Writes Dml.SparesPosts) := by
  refine withSession_writes ((calls_perform trivial).bind fun pending => ?_)
  cases pending with
  | none => trivial
  | some job =>
    refine (updateJobStatus_writes fun now => trivial).bind fun _ => ?_
    refine (calls_perform trivial).bind fun _ => (calls_perform trivial).bind fun row => ?_
    cases row <;> trivial

theorem recoveryRoutine_sparesPosts :
    recoveryRoutine.Calls (Req.Writes Dml.SparesPosts) := by
  have hrecover : recoverOnStartup.Calls (Req.Writes Dml.SparesPosts) :=
    (calls_perform trivial).bind fun now => (calls_perform trivial).bind fun _ =>
      (calls_perform trivial).bind fun _ => trivial
  exact withSession_writes (hrecover.bind fun _ => calls_perform trivial)

variable {D : Deployment} {s s' : Service D} {turns : Turns}

/-- The rows a turn has kept: those it inserted into `reviews_posted` and whose transaction it has
committed. -/
def Turn.rows (turn : Turn) : List ReviewPosted := reviewsOf (journal turn.trace).kept

/-- Between two turns the worker writes neither table: what it runs then are `_claim_one` and the
recovery. -/
def SparesPhase (phase : WorkerPhase) (s : Sqlite) : Prop :=
  match phase with
  | .claiming p => Minds Dml.SparesPosts Db.SamePosts .worker p s
  | .recovering p => Minds Dml.SparesPosts Db.SamePosts .worker p s
  | _ => True

/-- The rows of `reviews_posted` are those the turns have kept, each in one of them. -/
structure Booked (s : Service D) (turns : Turns) : Prop where
  spares : SparesPhase s.worker s.world.db
  current : ∀ job p turn, s.worker = .processing job p → turns job.id = some turn →
    (journal turn.trace).Of .worker s.world.db
  rows : ∀ row, row ∈ s.world.db.committed.reviewsPosted ↔
    ∃ id turn, turns id = some turn ∧ row ∈ turn.rows
  apart : ∀ id id' turn turn' row, turns id = some turn → turns id' = some turn' →
    row ∈ turn.rows → row ∈ turn'.rows → id = id'

namespace Booked

/-- The table stays, and the worker is in no turn. -/
theorem move (h : Booked s turns) {t : Service D}
    (hreviews : t.world.db.committed.reviewsPosted = s.world.db.committed.reviewsPosted)
    (hspares : SparesPhase t.worker t.world.db)
    (hphase : ∀ job p, t.worker ≠ .processing job p) : Booked t turns :=
  ⟨hspares, fun job p _ hp => absurd hp (hphase job p), hreviews ▸ h.rows, h.apart⟩

theorem env (h : Booked s turns) {t : Service D} {n : Nat}
    (hreviews : t.world.db.committed.reviewsPosted = s.world.db.committed.reviewsPosted)
    (hphase : t.worker = s.worker) (hstep : ActorStep (.call n) s.world.db t.world.db) :
    Booked t turns := by
  have hne : Actor.call n ≠ .worker := nofun
  refine ⟨?_, fun job p turn hp hturn => ?_, hreviews ▸ h.rows, h.apart⟩
  · rw [hphase]
    have hspares := h.spares
    unfold SparesPhase at hspares ⊢
    split at hspares
    · exact hspares.env hne hstep
    · exact hspares.env hne hstep
    · trivial
  · exact (h.current job p turn (hphase ▸ hp) hturn).env hne hstep

/-- A request of a routine that adds nothing. -/
theorem spare (h : Booked s turns) {α : Type} {e : Req} {k : Except PyError e.Resp → Py α}
    {r : Except PyError e.Resp} {world : World D.external} {t : Service D}
    (hspares : Minds Dml.SparesPosts Db.SamePosts .worker (.call e k) s.world.db)
    (hsem : sem D.external .worker e s.world r world)
    (hworld : t.world = world) (hphase : ∀ job p, t.worker ≠ .processing job p)
    (hnext : Minds Dml.SparesPosts Db.SamePosts .worker (k r) world.db →
      SparesPhase t.worker t.world.db) : Booked t turns := by
  obtain ⟨hsame, hspares'⟩ := hspares.step samePosts_kept hsem
  refine h.move ?_ (hnext hspares') hphase
  rw [hworld]
  exact hsame.reviews

/-- A turn begins with an empty journal, and the worker holds no transaction, so that the journal is
that of the worker's view. -/
theorem begin (h : Booked s turns) {job : Job} {p : Py Unit} {t : Service D}
    (hfresh : turns job.id = none) (hworld : t.world = s.world)
    (hphase : t.worker = .processing job p) (hfree : ¬ s.world.db.Owns .worker) :
    Booked t (Function.update turns job.id (some ⟨job, []⟩)) := by
  -- a turn that has rows was begun before
  have hne : ∀ id turn row, Function.update turns job.id (some ⟨job, []⟩) id = some turn →
      row ∈ turn.rows → turns id = some turn := by
    intro id turn row hturn hrow
    by_cases hid : id = job.id
    · subst hid
      rw [Function.update_self] at hturn
      cases hturn
      exact absurd hrow List.not_mem_nil
    · rwa [Function.update_of_ne hid] at hturn
  refine ⟨?_, fun job' p' turn hp hturn => ?_, fun row => ?_, ?_⟩
  · rw [hphase]
    trivial
  · rw [hphase] at hp
    cases hp
    rw [Function.update_self] at hturn
    cases hturn
    rw [hworld]
    exact Journal.of_not_owns hfree
  · rw [hworld, h.rows]
    constructor
    · -- the table is as it was, since the new turn has no row
      rintro ⟨id, turn, hturn, hrow⟩
      have hid : id ≠ job.id := by
        rintro rfl
        rw [hfresh] at hturn
        cases hturn
      exact ⟨id, turn, by rwa [Function.update_of_ne hid], hrow⟩
    · rintro ⟨id, turn, hturn, hrow⟩
      exact ⟨id, turn, hne id turn row hturn hrow, hrow⟩
  · intro id id' turn turn' row hturn hturn' hrow hrow'
    exact h.apart id id' turn turn' row (hne id turn row hturn hrow)
      (hne id' turn' row hturn' hrow') hrow hrow'

/-- The turn in progress makes a request: what it commits is what it keeps. -/
theorem request (h : Booked s turns) {turn : Turn} {e : Req}
    {k : Except PyError e.Resp → Py Unit} {r : Except PyError e.Resp} {world : World D.external}
    {t : Service D} (hphase : s.worker = .processing turn.job (.call e k))
    (hturn : turns turn.job.id = some turn) (hsem : sem D.external .worker e s.world r world)
    (hworld : t.world = world) (hnext : t.worker = .processing turn.job (k r)) :
    Booked t (Function.update turns turn.job.id (some (turn.add e r))) := by
  obtain ⟨hof, entries, hkept, -, hreplays⟩ :=
    (h.current _ _ turn hphase hturn).step hsem
  have hrows : (turn.add e r).rows = turn.rows ++ reviewsOf entries := by
    rw [Turn.rows, Turn.add, journal_snoc, hkept, reviewsOf_append]
    rfl
  obtain ⟨hmem, hnew⟩ := reviews_of_replays hreplays
  -- a row of another turn was there before
  have hother : ∀ id turn' row, id ≠ turn.job.id → turns id = some turn' → row ∈ turn'.rows →
      row ∉ reviewsOf entries := fun id turn' row _ hturn' hrow hentry =>
    hnew row hentry ((h.rows row).mpr ⟨id, turn', hturn', hrow⟩)
  refine ⟨?_, fun job' p' turn' hp hturn' => ?_, fun row => ?_, ?_⟩
  · rw [hnext]
    trivial
  · rw [hnext] at hp
    cases hp
    rw [Function.update_self] at hturn'
    cases hturn'
    rw [hworld, Turn.add, journal_snoc]
    exact hof
  · rw [hworld, hmem, h.rows]
    constructor
    · rintro (⟨id, turn', hturn', hrow⟩ | hentry)
      · by_cases hid : id = turn.job.id
        · subst hid
          rw [hturn] at hturn'
          cases hturn'
          exact ⟨_, _, Function.update_self .., by rw [hrows]; exact List.mem_append_left _ hrow⟩
        · exact ⟨id, turn', by rwa [Function.update_of_ne hid], hrow⟩
      · exact ⟨_, _, Function.update_self .., by rw [hrows]; exact List.mem_append_right _ hentry⟩
    · rintro ⟨id, turn', hturn', hrow⟩
      by_cases hid : id = turn.job.id
      · subst hid
        rw [Function.update_self] at hturn'
        cases hturn'
        rw [hrows, List.mem_append] at hrow
        exact hrow.imp_left fun hrow => ⟨_, turn, hturn, hrow⟩
      · rw [Function.update_of_ne hid] at hturn'
        exact Or.inl ⟨id, turn', hturn', hrow⟩
  · intro id id' turn₁ turn₂ row hturn₁ hturn₂ hrow₁ hrow₂
    by_cases hid : id = turn.job.id
    · by_cases hid' : id' = turn.job.id
      · rw [hid, hid']
      · subst hid
        rw [Function.update_self] at hturn₁
        rw [Function.update_of_ne hid'] at hturn₂
        cases hturn₁
        rw [hrows, List.mem_append] at hrow₁
        rcases hrow₁ with hrow₁ | hentry
        · exact h.apart _ _ _ _ row hturn hturn₂ hrow₁ hrow₂
        · exact absurd hentry (hother _ _ row hid' hturn₂ hrow₂)
    · rw [Function.update_of_ne hid] at hturn₁
      by_cases hid' : id' = turn.job.id
      · subst hid'
        rw [Function.update_self] at hturn₂
        cases hturn₂
        rw [hrows, List.mem_append] at hrow₂
        rcases hrow₂ with hrow₂ | hentry
        · exact h.apart _ _ _ _ row hturn₁ hturn hrow₁ hrow₂
        · exact absurd hentry (hother _ _ row hid hturn₁ hrow₁)
      · rw [Function.update_of_ne hid'] at hturn₂
        exact h.apart id id' turn₁ turn₂ row hturn₁ hturn₂ hrow₁ hrow₂

end Booked

section Run

variable [UnicodeDb]

/-- The step lemma of the table: what is in `reviews_posted` is what the turns have inserted. Only
the turn in progress can insert, and every other request of the service spares that table. -/
theorem booked_step {ev : Event D} (h : Booked s turns) (hhist : History s turns)
    (hs : Step s ev s') : Booked s' (note s ev turns) := by
  obtain ⟨seen, F, -, hlife⟩ := hhist.life
  have hw := hlife.inv.worker
  have hspares := h.spares
  cases hs with
  | external hmove => exact ⟨h.spares, h.current, h.rows, h.apart⟩
  | spawn n task hn => exact ⟨h.spares, h.current, h.rows, h.apart⟩
  | requestStop => exact ⟨h.spares, h.current, h.rows, h.apart⟩
  -- a task adds jobs, and no review
  | call hcall hsem =>
    obtain ⟨hgrows, _⟩ := (hlife.inv.calls _ _ hcall).step hsem
    exact h.env hgrows.reviews rfl (actorStep_of_sem hsem)
  | start hphase | crash => exact h.move rfl trivial fun job p hp => by cases hp
  -- recovery spares the table
  | recover hphase may =>
    rw [note_control fun job hp => by rw [hphase] at hp; cases hp]
    rw [hphase] at hw
    exact h.move rfl (Minds.of_not_owns recoveryRoutine_sparesPosts hw.2)
      fun job p hp => by cases hp
  | recoverStep hphase hsem =>
    rw [note_worker fun job p hp => by rw [hphase] at hp; cases hp]
    rw [hphase] at hspares
    exact h.spare hspares hsem rfl (fun job p hp => by cases hp) id
  -- so does `_claim_one`
  | claim hphase hstop =>
    rw [note_control fun job hp => by rw [hphase] at hp; cases hp]
    rw [hphase] at hw
    exact h.move rfl (Minds.of_not_owns claimOne_sparesPosts hw.2) fun job p hp => by cases hp
  | claimStep hphase hsem =>
    rw [note_worker fun job p hp => by rw [hphase] at hp; cases hp]
    rw [hphase] at hspares
    exact h.spare hspares hsem rfl (fun job p hp => by cases hp) id
  -- a turn begins
  | claimedSome hphase =>
    rw [note_claimed hphase]
    rw [hphase] at hw
    exact h.begin (turn_fresh hhist hphase) rfl rfl hw.ok.1
  -- and goes on
  | processStep hphase hsem =>
    rw [note_processing hphase]
    obtain ⟨turn, hturn, rfl, _⟩ := (turns_history hhist).current _ _ hphase
    rw [hturn]
    exact h.request hphase hturn hsem rfl rfl
  | recovered hphase | leave hphase | claimedNone hphase | wake hphase | claimRaised hphase
  | processed hphase | processRaised hphase =>
    rw [note_control fun job hp => by rw [hphase] at hp; cases hp]
    exact h.move rfl trivial fun job p hp => by cases hp

/-- The run lemma of the table: over a whole run `reviews_posted` is what the turns have kept, row
by row. -/
theorem booked_history (h : History s turns) : Booked s turns := by
  induction h with
  | initial ext =>
    refine ⟨trivial, fun job p turn hp => (by cases hp), fun row => ?_,
      fun id id' turn turn' row hturn => ?_⟩
    · refine iff_of_false (Table.not_mem_empty row) ?_
      rintro ⟨id, turn, hturn, _⟩
      cases hturn
    · cases hturn
  | step h hs ih => exact booked_step ih h hs

/-! ## The row of a started job -/

/-- A job that `_claim_one` has found was never started. -/
theorem found_fresh {seen : Seen} (h : Observed s seen) :
    ∀ p, s.worker = .claiming p → ∀ job, seen.found = some job → job.id ∉ s.started := by
  induction h with
  | initial ext =>
    intro p hp
    cases hp
  | @step s s' ev seen hobs hs ih =>
    obtain ⟨F, hlife⟩ := life_observed hobs
    have hread := (life_foot hlife hs).2.1
    cases hs with
    | external | spawn | call | requestStop => exact ih
    -- a new call has found nothing yet
    | claim => exact fun p _ job hfound => by cases hfound
    | @claimStep e k r world hphase hsem =>
      intro p _ job hfound hmem
      rcases observe_cases s (.worker e r) seen with heq | heq | ⟨row, heq⟩
      · rw [heq] at hfound
        exact ih _ hphase job hfound hmem
      · rw [heq] at hfound
        cases hfound
      · -- the row it has just read is pending, and a started job is not
        rw [heq] at hfound
        obtain rfl : row = some job := hfound
        have hpending := mem_pendingJobs.mp (mem_of_oldestJob (hread _ _ heq).symm)
        obtain ⟨old, hold, hid, hst⟩ := hlife.inv.begun _ hmem
        have hsame : old = job := Table.eq_of_key_eq hold hpending.1 hid
        exact hst (hsame ▸ hpending.2)
    | _ => exact fun p hp => by cases hp

/-- The row of a running job about which this was written last. -/
def Job.Shows (job : Job) : Option JobOutcome → Prop
  | some outcome => job.outcome = outcome
  | none => job.status = .running

/-- The row of a started job: still running, or what its turn has kept last. -/
structure Turn.Row (turn : Turn) (row : Job) : Prop where
  id : row.id = turn.job.id
  key : row.key = turn.job.key
  head : row.headSha = turn.job.headSha
  outcome : row.Shows (outcomeOf turn.job.id (journal turn.trace).kept)

/-- Every started job has the row its turn has left, and nothing else ends it. -/
structure Settles (s : Service D) (turns : Turns) : Prop where
  calm : ∀ p, s.worker ≠ .recovering p
  row : ∀ id turn, turns id = some turn → ∃ row ∈ s.world.db.committed.jobs, turn.Row row

/-- The rows of the started jobs stay. -/
theorem Settles.stay (h : Settles s turns) (hinv : TurnsInv s turns) {t : Service D}
    (hrows : ∀ row ∈ s.world.db.committed.jobs, row.id ∈ s.started →
      row ∈ t.world.db.committed.jobs)
    (hphase : ∀ p, t.worker ≠ .recovering p) : Settles t turns := by
  refine ⟨hphase, fun id turn hturn => ?_⟩
  obtain ⟨row, hrow, hleft⟩ := h.row id turn hturn
  have hid : turn.job.id = id := (hinv.runs id turn hturn).1
  have hstarted : row.id ∈ s.started := (hinv.begun _).mpr ⟨turn, by rw [hleft.id, hid, hturn]⟩
  exact ⟨row, hrows row hrow hstarted, hleft⟩

/-- The turn in progress makes a request. -/
theorem Settles.request (h : Settles s turns) {turn : Turn} {e : Req}
    {r : Except PyError e.Resp} {t : Service D} {entries : List Entry}
    (hturn : turns turn.job.id = some turn) (hinv : TurnsInv s turns)
    (hkept : (journal (turn.add e r).trace).kept = (journal turn.trace).kept ++ entries)
    (hfor : ∀ c ∈ entries, Dml.For turn.job c.1)
    (hreplays : Replays s.world.db.committed entries t.world.db.committed)
    (hphase : ∀ p, t.worker ≠ .recovering p) :
    Settles t (Function.update turns turn.job.id (some (turn.add e r))) := by
  refine ⟨hphase, fun id turn' hturn' => ?_⟩
  by_cases hid : id = turn.job.id
  · -- the row of the job itself shows what was written last
    subst hid
    rw [Function.update_self] at hturn'
    cases hturn'
    obtain ⟨row, hrow, hleft⟩ := h.row _ _ hturn
    obtain ⟨row', hrow', hid', hkey, hhead, houtcome⟩ :=
      outcome_of_replays hreplays hfor hrow hleft.id
    refine ⟨row', hrow', hid', hkey.trans hleft.key, hhead.trans hleft.head, ?_⟩
    have hold := hleft.outcome
    show row'.Shows (outcomeOf turn.job.id (journal (turn.add e r).trace).kept)
    rw [hkept, outcomeOf_append]
    cases hnew : outcomeOf turn.job.id entries with
    | some outcome =>
      rw [hnew] at houtcome
      exact houtcome
    -- nothing about the outcome was committed by this request
    | none =>
      rw [hnew] at houtcome
      rw [Option.none_or]
      cases hlast : outcomeOf turn.job.id (journal turn.trace).kept with
      | some outcome =>
        rw [hlast] at hold
        exact houtcome.trans hold
      | none =>
        rw [hlast] at hold
        exact (congrArg Prod.fst houtcome).trans hold
  · -- the statements of a turn leave the rows of other jobs alone
    rw [Function.update_of_ne hid] at hturn'
    obtain ⟨row, hrow, hleft⟩ := h.row id turn' hturn'
    have hother : row.id ≠ turn.job.id := by
      rw [hleft.id, (hinv.runs id turn' hturn').1]
      exact hid
    have htouches : s.world.db.committed.Touches turn.job t.world.db.committed :=
      hreplays.keeps (Db.Touches.refl turn.job) Db.Touches.trans (fun _ hd => hd.touches) hfor
    exact ⟨row, (htouches.jobs row hother).mpr hrow, hleft⟩

/-- The statements of a turn are about its job. -/
theorem Turn.Runs.entries {turn : Turn} {p : Py Unit} (h : turn.Runs D p) :
    ∀ c ∈ (journal turn.trace).kept, Dml.For turn.job c.1 := by
  have hcalls := (process_writes D.config D.reviewer turn.job).run h
  have hall := Journal.recordAll_entries (j := {}) hcalls.1 fun c hc => absurd hc List.not_mem_nil
  exact fun c hc => hall c (List.mem_append_left _ hc)

/-- The step lemma of the rows: a job whose turn has begun shows in its row what that turn has
committed. Without a recovery nobody else writes to such a row. -/
theorem settles_step {ev : Event D} (hserve : ¬ D.mayRecover) (h : Settles s turns)
    (hhist : History s turns) (hs : Step s ev s') : Settles s' (note s ev turns) := by
  obtain ⟨seen, F, hobs, hlife⟩ := hhist.life
  have hinv := turns_history hhist
  have hw := hlife.inv.worker
  cases hs with
  | external | spawn | requestStop => exact ⟨h.calm, h.row⟩
  -- a task only adds rows
  | call hcall hsem =>
    obtain ⟨hgrows, _⟩ := (hlife.inv.calls _ _ hcall).step hsem
    exact h.stay hinv (fun row hrow _ => hgrows.jobs row hrow) h.calm
  | start | crash => exact h.stay hinv (fun row hrow _ => hrow) fun p hp => by cases hp
  | recover hphase may => exact absurd may hserve
  | recoverStep hphase => exact absurd hphase (h.calm _)
  -- what is claimed was never started, so no started job is touched
  | claimStep hphase hsem =>
    rw [note_worker fun job p hp => by rw [hphase] at hp; cases hp]
    have hwrote := (worker_wrote hlife (.claimStep hphase hsem)).1
    rw [hphase] at hwrote
    refine h.stay hinv (fun row hrow hstarted => ?_) fun p hp => by cases hp
    cases hfound : seen.found with
    | none =>
      rw [Wrote, hfound] at hwrote
      rw [show _ = s.world.db.committed from hwrote]
      exact hrow
    | some job =>
      rw [Wrote, hfound] at hwrote
      have hne : row.id ≠ job.id := by
        intro heq
        exact found_fresh hobs _ hphase job hfound (heq ▸ hstarted)
      exact ((Db.Touches.jobs hwrote) row hne).mpr hrow
  -- the row is the one that was claimed
  | @claimedSome job hphase =>
    rw [note_claimed hphase]
    rw [hphase] at hw
    obtain ⟨_, _, hheld⟩ := Safe.ok hw
    refine ⟨fun p hp => (by cases hp), fun id turn hturn => ?_⟩
    by_cases hid : id = job.id
    · subst hid
      rw [Function.update_self] at hturn
      cases hturn
      exact ⟨job, hheld.row, rfl, rfl, rfl, hheld.running⟩
    · rw [Function.update_of_ne hid] at hturn
      exact h.row id turn hturn
  | @processStep job e k r world hphase hsem =>
    rw [note_processing hphase]
    obtain ⟨turn, hturn, rfl, hruns⟩ := hinv.current _ _ hphase
    rw [hturn]
    -- what the request commits is about the job itself
    obtain ⟨-, entries, hkept, -, hreplays⟩ :=
      ((booked_history hhist).current _ _ turn hphase hturn).step hsem
    have hadded : (journal (turn.add e r).trace).kept = (journal turn.trace).kept ++ entries := by
      rw [Turn.add, journal_snoc, hkept]
    refine h.request hturn hinv hadded (fun c hc => ?_) hreplays fun p hp => by cases hp
    refine (hruns.add hsem).entries c ?_
    rw [hadded]
    exact List.mem_append_right _ hc
  | recovered hphase | leave hphase | claim hphase | claimedNone hphase | wake hphase
  | claimRaised hphase | processed hphase | processRaised hphase =>
    rw [note_control fun job hp => by rw [hphase] at hp; cases hp]
    exact h.stay hinv (fun row hrow _ => hrow) fun p hp => by cases hp

/-- The run lemma of the rows: over a whole run without a recovery, the row of a started job is the
one that its turn has left. -/
theorem settles_history (hserve : ¬ D.mayRecover) (h : History s turns) : Settles s turns := by
  induction h with
  | initial ext =>
    refine ⟨fun p hp => ?_, fun id turn hturn => ?_⟩
    · cases hp
    · cases hturn
  | step h hs ih => exact settles_step hserve ih h hs

/-! ## The result -/

/-- Where a started job stands, by its row, its rows in `reviews_posted` and what GitHub has
accepted. -/
inductive Turn.Stands (turn : Turn) (job : Job) : Prop where
  /-- the outcome is not entered: the turn is in progress, or was cut short -/
  | running (hstatus : job.status = .running) (hrows : turn.rows = [])
      (haccepted : (reviewsAccepted turn.trace).length ≤ 1)
  /-- one review was posted and entered, and no failure is commented on -/
  | reviewed (row : ReviewPosted) (hstatus : job.outcome.Reviewed) (hrows : turn.rows = [row])
      (haccepted : reviewsAccepted turn.trace = [row.reviewId])
      (hkey : row.key = job.key) (hhead : row.headSha = job.headSha)
      (hcomment : spent Req.price turn.trace .comment = 0)
  /-- the job has ended without a review -/
  | ended (hstatus : job.status.IsTerminal) (hnot : ¬ job.outcome.Reviewed)
      (hrows : turn.rows = []) (haccepted : reviewsAccepted turn.trace = [])

variable [ConfigLibrary] [PromptFiles] {X : External} {W : Workload} {config : OperatorConfig}
  {reviewer : Reviewer}

/-- Where a turn stands can be read off its row: it has committed its outcome or not, and where it
has, the outcome says whether a review was created. -/
theorem Turn.Runs.stands {turn : Turn} {p : Py Unit} {job : Job}
    (h : turn.Runs (.serve X W config (Reviewer.routine reviewer)) p) (hrow : turn.Row job) :
    turn.Stands job := by
  have hanswers : ∀ e s r s', answers X e s r s' → e.Honest r :=
    fun e s r s' ⟨_, _, hsem⟩ => honest_of_sem hsem
  obtain ⟨result, hterm, hconsistent, haccepted, hkept, hcomment⟩ :=
    turn_outcome reviewer turn.job hanswers h
  have houtcome := hrow.outcome
  rcases hkept with ⟨hkept, _⟩ | henters
  · -- nothing was committed: the job is running
    rw [hkept] at houtcome
    refine .running houtcome (by rw [Turn.rows, hkept]; rfl) ?_
    rw [haccepted]
    cases result.reviewId with
    -- no review
    | none => exact Nat.zero_le 1
    -- a review, and its row
    | some reviewId => exact Nat.le_refl 1
  · rw [henters.outcome] at houtcome
    have hresult : job.outcome = result.outcome := houtcome
    have hreviews : turn.rows.map (·.reviewId) = result.reviewId.toList := henters.reviews
    cases hid : result.reviewId with
    | none =>
      rw [hid] at haccepted hreviews
      refine .ended ?_ (fun hreviewed => ?_) (List.map_eq_nil_iff.mp hreviews) haccepted
      · rw [show job.status = result.status from congrArg Prod.fst hresult]
        exact hterm
      · have hsome := hconsistent.mpr (hresult ▸ hreviewed)
        rw [hid] at hsome
        cases hsome
    | some reviewId =>
      rw [hid] at haccepted hreviews
      obtain ⟨row, hrows, hreview⟩ := List.map_eq_singleton_iff.mp hreviews
      have hmem : row ∈ turn.rows := by rw [hrows]; exact List.mem_singleton_self row
      obtain ⟨hrepo, hnumber, hhead⟩ := henters.rows row hmem
      refine .reviewed row ?_ hrows ?_ ?_ (hhead.trans hrow.head.symm) (hcomment ?_)
      · rw [hresult]
        exact hconsistent.mp (by rw [hid]; rfl)
      · rw [haccepted, hreview]
        rfl
      · rw [hrow.key]
        exact Prod.ext hrepo hnumber
      · rw [haccepted]
        exact List.cons_ne_nil _ _

/-- **The ledger.** In every state of every run, crashes and restarts included: the rows of
`reviews_posted` are those the turns have kept, each in one turn; and of every started job the row
in the job table, the rows in `reviews_posted` and the reviews GitHub has accepted agree. GitHub has
accepted one review for a job at most. -/
theorem ledger {s : Service (.serve X W config (Reviewer.routine reviewer))}
    (h : History s turns) :
    (∀ row, row ∈ s.world.db.committed.reviewsPosted ↔
      ∃ id turn, turns id = some turn ∧ row ∈ turn.rows) ∧
    (∀ id id' turn turn' row, turns id = some turn → turns id' = some turn' →
      row ∈ turn.rows → row ∈ turn'.rows → id = id') ∧
    ∀ id turn, turns id = some turn →
      ∃ job ∈ s.world.db.committed.jobs, job.id = id ∧ turn.Stands job := by
  have hbooked := booked_history h
  refine ⟨hbooked.rows, hbooked.apart, fun id turn hturn => ?_⟩
  obtain ⟨hid, p, hruns⟩ := (turns_history h).runs id turn hturn
  obtain ⟨job, hjob, hrow⟩ := (settles_history (fun may => may) h).row id turn hturn
  exact ⟨job, hjob, hrow.id.trans hid, hruns.stands hrow⟩

end Run

section Example

attribute [local instance] asciiDb exampleLibrary emptyPrompts

/-- The ledger of a service that has reviewed one pull request. -/
theorem ledger_reviewed :
    ∃ (s : Service healthyService) (turns : Turns) (turn : Turn) (row : ReviewPosted),
      History s turns ∧ turns 1 = some turn ∧ turn.rows = [row] ∧ row.reviewId = 100 ∧
      reviewsAccepted turn.trace = [100] := by
  obtain ⟨s, hs, hstarted, ⟨job, hjob, hid, hdone⟩, row, hrow, -, hreview⟩ := exists_reviewed
  obtain ⟨turns, hturns⟩ := history_of_reachable hs
  obtain ⟨hrows, -, hstands⟩ := ledger hturns
  obtain ⟨id, turn, hturn, hmem⟩ := (hrows row).mp hrow
  obtain ⟨job', hjob', hid', hstand⟩ := hstands id turn hturn
  -- the only job that was started is the first one
  have hone : id ∈ s.started := ((turns_history hturns).begun id).mpr ⟨turn, hturn⟩
  obtain rfl : id = 1 := List.mem_singleton.mp (hstarted ▸ hone)
  have hsame : job' = job := Table.eq_of_key_eq hjob' hjob (hid'.trans hid.symm)
  cases hstand with
  | reviewed posted _ hposted haccepted =>
    rw [hposted] at hmem
    obtain rfl : row = posted := List.mem_singleton.mp hmem
    exact ⟨s, turns, turn, row, hturns, hturn, hposted, hreview, by rw [haccepted, hreview]⟩
  | running _ hnone | ended _ _ hnone =>
    rw [hnone] at hmem
    cases hmem

end Example

end VidiPr
