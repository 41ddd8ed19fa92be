import VidiPr.Service.System

/-!
# What a routine writes

Which DML statements a routine can send, whatever it is answered, and what that says about its
commits beside any other actors.

* **`tx_step`** — a relation that every statement of an actor keeps, its transaction keeps and its
  commits keep.
* **`Dml.For`** — the statements that name the job `_process` was called with.
* **`Db.Touches`** — what they do to a store, and so what a transaction of them does.
* **`process_writes`**, **`claimRest_writes`** — the footprints of the worker's two routines.
-/

namespace VidiPr

open Effect Prog Text

/-- The statement, if it is one that writes, satisfies `O`. -/
def Req.Writes (O : Dml → Prop) : Req → Prop
  | .sql (.dml d) => O d
  | _ => True

theorem Req.Writes.mono {O O' : Dml → Prop} (h : ∀ d, O d → O' d) {e : Req} (he : e.Writes O) :
    e.Writes O' := by
  unfold Req.Writes at he ⊢
  split
  · exact h _ he
  · trivial

theorem Req.IsExt.writes {O : Dml → Prop} {e : Req} (h : e.IsExt) : e.Writes O := by
  cases e with
  | ext e => trivial
  | sql q => exact h.elim

/-! ## Transactions -/

/-- The open transaction of `a`, if there is one, is in relation `R` to what is committed. -/
def TxKeeps (R : Db → Db → Prop) (a : Actor) (s : Sqlite) : Prop :=
  ∀ work, s.tx = some (a, work) → R s.committed work

/-- An actor whose statements keep `R` commits changes that keep `R`. -/
theorem tx_step {R : Db → Db → Prop} (hrefl : ∀ db, R db db)
    (htrans : ∀ {db₁ db₂ db₃}, R db₁ db₂ → R db₂ db₃ → R db₁ db₃) {O : Dml → Prop}
    (hO : ∀ d, O d → ∀ db, R db (d.apply db).2) {X : External} {a : Actor} {e : Req}
    {w w' : World X} {r : Except PyError e.Resp} (he : e.Writes O) (hsem : sem X a e w r w')
    (h : TxKeeps R a w.db) : R w.db.committed w'.db.committed ∧ TxKeeps R a w'.db := by
  have hsame : w'.db = w.db → R w.db.committed w'.db.committed ∧ TxKeeps R a w'.db :=
    fun heq => by rw [heq]; exact ⟨hrefl _, h⟩
  cases e with
  | ext e => exact hsame hsem.2
  | sql q =>
    cases q with
    -- reading changes nothing
    | query q => rcases hsem.1 with ⟨_, heq⟩ | ⟨_, heq⟩ <;> exact hsame heq
    | dml d =>
      rcases hsem.1 with ⟨_, _, heq⟩ | ⟨_, heq⟩
      · -- the copy the statement works on is the committed store, or in relation to it
        have hview : R w.db.committed (w.db.view a) := by
          by_cases hown : w.db.Owns a
          · obtain ⟨work, htx⟩ := hown
            rw [Sqlite.view_of_tx htx]
            exact h work htx
          · rw [Sqlite.view_of_not_owns hown]
            exact hrefl _
        rw [heq]
        refine ⟨hrefl _, fun work htx => ?_⟩
        cases htx
        exact htrans hview (hO d he _)
      · exact hsame heq
    | commit =>
      rcases hsem.1 with ⟨_, heq⟩ | ⟨_, heq⟩
      · -- the copy becomes the store
        by_cases hown : w.db.Owns a
        · obtain ⟨work, htx⟩ := hown
          rw [heq, Sqlite.commit_of_tx htx]
          exact ⟨h work htx, fun _ hnone => by cases hnone⟩
        · exact hsame (heq.trans (Sqlite.commit_of_not_owns hown))
      · exact hsame heq
    -- and is thrown away
    | rollback =>
      obtain ⟨_, heq⟩ := hsem.1
      rcases w.db.rollback_cases a with ⟨work, _, hroll⟩ | ⟨_, hroll⟩
      · rw [heq, hroll]
        exact ⟨hrefl _, fun _ hnone => by cases hnone⟩
      · exact hsame (heq.trans hroll)

/-- Everybody else leaves a transaction alone. -/
theorem TxKeeps.env {R : Db → Db → Prop} {a b : Actor} {s s' : Sqlite} (h : TxKeeps R a s)
    (hne : b ≠ a) (hstep : ActorStep b s s') : TxKeeps R a s' := by
  intro work htx
  by_cases hown : s.Owns a
  · have hframe : s' = s := hstep.frame hne hown
    rw [hframe] at htx ⊢
    exact h work htx
  · exact absurd ⟨work, htx⟩ (hstep.not_owns hne hown)

theorem txKeeps_of_not_owns {R : Db → Db → Prop} {a : Actor} {s : Sqlite} (h : ¬ s.Owns a) :
    TxKeeps R a s :=
  fun work htx => absurd ⟨work, htx⟩ h

/-! ## Footprints -/

section Routines

variable {O : Dml → Prop}

theorem withSession_writes {α : Type} {body : Py α} (h : body.Calls (Req.Writes O)) :
    (Py.withSession body).Calls (Req.Writes O) :=
  h.andThen fun r => (calls_perform trivial).bind fun _ => calls_ofExcept r

theorem updateJobStatus_writes {jobId : Nat} {status : JobStatus}
    {detail : Option JobStatusDetail} {error : Option String}
    (h : ∀ now, O (.updateJobStatus jobId status detail error now)) :
    (updateJobStatus jobId status detail error).Calls (Req.Writes O) :=
  (calls_perform trivial).bind fun now => calls_perform
    (show Req.Writes O (.sql (.dml _)) from h now)

theorem claimFailureSlot_writes {repo : String} {prNumber : Nat} (cooldownSeconds : Nat)
    (h : ∀ now, O (.upsertFailureCooldown { repo, prNumber, lastPostedAt := now })) :
    (claimFailureSlot repo prNumber cooldownSeconds).Calls (Req.Writes O) := by
  refine (calls_perform trivial).bind fun now => ?_
  split
  · refine (calls_perform trivial).bind fun existing => ?_
    split
    · trivial
    · refine (calls_perform (show Req.Writes O (.sql (.dml _)) from h now)).bind fun _ => ?_
      exact (calls_perform trivial).bind fun _ => trivial
  · trivial

/-- The statements that name `job`, its pull request or nothing else. -/
inductive Dml.For (job : Job) : Dml → Prop where
  | status (status : JobStatus) (detail : Option JobStatusDetail) (error : Option String)
      (updatedAt : Nat) : Dml.For job (.updateJobStatus job.id status detail error updatedAt)
  | unlock : Dml.For job (.deletePrLock job.repo job.prNumber)
  | posted (posted : ReviewPosted) (hrepo : posted.repo = job.repo)
      (hnumber : posted.prNumber = job.prNumber) : Dml.For job (.insertReviewPosted posted)
  | cooldown (now : Nat) : Dml.For job (.upsertFailureCooldown
      { repo := job.repo, prNumber := job.prNumber, lastPostedAt := now })

/-- The pull request a posted review is of. -/
def ReviewPosted.key (posted : ReviewPosted) : PrKey := (posted.repo, posted.prNumber)

/-- Of the jobs only the row of `job` is written, of the other tables only rows of its pull request;
no job is added, or goes to another pull request. -/
structure Db.Touches (job : Job) (db db' : Db) : Prop where
  jobs : ∀ row : Job, row.id ≠ job.id → (row ∈ db'.jobs ↔ row ∈ db.jobs)
  old : ∀ row ∈ db'.jobs, ∃ old ∈ db.jobs, old.id = row.id ∧ old.key = row.key
  locks : ∀ lock : PrLock, lock.key ≠ job.key → (lock ∈ db'.prLocks ↔ lock ∈ db.prLocks)
  reviews : ∀ posted : ReviewPosted, posted.key ≠ job.key →
    (posted ∈ db'.reviewsPosted ↔ posted ∈ db.reviewsPosted)
  cooldowns : ∀ cooldown : FailureCooldown, cooldown.key ≠ job.key →
    (cooldown ∈ db'.failureCooldowns ↔ cooldown ∈ db.failureCooldowns)

namespace Db.Touches

variable {job : Job} {db₁ db₂ db₃ : Db}

theorem refl (job : Job) (db : Db) : db.Touches job db :=
  ⟨fun _ _ => Iff.rfl, fun row hrow => ⟨row, hrow, rfl, rfl⟩, fun _ _ => Iff.rfl,
    fun _ _ => Iff.rfl, fun _ _ => Iff.rfl⟩

theorem trans (h : db₁.Touches job db₂) (h' : db₂.Touches job db₃) : db₁.Touches job db₃ := by
  refine ⟨fun row hne => (h'.jobs row hne).trans (h.jobs row hne), fun row hrow => ?_,
    fun lock hne => (h'.locks lock hne).trans (h.locks lock hne),
    fun posted hne => (h'.reviews posted hne).trans (h.reviews posted hne),
    fun cooldown hne => (h'.cooldowns cooldown hne).trans (h.cooldowns cooldown hne)⟩
  obtain ⟨mid, hmid, hid, hkey⟩ := h'.old row hrow
  obtain ⟨old, hold, hid', hkey'⟩ := h.old mid hmid
  exact ⟨old, hold, hid'.trans hid, hkey'.trans hkey⟩

/-- Where the jobs table is the same. -/
theorem of_jobs (hjobs : db₂.jobs = db₁.jobs)
    (locks : ∀ lock : PrLock, lock.key ≠ job.key → (lock ∈ db₂.prLocks ↔ lock ∈ db₁.prLocks))
    (reviews : ∀ posted : ReviewPosted, posted.key ≠ job.key →
      (posted ∈ db₂.reviewsPosted ↔ posted ∈ db₁.reviewsPosted))
    (cooldowns : ∀ cooldown : FailureCooldown, cooldown.key ≠ job.key →
      (cooldown ∈ db₂.failureCooldowns ↔ cooldown ∈ db₁.failureCooldowns)) :
    db₁.Touches job db₂ := by
  refine ⟨fun row _ => by rw [hjobs], fun row hrow => ?_, locks, reviews, cooldowns⟩
  rw [hjobs] at hrow
  exact ⟨row, hrow, rfl, rfl⟩

end Db.Touches

/-- What the statements about one job do. -/
theorem Dml.For.touches {job : Job} {d : Dml} (h : d.For job) (db : Db) :
    db.Touches job (d.apply db).2 := by
  cases h with
  -- one row of the jobs
  | status status detail error updatedAt =>
    refine ⟨fun row hne => ?_, fun row hrow => ?_, fun _ _ => Iff.rfl, fun _ _ => Iff.rfl,
      fun _ _ => Iff.rfl⟩
    · rw [mem_updateJobStatus]
      constructor
      · rintro (⟨old, _, hid, rfl⟩ | ⟨hrow, _⟩)
        · exact absurd hid hne
        · exact hrow
      · exact fun hrow => Or.inr ⟨hrow, hne⟩
    · rcases mem_updateJobStatus.mp hrow with ⟨old, hold, _, rfl⟩ | ⟨hold, _⟩
      · exact ⟨old, hold, rfl, rfl⟩
      · exact ⟨row, hold, rfl, rfl⟩
  -- the lock of its pull request
  | unlock =>
    refine .of_jobs rfl (fun lock hne => ?_) (fun _ _ => Iff.rfl) fun _ _ => Iff.rfl
    have hkey : lock.key ≠ (job.repo, job.prNumber) := hne
    simp [Dml.apply, hkey]
  -- one new row of the reviews
  | posted posted hrepo hnumber =>
    refine .of_jobs rfl (fun _ _ => Iff.rfl) (fun row hne => ?_) fun _ _ => Iff.rfl
    show row ∈ (db.reviewsPosted.insertAuto (fun id => { posted with id }) fun _ => rfl).1 ↔ _
    rw [Relational.Table.mem_insertAuto, or_iff_left]
    rintro rfl
    exact hne (by simp [ReviewPosted.key, Job.key, hrepo, hnumber])
  -- the cooldown of its pull request
  | cooldown now =>
    exact .of_jobs rfl (fun _ _ => Iff.rfl) (fun _ _ => Iff.rfl) fun row hne =>
      Relational.Table.mem_upsert_of_ne hne

theorem recordReview_writes (job : Job) (result : ReviewResult) :
    (Worker.recordReview job result).Calls (Req.Writes (Dml.For job)) := by
  unfold Worker.recordReview
  split
  · refine Calls.bind ?_ fun _ => trivial
    refine (calls_perform trivial).bind fun now => ?_
    exact calls_perform (show Req.Writes _ (.sql (.dml _)) from .posted _ rfl rfl)
  · trivial

/-- `_claim_one` after it has found `job`. -/
def claimRest (job : Job) : Py (Option Job) := do
  updateJobStatus job.id .running none none
  Py.commit
  let row ← Py.query (.job job.id)
  match row with
  | some refreshed => return some refreshed
  | none => Py.throw (.other "could not refresh instance")

theorem claimRest_writes (job : Job) : (claimRest job).Calls (Req.Writes (Dml.For job)) := by
  refine (updateJobStatus_writes fun now => .status .running none none now).bind fun _ => ?_
  refine (calls_perform trivial).bind fun _ => (calls_perform trivial).bind fun row => ?_
  cases row <;> trivial

variable [UnicodeDb]

theorem createComment_writes (installationId : Nat) (repo : String) (issueNumber : Nat)
    (body : String) :
    (GitHubClient.createComment installationId repo issueNumber body).Calls (Req.Writes O) :=
  (GitHubClient.createComment_calls (O := fun _ => True) _ fun _ _ => trivial).mono
    fun _ he => he.isExt.writes

/-- The failure comment writes the slot it claims. -/
theorem maybePostFailureComment_slot {repo : String} {prNumber : Nat} (installationId : Nat)
    (message : String) (cooldownSeconds : Nat)
    (h : ∀ now, O (.upsertFailureCooldown { repo, prNumber, lastPostedAt := now })) :
    (maybePostFailureComment installationId repo prNumber message cooldownSeconds).Calls
      (Req.Writes O) := by
  refine (withSession_writes (claimFailureSlot_writes _ h)).bind fun allowed => ?_
  split
  · refine (createComment_writes ..).andThen fun r => ?_
    cases r with
    | ok commentId => trivial
    | error x => cases x <;> trivial
  · trivial

theorem maybePostFailureComment_writes (job : Job) (message : String) (cooldownSeconds : Nat) :
    (maybePostFailureComment job.installationId job.repo job.prNumber message cooldownSeconds).Calls
      (Req.Writes (Dml.For job)) :=
  maybePostFailureComment_slot _ _ _ fun now => .cooldown now

/-- What `_process` writes after the review is about its own job: the status, the lock, the review
and the cooldown of its pull request. -/
theorem settle_writes (config : OperatorConfig) (job : Job) (r : Except PyError ReviewResult) :
    (Worker.settle config job r).Calls (Req.Writes (Dml.For job)) := by
  -- the three statements it is made of
  have hstatus : ∀ status detail error,
      (updateJobStatus job.id status detail error).Calls (Req.Writes (Dml.For job)) :=
    fun status detail error => updateJobStatus_writes fun now => .status status detail error now
  have hrelease : ((releaseLock job.repo job.prNumber).bind fun _ => Py.commit).Calls
      (Req.Writes (Dml.For job)) :=
    (calls_perform (show Req.Writes _ (.sql (.dml _)) from .unlock)).bind fun _ =>
      calls_perform trivial
  have hfail : ∀ detail error message,
      (Worker.finalizeFailure config job detail error message).Calls
        (Req.Writes (Dml.For job)) := by
    intro detail error message
    refine (withSession_writes ((hstatus _ _ _).bind fun _ => hrelease)).bind fun _ => ?_
    exact (maybePostFailureComment_writes ..).bind fun _ => trivial
  cases r with
  | ok result =>
    refine (withSession_writes ((hstatus _ _ _).bind fun _ =>
      (recordReview_writes job result).bind fun _ => hrelease)).bind fun _ => ?_
    split
    · exact (maybePostFailureComment_writes ..).bind fun _ => trivial
    · trivial
  | error x =>
    cases x with
    -- a cancelled review is not settled
    | cancelled => trivial
    | _ => exact hfail _ _ _

theorem process_writes (config : OperatorConfig) (reviewer : ReviewRoutine) (job : Job) :
    (Worker.process config reviewer.run job).Calls (Req.Writes (Dml.For job)) := by
  have hreview : (Py.waitFor (reviewer.run job)).Calls (Req.Writes (Dml.For job)) := by
    refine ((reviewer.calls job).mono fun e he => he.writes).tryCatch fun x => ?_
    cases x <;> trivial
  exact hreview.andThen fun r => settle_writes config job r

end Routines

theorem claimOne_eq : Worker.claimOne =
    .call (Req.sql (.query .oldestPendingJob)) fun r =>
      match r with
      | .ok (some job) => Py.withSession (claimRest job)
      | .ok none => Py.withSession (.ret none)
      | .error x => Py.withSession (.raise x) := by
  show Prog.call (Req.sql (.query .oldestPendingJob)) _ = _
  congr 1
  funext r
  match r with
  | .ok (some job) => rfl
  | .ok none => rfl
  | .error x => rfl

end VidiPr
