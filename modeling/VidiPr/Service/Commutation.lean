import Mathlib.Logic.Equiv.Basic
import VidiPr.Service.Isolation
import VidiPr.Transport.Traces

/-!
# Operations on different pull requests commute

An operation of the store, run with nobody beside it, and what it commits. Two operations on
different pull requests leave the same store in either order, up to the ids the database chose
and the times of the clock.

* **`solo`** — an actor alone with the store; one rule for each kind of statement.
* **`Operation.leaves`** — what a finished operation has committed, by how many transactions it
  committed and whether it ended in an exception.
* **`Db.AlikeAt`** — the rows of a pull request are the same up to ids and timestamps.
* **`pr_isolation`** — the frame of every step, and the order of two operations.
-/

namespace VidiPr

open Effect Prog Relational Text Service

-- the resolution of a repository name is not looked into
attribute [local irreducible] GitHubClient.splitRepo

/-! ## An actor alone -/

/-- A request of actor `a` on the store, on record. -/
def soloSem (a : Actor) : Sem Req Req.Resp PyError (Sqlite × WorkerLog)
  | .sql q, c, r, c' => sqlSem a q c.1 r c'.1 ∧ c'.2 = c.2.record (.sql q) r
  | .ext e, c, r, c' => e.Possible r ∧ c' = c

/-- Nobody but `a` is there. -/
abbrev solo (a : Actor) : Setting Req Req.Resp PyError (Sqlite × WorkerLog) :=
  Setting.alone (soloSem a) fun _ => True

/-- The log of a trace. -/
def logOf (tr : ReqTrace) (log : WorkerLog) : WorkerLog :=
  tr.foldl (fun log c => log.record c.1 c.2) log

theorem record_ext {e : ExtReq} {r : Except PyError (Req.ext e).Resp} {log : WorkerLog} :
    log.record (.ext e) r = log := by
  cases r <;> rfl

/-- A run of an actor, seen from the store. -/
theorem solo_run {X : External} {a : Actor} {α : Type} {p q : Py α} {w w' : World X}
    {tr : ReqTrace} (h : Run (sem X a) p w tr q w') (log : WorkerLog) :
    Run (soloSem a) p (w.db, log) tr q (w'.db, logOf tr log) := by
  induction h generalizing log with
  | refl => exact .refl _ _
  | @step e k s s' s'' r tr q hsem _ ih =>
    -- the answer of the outside is a possible one, and it leaves the store as it is
    have hstep : soloSem a e (s.db, log) r (s'.db, log.record e r) := by
      cases e with
      | sql q => exact ⟨hsem.1, rfl⟩
      | ext e =>
        refine ⟨X.possible hsem.1, ?_⟩
        rw [hsem.2, record_ext]
    exact .step hstep (ih _)

variable {a : Actor} {α β : Type} {c : Sqlite × WorkerLog}

section Rules

variable {Q : Except PyError α → Sqlite × WorkerLog → Prop}

/-- What holds after every run alone holds after a run of an actor that was alone. -/
theorem solo_ends {X : External} {p : Py α} {w w' : World X} {tr : ReqTrace}
    {r : Except PyError α} (h : Ends (sem X a) p w tr r w') (hwp : wp (solo a) p Q (w.db, {})) :
    Q r (w'.db, logOf tr {}) :=
  Safe.ends (S := solo a) ⟨trivial, hwp⟩ (solo_run h {})

theorem solo_call {e : Req} {k : Except PyError e.Resp → Py α}
    (h : ∀ r c', soloSem a e c r c' → wp (solo a) (k r) Q c') : wp (solo a) (.call e k) Q c := by
  intro c₁ henv _ r c₂ hsem
  obtain rfl := env_alone henv
  exact ⟨trivial, trivial, h r c₂ hsem⟩

theorem solo_ofExcept {r : Except PyError α} (h : Q r c) : wp (solo a) (Prog.ofExcept r) Q c := by
  cases r with
  | ok v =>
    intro c' henv _
    obtain rfl := env_alone henv
    exact h
  | error x =>
    intro c' henv _
    obtain rfl := env_alone henv
    exact h

theorem solo_perform {e : Req} {Q : Except PyError e.Resp → Sqlite × WorkerLog → Prop}
    (h : ∀ r c', soloSem a e c r c' → Q r c') : wp (solo a) (Prog.perform e) Q c :=
  solo_call fun r c' hsem => solo_ofExcept (h r c' hsem)

/-- Sequencing: an exception is the outcome. -/
theorem solo_bind {p : Py β} {f : β → Py α}
    (h : wp (solo a) p (fun r c' => match r with
      | .ok v => wp (solo a) (f v) Q c'
      | .error x => Q (.error x) c') c) : wp (solo a) (p.bind f) Q c := by
  refine wp_andThen trivial (wp_mono h fun r c' _ hr => ?_)
  cases r with
  | ok v => exact hr
  | error x => exact solo_ofExcept (r := .error x) hr

/-- A session: what is not committed is dropped. -/
theorem solo_session {body : Py α}
    (h : wp (solo a) body (fun r c' => Q r (c'.1.rollback a, c'.2)) c) :
    wp (solo a) (Py.withSession body) Q c := by
  refine wp_andThen trivial (wp_mono h fun r c' _ hr => solo_bind (solo_perform ?_))
  rintro r' ⟨s, log⟩ ⟨⟨rfl, rfl⟩, rfl⟩
  exact solo_ofExcept hr

/-- A program that never uses the database, with an outcome that possible answers allow. -/
theorem solo_ext {Y : Except PyError α → Prop} {p : Py α} (hp : p.Calls Req.IsExt)
    (hy : p.Yields Req.Possible Y) (h : ∀ r, Y r → Q r c) : wp (solo a) p Q c := by
  induction p with
  | ret v => exact solo_ofExcept (r := .ok v) (h _ hy)
  | raise x => exact solo_ofExcept (r := .error x) (h _ hy)
  | call e k ih =>
    refine solo_call fun r c' hsem => ?_
    cases e with
    | sql q => exact hp.1.elim
    | ext e =>
      obtain ⟨hpossible, rfl⟩ := hsem
      exact ih r (hp.2 r) (hy r hpossible)

theorem solo_utcnow {Q : Except PyError Nat → Sqlite × WorkerLog → Prop}
    (h : ∀ now, Q (.ok now) c) : wp (solo a) Py.utcnow Q c := by
  refine solo_perform ?_
  rintro r c' ⟨⟨now, rfl⟩, rfl⟩
  exact h now

variable {db work : Db} {hist : List (Actor × Db)} {log : WorkerLog}

/-- The log after a statement that failed. -/
abbrev WorkerLog.fault (log : WorkerLog) : WorkerLog := { log with faulted := true }

theorem solo_query {q : Query} {Q : Except PyError q.Resp → Sqlite × WorkerLog → Prop}
    (hok : Q (.ok (q.eval db)) (⟨db, none, hist⟩, log))
    (hfault : ∀ x, Q (.error x) (⟨db, none, hist⟩, log.fault)) :
    wp (solo a) (Py.query q) Q (⟨db, none, hist⟩, log) := by
  refine solo_perform ?_
  rintro r ⟨s, log'⟩ ⟨⟨rfl, rfl⟩ | ⟨⟨m, rfl⟩, rfl⟩, hlog⟩
  · obtain rfl : log' = log := hlog
    exact hok
  · obtain rfl : log' = log.fault := hlog
    exact hfault _

/-- The statement that opens a transaction. -/
theorem solo_open {d : Dml} {Q : Except PyError d.Resp → Sqlite × WorkerLog → Prop}
    (hok : Q (.ok (d.apply db).1) (⟨db, some (a, (d.apply db).2), hist⟩, log))
    (hfault : ∀ x, Q (.error x) (⟨db, none, hist⟩, log.fault)) :
    wp (solo a) (Py.execute d) Q (⟨db, none, hist⟩, log) := by
  refine solo_perform ?_
  rintro r ⟨s, log'⟩ ⟨⟨_, rfl, rfl⟩ | ⟨⟨m, rfl⟩, rfl⟩, hlog⟩
  · obtain rfl : log' = log := hlog
    exact hok
  · obtain rfl : log' = log.fault := hlog
    exact hfault _

/-- A further statement of a transaction. -/
theorem solo_write {d : Dml} {Q : Except PyError d.Resp → Sqlite × WorkerLog → Prop}
    (hok : Q (.ok (d.apply work).1) (⟨db, some (a, (d.apply work).2), hist⟩, log))
    (hfault : ∀ x, Q (.error x) (⟨db, some (a, work), hist⟩, log.fault)) :
    wp (solo a) (Py.execute d) Q (⟨db, some (a, work), hist⟩, log) := by
  have hview : (Sqlite.mk db (some (a, work)) hist).view a = work := Sqlite.view_of_tx rfl
  refine solo_perform ?_
  rintro r ⟨s, log'⟩ ⟨⟨_, rfl, rfl⟩ | ⟨⟨m, rfl⟩, rfl⟩, hlog⟩
  · obtain rfl : log' = log := hlog
    rw [hview]
    exact hok
  · obtain rfl : log' = log.fault := hlog
    exact hfault _

theorem solo_commit {Q : Except PyError Unit → Sqlite × WorkerLog → Prop}
    (hok : Q (.ok ()) (⟨work, none, (a, db) :: hist⟩, { log with commits := log.commits + 1 }))
    (hfault : ∀ x, Q (.error x) (⟨db, some (a, work), hist⟩, log.fault)) :
    wp (solo a) Py.commit Q (⟨db, some (a, work), hist⟩, log) := by
  have hcommit : (Sqlite.mk db (some (a, work)) hist).commit a = ⟨work, none, (a, db) :: hist⟩ :=
    Sqlite.commit_of_tx rfl
  refine solo_perform ?_
  rintro r ⟨s, log'⟩ ⟨⟨rfl, rfl⟩ | ⟨⟨m, rfl⟩, rfl⟩, hlog⟩
  · obtain rfl : log' = { log with commits := log.commits + 1 } := hlog
    rw [hcommit]
    exact hok
  · obtain rfl : log' = log.fault := hlog
    exact hfault _

end Rules

/-! ## What the operations commit -/

/-- The row `insert_job` adds, but for its id. -/
def EnqueueArgs.job (args : EnqueueArgs) (now : Nat) : Job where
  id := 0
  jobType := .review
  installationId := args.installationId
  repo := args.repo
  prNumber := args.prNumber
  headSha := args.headSha
  triggerKind := args.triggerKind
  extraContext := args.extraContext
  status := .pending
  statusDetail := none
  attempts := 0
  createdAt := now
  updatedAt := now
  error := none

/-- The job and its lock are added. -/
def enqueuedDb (args : EnqueueArgs) (now₁ now₂ : Nat) (db : Db) : Db :=
  let inserted := (Dml.insertJob (args.job now₁)).apply db
  ((Dml.insertPrLock
    { repo := args.repo
      prNumber := args.prNumber
      lockedAt := now₂
      jobId := inserted.1.id }).apply inserted.2).2

/-- The outcome of the job is recorded and its lock is deleted. -/
def outcomeDb (job : Job) (result : ReviewResult) (now₁ now₂ : Nat) (db : Db) : Db :=
  let updated := ((Dml.updateJobStatus job.id result.status result.statusDetail result.error
    now₁).apply db).2
  let reviewed := match result.reviewId with
    | some reviewId => ((Dml.insertReviewPosted
        { id := 0
          repo := job.repo
          prNumber := job.prNumber
          headSha := job.headSha
          reviewId
          postedAt := now₂
          durationMs := result.durationMs
          chunkCount := result.chunkCount }).apply updated).2
    | none => updated
  ((Dml.deletePrLock job.repo job.prNumber).apply reviewed).2

/-- The time of the last failure comment is set. -/
def slotDb (repo : String) (prNumber now : Nat) (db : Db) : Db :=
  ((Dml.upsertFailureCooldown { repo, prNumber, lastPostedAt := now }).apply db).2

/-- The coroutine ended in an exception. -/
def raised (r : Except PyError α) : Bool := !r.isOk

/-- What an operation makes of a store, by the number of its commits and whether it ended in an
exception. -/
abbrev Outcome : Type := (commits : Nat) → (raised : Bool) → Db → Db → Prop

/-- Enqueueing commits once, or nothing: then the lock was held, unless it raised. -/
def Enqueues (args : EnqueueArgs) : Outcome := fun commits raised db db' =>
  (commits = 0 ∧ db' = db ∧ (raised = false → ∃ lock ∈ db.prLocks, lock.key = args.key)) ∨
  (commits = 1 ∧ (∀ lock ∈ db.prLocks, lock.key ≠ args.key) ∧
    ∃ now₁ now₂, db' = enqueuedDb args now₁ now₂ db)

/-- Claiming the slot commits once, or nothing: then there was a cooldown, unless it raised. -/
def TakesSlot (repo : String) (prNumber : Nat) : Outcome := fun commits raised db db' =>
  (commits = 0 ∧ db' = db ∧ (raised = false →
    ∃ cooldown ∈ db.failureCooldowns, cooldown.key = (repo, prNumber))) ∨
  (commits = 1 ∧ ∃ now, db' = slotDb repo prNumber now db)

/-- A failure comment is due. -/
def ReviewResult.Comments (result : ReviewResult) : Prop :=
  result.status = .failed ∧ result.failureMessage.isSome

instance (result : ReviewResult) : Decidable result.Comments := inferInstanceAs (Decidable (_ ∧ _))

/-- Persisting commits the outcome, and then claims the slot where a failure comment is due. -/
def Persists (job : Job) (result : ReviewResult) : Outcome := fun commits raised db db' =>
  (commits = 0 ∧ raised = true ∧ db' = db) ∨
  ∃ now₁ now₂, if result.Comments then
      ∃ rest, commits = rest + 1 ∧
        TakesSlot job.repo job.prNumber rest raised (outcomeDb job result now₁ now₂ db) db'
    else commits = 1 ∧ db' = outcomeDb job result now₁ now₂ db

/-- From `c` to `c'` an operation with the outcome `E` was run to its end, which is `r`. -/
def Leaves (E : Outcome) (c : Sqlite × WorkerLog) (r : Except PyError α)
    (c' : Sqlite × WorkerLog) : Prop :=
  c'.1.tx = none ∧ ∃ commits, c'.2.commits = c.2.commits + commits ∧
    E commits (raised r) c.1.committed c'.1.committed

section Specs

variable {db work : Db} {hist : List (Actor × Db)} {log : WorkerLog}

theorem rollback_own : (Sqlite.mk db (some (a, work)) hist).rollback a = ⟨db, none, hist⟩ := by
  simp [Sqlite.rollback]

/-- A session that ends in an exception before it has committed. -/
theorem leaves_failed {E : Outcome} {tx : Option (Actor × Db)} {log' : WorkerLog} {x : PyError}
    (hlog : log'.commits = log.commits) (htx : tx = none ∨ ∃ work, tx = some (a, work))
    (hE : E 0 true db db) : Leaves E (⟨db, none, hist⟩, log) (.error x : Except PyError α)
      ((Sqlite.mk db tx hist).rollback a, log') := by
  have hroll : (Sqlite.mk db tx hist).rollback a = ⟨db, none, hist⟩ := by
    rcases htx with rfl | ⟨work, rfl⟩
    · rfl
    · exact rollback_own
  rw [hroll]
  exact ⟨rfl, 0, hlog, hE⟩

theorem insertJob_solo {args : EnqueueArgs} {Q : Except PyError Job → Sqlite × WorkerLog → Prop}
    (hok : ∀ now, Q (.ok ((Dml.insertJob (args.job now)).apply db).1)
      (⟨db, some (a, ((Dml.insertJob (args.job now)).apply db).2), hist⟩, log))
    (hfault : ∀ x, Q (.error x) (⟨db, none, hist⟩, log.fault)) :
    wp (solo a) (insertJob .review args.installationId args.repo args.prNumber args.headSha
      args.triggerKind args.extraContext) Q (⟨db, none, hist⟩, log) :=
  solo_bind (solo_utcnow fun now => solo_open (hok now) hfault)

theorem acquireLock_solo {repo : String} {prNumber jobId : Nat}
    {Q : Except PyError Bool → Sqlite × WorkerLog → Prop}
    (hok : ∀ now, Q (.ok (work.prLocks.insertOrIgnore ⟨repo, prNumber, now, jobId⟩).2)
      (⟨db, some (a, ((Dml.insertPrLock ⟨repo, prNumber, now, jobId⟩).apply work).2), hist⟩, log))
    (hfault : ∀ x, Q (.error x) (⟨db, some (a, work), hist⟩, log.fault)) :
    wp (solo a) (acquireLock repo prNumber jobId) Q (⟨db, some (a, work), hist⟩, log) :=
  solo_bind (solo_utcnow fun now => solo_write (hok now) hfault)

theorem enqueue_solo (args : EnqueueArgs) :
    wp (solo a) (Py.withSession (tryEnqueueReview args))
      (Leaves (Enqueues args) (⟨db, none, hist⟩, log)) (⟨db, none, hist⟩, log) := by
  have hfault : Enqueues args 0 true db db := Or.inl ⟨rfl, rfl, nofun⟩
  refine solo_session (solo_bind (solo_query ?_ fun x => leaves_failed rfl (Or.inl rfl) hfault))
  dsimp only
  cases hlock : (Query.prLock args.repo args.prNumber).eval db with
  | some lock =>
    obtain ⟨hmem, hkey⟩ := Table.get?_eq_some.mp hlock
    refine solo_ofExcept (r := .ok none) ⟨rfl, 0, rfl, ?_⟩
    exact Or.inl ⟨rfl, rfl, fun _ => ⟨lock, hmem, hkey⟩⟩
  | none =>
    have hfree := Table.get?_eq_none.mp hlock
    refine solo_bind
      (insertJob_solo (fun now₁ => ?_) fun x => leaves_failed rfl (Or.inl rfl) hfault)
    refine solo_bind (acquireLock_solo (fun now₂ => ?_) fun x =>
      leaves_failed rfl (Or.inr ⟨_, rfl⟩) hfault)
    -- the lock is free, so the insert of the lock succeeds
    have hlocks : ((Dml.insertJob (args.job now₁)).apply db).2.prLocks = db.prLocks := rfl
    rcases db.prLocks.insertOrIgnore_cases ⟨args.repo, args.prNumber, now₂,
      ((Dml.insertJob (args.job now₁)).apply db).1.id⟩ with ⟨⟨lock, hmem, hkey⟩, _⟩ | ⟨_, t, heq, _⟩
    · exact absurd hkey (hfree lock hmem)
    · rw [hlocks, heq]
      refine solo_bind (solo_commit ?_ fun x => leaves_failed rfl (Or.inr ⟨_, rfl⟩) hfault)
      refine solo_ofExcept (r := .ok (some _)) ⟨rfl, 1, rfl, ?_⟩
      exact Or.inr ⟨rfl, hfree, now₁, now₂, rfl⟩

/-- `claim_failure_slot` alone, with nobody else on the store: it leaves the slot as it was or takes
it, and which it does depends on the row of this pull request only. -/
theorem claimFailureSlot_solo (repo : String) (prNumber cooldownSeconds : Nat) :
    wp (solo a) (Py.withSession (claimFailureSlot repo prNumber cooldownSeconds))
      (Leaves (TakesSlot repo prNumber) (⟨db, none, hist⟩, log))
      (⟨db, none, hist⟩, log) := by
  have hfault : TakesSlot repo prNumber 0 true db db := Or.inl ⟨rfl, rfl, nofun⟩
  refine solo_session (solo_bind (solo_utcnow fun now => ?_))
  dsimp only
  split
  swap
  · -- the cutoff is no date
    exact solo_ofExcept (r := .error _) (leaves_failed rfl (Or.inl rfl) hfault)
  refine solo_bind (solo_query ?_ fun x => leaves_failed rfl (Or.inl rfl) hfault)
  show wp (solo a) (if ((db.failureCooldowns.get? (repo, prNumber)).any fun row =>
    row.InForce now cooldownSeconds) = true then _ else _) _ _
  split
  · -- the slot is taken
    rename_i htaken
    obtain ⟨cooldown, hget, _⟩ := (Option.any_eq_true _ _).mp htaken
    obtain ⟨hmem, hkey⟩ := Table.get?_eq_some.mp hget
    refine solo_ofExcept (r := .ok false) ⟨rfl, 0, rfl, ?_⟩
    exact Or.inl ⟨rfl, rfl, fun _ => ⟨cooldown, hmem, hkey⟩⟩
  · -- it is free: written and committed
    refine solo_bind (solo_open ?_ fun x => leaves_failed rfl (Or.inl rfl) hfault)
    refine solo_bind (solo_commit ?_ fun x => leaves_failed rfl (Or.inr ⟨_, rfl⟩) hfault)
    refine solo_ofExcept (r := .ok true) ⟨rfl, 1, rfl, ?_⟩
    exact Or.inr ⟨rfl, now, rfl⟩

variable [UnicodeDb]

theorem maybePostFailureComment_solo (installationId : Nat) (repo : String) (prNumber : Nat)
    (message : String) (cooldownSeconds : Nat) :
    wp (solo a) (maybePostFailureComment installationId repo prNumber message cooldownSeconds)
      (Leaves (TakesSlot repo prNumber) (⟨db, none, hist⟩, log))
      (⟨db, none, hist⟩, log) := by
  have hpost : (GitHubClient.createComment installationId repo prNumber message).Calls Req.IsExt :=
    (GitHubClient.createComment_calls (O := fun _ => True) installationId
      fun _ _ => trivial).mono fun _ he => he.isExt
  refine solo_bind (wp_mono (claimFailureSlot_solo repo prNumber cooldownSeconds)
    fun r c' _ hc' => ?_)
  rcases r with x | allowed
  · exact hc'
  · show wp (solo a) (if allowed = true then _ else _) _ _
    split
    · -- whatever comes of the post, the call returns
      refine solo_ext (Y := fun r => raised r = false) (hpost.andThen fun r => ?_)
        (Prog.Yields.andThen ((GitHubClient.createComment_yields ..).mono fun r hr => ?_))
        fun r hr => ?_
      · cases r with
        | ok commentId => trivial
        | error x => cases x <;> trivial
      · rcases r with x | commentId
        · cases x with
          | cancelled => exact absurd rfl hr
          | _ => rfl
        · rfl
      · obtain ⟨htx, commits, hcommits, hslot⟩ := hc'
        exact ⟨htx, commits, hcommits, hr ▸ hslot⟩
    · exact solo_ofExcept (r := .ok false) hc'

omit [UnicodeDb] in
/-- The transaction of `_persist` alone: it is committed, or a statement failed. -/
theorem persistOutcome_solo (job : Job) (result : ReviewResult) :
    wp (solo a) (Worker.persistOutcome job result) (fun r c' =>
      (r = .ok () ∧ ∃ now₁ now₂, c' = (⟨outcomeDb job result now₁ now₂ db, none, (a, db) :: hist⟩,
        { log with commits := log.commits + 1 })) ∨
      (∃ x, r = .error x) ∧ c' = (⟨db, none, hist⟩, log.fault)) (⟨db, none, hist⟩, log) := by
  have hfault : ∀ {work : Db} {x : PyError},
      (∃ y : PyError, (.error x : Except PyError Unit) = .error y) ∧
        ((Sqlite.mk db (some (a, work)) hist).rollback a, log.fault) =
          (⟨db, none, hist⟩, log.fault) :=
    fun {_ x} => ⟨⟨x, rfl⟩, by rw [rollback_own]⟩
  refine solo_session (solo_bind (solo_bind (solo_utcnow fun now₁ => solo_open ?_ fun x => ?_)))
  · -- the copy once the review is recorded, if there is one
    have hrest : ∀ work now₂, outcomeDb job result now₁ now₂ db =
        ((Dml.deletePrLock job.repo job.prNumber).apply work).2 →
        wp (solo a) ((releaseLock job.repo job.prNumber).bind fun _ => Py.commit) (fun r c' =>
          (r = .ok () ∧ ∃ now₁ now₂, (c'.1.rollback a, c'.2) =
            (⟨outcomeDb job result now₁ now₂ db, none, (a, db) :: hist⟩,
              { log with commits := log.commits + 1 })) ∨
          (∃ x, r = .error x) ∧ (c'.1.rollback a, c'.2) = (⟨db, none, hist⟩, log.fault))
          (⟨db, some (a, work), hist⟩, log) := by
      intro work now₂ hwork
      refine solo_bind (solo_write ?_ fun x => Or.inr hfault)
      refine solo_commit (Or.inl ⟨rfl, now₁, now₂, ?_⟩) fun x => Or.inr hfault
      rw [hwork]
      rfl
    refine solo_bind ?_
    unfold Worker.recordReview
    cases hid : result.reviewId with
    | none => exact solo_ofExcept (r := .ok ()) (hrest _ 0 (by simp only [outcomeDb, hid]))
    | some reviewId =>
      refine solo_bind (solo_bind (solo_utcnow fun now₂ => solo_write ?_ fun x => Or.inr hfault))
      exact solo_ofExcept (r := .ok ()) (hrest _ now₂ (by simp only [outcomeDb, hid]))
  · exact Or.inr ⟨⟨x, rfl⟩, rfl⟩

theorem persist_solo (config : OperatorConfig) (job : Job) (result : ReviewResult) :
    wp (solo a) (Worker.persist config job result)
      (Leaves (Persists job result) (⟨db, none, hist⟩, log)) (⟨db, none, hist⟩, log) := by
  refine solo_bind (wp_mono (persistOutcome_solo job result) fun r c' _ hc' => ?_)
  rcases hc' with ⟨rfl, now₁, now₂, rfl⟩ | ⟨⟨x, rfl⟩, rfl⟩
  · -- the outcome is committed
    have hdone : ¬ result.Comments → Leaves (Persists job result) (⟨db, none, hist⟩, log)
        (.ok () : Except PyError Unit) (⟨outcomeDb job result now₁ now₂ db, none, (a, db) :: hist⟩,
          { log with commits := log.commits + 1 }) := fun hno =>
      ⟨rfl, 1, rfl, Or.inr ⟨now₁, now₂, by rw [if_neg hno]; exact ⟨rfl, rfl⟩⟩⟩
    dsimp only
    split
    · -- a failure with a message takes the slot besides
      rename_i message hst hmessage
      have hyes : result.Comments := ⟨hst, by simp [hmessage]⟩
      refine solo_bind (wp_mono (maybePostFailureComment_solo _ _ _ _ _) fun r c' _ hc' => ?_)
      have hleaves : ∀ r' : Except PyError Unit, raised r' = raised r →
          Leaves (Persists job result) (⟨db, none, hist⟩, log) r' c' := by
        intro r' hraised
        obtain ⟨htx, rest, hcommits, htakes⟩ := hc'
        refine ⟨htx, rest + 1, ?_, Or.inr ⟨now₁, now₂, ?_⟩⟩
        · rw [hcommits]
          show log.commits + 1 + rest = log.commits + (rest + 1)
          omega
        · rw [if_pos hyes, hraised]
          exact ⟨rest, rfl, htakes⟩
      cases r with
      | ok _ => exact solo_ofExcept (r := .ok ()) (hleaves _ rfl)
      | error x => exact hleaves _ rfl
    · -- no comment is to be posted
      rename_i hno
      refine solo_ofExcept (r := .ok ()) (hdone ?_)
      rintro ⟨hst, hsome⟩
      obtain ⟨message, hmessage⟩ := Option.isSome_iff_exists.mp hsome
      exact hno message hst hmessage
  · -- a statement failed, and nothing was committed
    exact ⟨rfl, 0, rfl, Or.inl ⟨rfl, rfl, rfl⟩⟩

end Specs

/-! ## Frames and views of what is committed -/

/-- A job without its id and its times. -/
def Job.unstamped (rename : Nat → Nat) (job : Job) : Job :=
  { job with id := rename job.id, createdAt := 0, updatedAt := 0 }

def PrLock.unstamped (rename : Nat → Nat) (lock : PrLock) : PrLock :=
  { lock with jobId := rename lock.jobId, lockedAt := 0 }

def ReviewPosted.unstamped (rename : Nat → Nat) (posted : ReviewPosted) : ReviewPosted :=
  { posted with id := rename posted.id, postedAt := 0 }

def FailureCooldown.unstamped (cooldown : FailureCooldown) : FailureCooldown :=
  { cooldown with lastPostedAt := 0 }

/-- The rows of `key` are the same, but for the times, when the ids of the jobs are renamed by `π`
and those of the posted reviews by `ρ`. -/
structure Db.AlikeBy (key : PrKey) (π ρ : Equiv.Perm Nat) (db db' : Db) : Prop where
  jobs : db.jobs.viewAt (·.key = key) (·.unstamped π) =
    db'.jobs.viewAt (·.key = key) (·.unstamped id)
  locks : db.prLocks.viewAt (·.key = key) (·.unstamped π) =
    db'.prLocks.viewAt (·.key = key) (·.unstamped id)
  reviews : db.reviewsPosted.viewAt (·.key = key) (·.unstamped ρ) =
    db'.reviewsPosted.viewAt (·.key = key) (·.unstamped id)
  cooldowns : db.failureCooldowns.viewAt (·.key = key) FailureCooldown.unstamped =
    db'.failureCooldowns.viewAt (·.key = key) FailureCooldown.unstamped

/-- The rows of `key` are the same up to ids and times. -/
def Db.AlikeAt (key : PrKey) (db db' : Db) : Prop := ∃ π ρ, db.AlikeBy key π ρ db'

section Alike

variable {key : PrKey} {db db' db₂ db₂' : Db}

theorem Db.SameAt.alikeBy (h : db.SameAt key db') : db.AlikeBy key (.refl Nat) (.refl Nat) db' :=
  ⟨(Table.viewAt_congr h.jobs).symm, (Table.viewAt_congr h.locks).symm,
    (Table.viewAt_congr h.reviews).symm, (Table.viewAt_congr h.cooldowns).symm⟩

theorem Db.AlikeBy.of_sameAt {π ρ : Equiv.Perm Nat} (h : db.AlikeBy key π ρ db₂)
    (hleft : db.SameAt key db') (hright : db₂.SameAt key db₂') : db'.AlikeBy key π ρ db₂' := by
  constructor
  · rw [Table.viewAt_congr hleft.jobs, Table.viewAt_congr hright.jobs, h.jobs]
  · rw [Table.viewAt_congr hleft.locks, Table.viewAt_congr hright.locks, h.locks]
  · rw [Table.viewAt_congr hleft.reviews, Table.viewAt_congr hright.reviews, h.reviews]
  · rw [Table.viewAt_congr hleft.cooldowns, Table.viewAt_congr hright.cooldowns, h.cooldowns]

/-- Exchanging two ids that no row of the table has changes nothing there. -/
theorem swap_fresh {ρ : Type} {idOf : ρ → Nat} {t t₂ : Table Nat ρ idOf} {row : ρ}
    (h : row ∈ t) (h₂ : row ∈ t₂) :
    Equiv.swap t.freshId t₂.freshId (idOf row) = idOf row := by
  refine Equiv.swap_apply_of_ne_of_ne ?_ ?_
  · exact Nat.ne_of_lt (Table.lt_freshId h)
  · exact Nat.ne_of_lt (Table.lt_freshId h₂)

theorem mem_enqueuedDb_jobs {args : EnqueueArgs} {now₁ now₂ : Nat} {job : Job} :
    job ∈ (enqueuedDb args now₁ now₂ db).jobs ↔
      job ∈ db.jobs ∨ job = { args.job now₁ with id := db.jobs.freshId } := by
  show job ∈ (db.jobs.insertAuto (fun id => { args.job now₁ with id }) fun _ => rfl).1 ↔ _
  exact Table.mem_insertAuto

theorem mem_enqueuedDb_locks {args : EnqueueArgs} {now₁ now₂ : Nat}
    (hfree : ∀ lock ∈ db.prLocks, lock.key ≠ args.key) {lock : PrLock} :
    lock ∈ (enqueuedDb args now₁ now₂ db).prLocks ↔
      lock ∈ db.prLocks ∨ lock = ⟨args.repo, args.prNumber, now₂, db.jobs.freshId⟩ := by
  show lock ∈ (db.prLocks.insertOrIgnore _).1 ↔ _
  rcases db.prLocks.insertOrIgnore_cases ⟨args.repo, args.prNumber, now₂, db.jobs.freshId⟩ with
    ⟨⟨held, hmem, hkey⟩, _⟩ | ⟨_, t, heq, hmem⟩
  · exact absurd hkey (hfree held hmem)
  · show lock ∈ (db.prLocks.insertOrIgnore ⟨args.repo, args.prNumber, now₂, db.jobs.freshId⟩).1 ↔ _
    rw [heq]
    exact hmem lock

/-- Enqueueing in two stores with the same rows of the pull request. The ids of the new rows may
differ, since rows of other pull requests count as well; apart from these the rows are the same. -/
theorem enqueuedDb_alike {args : EnqueueArgs} {now₁ now₂ now₁' now₂' : Nat}
    (h : db.SameAt args.key db₂) (hfree : ∀ lock ∈ db.prLocks, lock.key ≠ args.key) :
    (enqueuedDb args now₁ now₂ db).AlikeAt args.key (enqueuedDb args now₁' now₂' db₂) := by
  have hfree₂ : ∀ lock ∈ db₂.prLocks, lock.key ≠ args.key :=
    fun lock hlock hkey => hfree lock ((h.locks lock hkey).mp hlock) hkey
  have hfresh : Equiv.swap db.jobs.freshId db₂.jobs.freshId db.jobs.freshId = db₂.jobs.freshId :=
    Equiv.swap_apply_left _ _
  refine ⟨Equiv.swap db.jobs.freshId db₂.jobs.freshId, .refl Nat, ?_, ?_, h.alikeBy.reviews,
    h.alikeBy.cooldowns⟩
  · -- the jobs
    rw [Table.viewAt_insert (P := (·.key = args.key)) (fun _ => mem_enqueuedDb_jobs) rfl,
      Table.viewAt_insert (P := (·.key = args.key)) (fun _ => mem_enqueuedDb_jobs) rfl,
      Table.viewAt_congr h.jobs]
    congr 1
    · simp only [Job.unstamped, hfresh, EnqueueArgs.job, id]
    · refine Table.viewAt_congr_fun fun job hjob hkey => ?_
      simp only [Job.unstamped, swap_fresh hjob ((h.jobs job hkey).mpr hjob), id]
  · -- the locks: there was none of the pull request
    have hnone : ∀ {rename : Nat → Nat},
        db.prLocks.viewAt (·.key = args.key) (·.unstamped rename) = ∅ := by
      intro rename
      refine Set.eq_empty_of_forall_notMem ?_
      rintro x ⟨lock, hlock, hkey, _⟩
      exact hfree lock hlock hkey
    rw [Table.viewAt_insert (P := (·.key = args.key)) (fun _ => mem_enqueuedDb_locks hfree) rfl,
      Table.viewAt_insert (P := (·.key = args.key)) (fun _ => mem_enqueuedDb_locks hfree₂) rfl,
      Table.viewAt_congr h.locks, hnone, hnone]
    simp only [PrLock.unstamped, hfresh, id]

theorem mem_outcomeDb_jobs {job row : Job} {result : ReviewResult} {now₁ now₂ : Nat} :
    row ∈ (outcomeDb job result now₁ now₂ db).jobs ↔
      (∃ old ∈ db.jobs, old.id = job.id ∧
        old.withStatus result.status result.statusDetail result.error now₁ = row) ∨
      (row ∈ db.jobs ∧ row.id ≠ job.id) := by
  have hjobs : (outcomeDb job result now₁ now₂ db).jobs = ((Dml.updateJobStatus job.id
      result.status result.statusDetail result.error now₁).apply db).2.jobs := by
    unfold outcomeDb
    cases result.reviewId <;> rfl
  rw [hjobs]
  exact mem_updateJobStatus

theorem outcomeDb_locks {job : Job} {result : ReviewResult} {now₁ now₂ : Nat} :
    (outcomeDb job result now₁ now₂ db).prLocks =
      db.prLocks.deleteWhere fun lock => lock.key = (job.repo, job.prNumber) := by
  unfold outcomeDb
  cases result.reviewId <;> rfl

theorem outcomeDb_cooldowns {job : Job} {result : ReviewResult} {now₁ now₂ : Nat} :
    (outcomeDb job result now₁ now₂ db).failureCooldowns = db.failureCooldowns := by
  unfold outcomeDb
  cases result.reviewId <;> rfl

/-- The row of a posted review. -/
def reviewRow (job : Job) (result : ReviewResult) (reviewId postedAt id : Nat) : ReviewPosted where
  id := id
  repo := job.repo
  prNumber := job.prNumber
  headSha := job.headSha
  reviewId := reviewId
  postedAt := postedAt
  durationMs := result.durationMs
  chunkCount := result.chunkCount

theorem reviewRow_id (job : Job) (result : ReviewResult) (reviewId postedAt id : Nat) :
    (reviewRow job result reviewId postedAt id).id = id := rfl

theorem outcomeDb_reviews_none {job : Job} {result : ReviewResult} {now₁ now₂ : Nat}
    (hid : result.reviewId = none) :
    (outcomeDb job result now₁ now₂ db).reviewsPosted = db.reviewsPosted := by
  simp only [outcomeDb, hid]
  rfl

theorem mem_outcomeDb_reviews {job : Job} {result : ReviewResult} {now₁ now₂ reviewId : Nat}
    (hid : result.reviewId = some reviewId) {posted : ReviewPosted} :
    posted ∈ (outcomeDb job result now₁ now₂ db).reviewsPosted ↔ posted ∈ db.reviewsPosted ∨
      posted = reviewRow job result reviewId now₂ db.reviewsPosted.freshId := by
  simp only [outcomeDb, hid]
  show posted ∈ (db.reviewsPosted.insertAuto (reviewRow job result reviewId now₂)
    (reviewRow_id job result reviewId now₂)).1 ↔ _
  exact Table.mem_insertAuto

/-- Recording an outcome in two stores with the same rows of the pull request. -/
theorem outcomeDb_alike {job : Job} (result : ReviewResult) {now₁ now₂ now₁' now₂' : Nat}
    (h : db.SameAt job.key db₂) :
    (outcomeDb job result now₁ now₂ db).AlikeAt job.key
      (outcomeDb job result now₁' now₂' db₂) := by
  -- the jobs have the same status, with a stamp of their own
  have hjobs : ∀ {db db₂ : Db} {now₁ now₂ now₁' now₂' : Nat}, db.SameAt job.key db₂ →
      ∀ x, x ∈ (outcomeDb job result now₁ now₂ db).jobs.viewAt (·.key = job.key) (·.unstamped id) →
        x ∈ (outcomeDb job result now₁' now₂' db₂).jobs.viewAt (·.key = job.key)
          (·.unstamped id) := by
    rintro db db₂ now₁ now₂ now₁' now₂' h x ⟨row, hrow, hkey, rfl⟩
    rcases mem_outcomeDb_jobs.mp hrow with ⟨old, hold, hid, rfl⟩ | ⟨hold, hid⟩
    · refine ⟨old.withStatus result.status result.statusDetail result.error now₁', ?_, hkey, rfl⟩
      exact mem_outcomeDb_jobs.mpr (Or.inl ⟨old, (h.jobs old hkey).mpr hold, hid, rfl⟩)
    · exact ⟨row, mem_outcomeDb_jobs.mpr (Or.inr ⟨(h.jobs row hkey).mpr hold, hid⟩), hkey, rfl⟩
  refine ⟨.refl Nat, Equiv.swap db.reviewsPosted.freshId db₂.reviewsPosted.freshId,
    Set.ext fun x => ⟨hjobs h x, hjobs h.symm x⟩, ?_, ?_, ?_⟩
  · refine (Table.viewAt_congr fun lock hkey => ?_).symm
    rw [outcomeDb_locks, outcomeDb_locks, Table.mem_deleteWhere, Table.mem_deleteWhere,
      h.locks lock hkey]
  · -- the reviews, with the new one if there is one
    have hold : db.reviewsPosted.viewAt (·.key = job.key)
        (·.unstamped (Equiv.swap db.reviewsPosted.freshId db₂.reviewsPosted.freshId)) =
        db₂.reviewsPosted.viewAt (·.key = job.key) (·.unstamped id) := by
      rw [Table.viewAt_congr h.reviews]
      refine Table.viewAt_congr_fun fun posted hposted hkey => ?_
      simp only [ReviewPosted.unstamped,
        swap_fresh hposted ((h.reviews posted hkey).mpr hposted), id]
    cases hid : result.reviewId with
    | none => rw [outcomeDb_reviews_none hid, outcomeDb_reviews_none hid, hold]
    | some reviewId =>
      rw [Table.viewAt_insert (P := (·.key = job.key)) (fun _ => mem_outcomeDb_reviews hid) rfl,
        Table.viewAt_insert (P := (·.key = job.key)) (fun _ => mem_outcomeDb_reviews hid) rfl, hold]
      congr 1
      simp only [ReviewPosted.unstamped, reviewRow, Equiv.swap_apply_left, id]
  · rw [outcomeDb_cooldowns, outcomeDb_cooldowns]
    exact h.alikeBy.cooldowns

/-- A pull request that has a cooldown shows it, whenever it was set. -/
theorem cooldowns_view (h : ∃ cooldown ∈ db.failureCooldowns, cooldown.key = key) :
    db.failureCooldowns.viewAt (·.key = key) FailureCooldown.unstamped = {⟨key.1, key.2, 0⟩} := by
  obtain ⟨cooldown, hmem, rfl⟩ := h
  ext x
  constructor
  · rintro ⟨row, _, hkey, rfl⟩
    obtain ⟨hrepo, hnumber⟩ := Prod.mk.inj hkey
    show row.unstamped = _
    simp only [FailureCooldown.unstamped, hrepo, hnumber, FailureCooldown.key]
  · rintro rfl
    exact ⟨cooldown, hmem, rfl, rfl⟩

theorem slotDb_cooldown (repo : String) (prNumber now : Nat) (db : Db) :
    ∃ cooldown ∈ (slotDb repo prNumber now db).failureCooldowns,
      cooldown.key = (repo, prNumber) := by
  rcases db.failureCooldowns.upsert_cases ⟨repo, prNumber, now⟩ (FailureCooldown.bump now)
    (FailureCooldown.bump_key now) with ⟨old, _, hkey, hmem⟩ | ⟨_, hmem⟩
  · exact ⟨old.bump now, (hmem _).mpr (Or.inl rfl), hkey⟩
  · exact ⟨⟨repo, prNumber, now⟩, (hmem _).mpr (Or.inr rfl), rfl⟩

/-- The two runs got equally far, or neither ended in an exception. -/
def Agree (commits : Nat) (raised : Bool) (commits' : Nat) (raised' : Bool) : Prop :=
  commits = commits' ∨ (raised = false ∧ raised' = false)

/-- Claiming the slot in two stores whose rows of the pull request are alike. -/
theorem takesSlot_alike {repo : String} {prNumber k k' : Nat} {b b' : Bool} {π ρ : Equiv.Perm Nat}
    (h : db.AlikeBy (repo, prNumber) π ρ db₂) (hslot : TakesSlot repo prNumber k b db db')
    (hslot₂ : TakesSlot repo prNumber k' b' db₂ db₂') (hagree : Agree k b k' b') :
    db'.AlikeBy (repo, prNumber) π ρ db₂' := by
  rcases hslot with ⟨rfl, rfl, hheld⟩ | ⟨rfl, now, rfl⟩ <;>
    rcases hslot₂ with ⟨rfl, rfl, hheld₂⟩ | ⟨rfl, now', rfl⟩
  · exact h
  · have hnone := hagree.resolve_left (by omega)
    refine ⟨h.jobs, h.locks, h.reviews, ?_⟩
    rw [cooldowns_view (hheld hnone.1), cooldowns_view (slotDb_cooldown ..)]
  · have hnone := hagree.resolve_left (by omega)
    refine ⟨h.jobs, h.locks, h.reviews, ?_⟩
    rw [cooldowns_view (slotDb_cooldown ..), cooldowns_view (hheld₂ hnone.2)]
  · refine ⟨h.jobs, h.locks, h.reviews, ?_⟩
    rw [cooldowns_view (slotDb_cooldown ..), cooldowns_view (slotDb_cooldown ..)]

theorem enqueues_alike {args : EnqueueArgs} {k k' : Nat} {b b' : Bool}
    (h : db.SameAt args.key db₂) (henq : Enqueues args k b db db')
    (henq₂ : Enqueues args k' b' db₂ db₂') (hagree : Agree k b k' b') :
    db'.AlikeAt args.key db₂' := by
  rcases henq with ⟨rfl, rfl, hheld⟩ | ⟨rfl, hfree, now₁, now₂, rfl⟩ <;>
    rcases henq₂ with ⟨rfl, rfl, hheld₂⟩ | ⟨rfl, hfree₂, now₁', now₂', rfl⟩
  · exact ⟨_, _, h.alikeBy⟩
  · obtain ⟨lock, hlock, hkey⟩ := hheld (hagree.resolve_left (by omega)).1
    exact absurd hkey (hfree₂ lock ((h.locks lock hkey).mpr hlock))
  · obtain ⟨lock, hlock, hkey⟩ := hheld₂ (hagree.resolve_left (by omega)).2
    exact absurd hkey (hfree lock ((h.locks lock hkey).mp hlock))
  · exact enqueuedDb_alike h hfree

theorem persists_alike {job : Job} {result : ReviewResult} {k k' : Nat} {b b' : Bool}
    (h : db.SameAt job.key db₂) (hpersist : Persists job result k b db db')
    (hpersist₂ : Persists job result k' b' db₂ db₂') (hagree : Agree k b k' b') :
    db'.AlikeAt job.key db₂' := by
  rcases hpersist with ⟨rfl, rfl, rfl⟩ | ⟨now₁, now₂, hdone⟩ <;>
    rcases hpersist₂ with ⟨rfl, rfl, rfl⟩ | ⟨now₁', now₂', hdone₂⟩
  · -- neither has committed anything
    exact ⟨_, _, h.alikeBy⟩
  · -- one has committed and the other has not, which their answers exclude
    have hzero : k' = 0 := hagree.elim Eq.symm nofun
    split at hdone₂
    · obtain ⟨rest, hk, _⟩ := hdone₂
      omega
    · omega
  · have hzero : k = 0 := hagree.elim id (fun hb => by cases hb.2)
    split at hdone
    · obtain ⟨rest, hk, _⟩ := hdone
      omega
    · omega
  · -- both have stored the outcome, and then the slot or nothing
    obtain ⟨π, ρ, houtcome⟩ := outcomeDb_alike result h
    refine ⟨π, ρ, ?_⟩
    split at hdone <;> rename_i hcomments
    · rw [if_pos hcomments] at hdone₂
      obtain ⟨rest, hk, hslot⟩ := hdone
      obtain ⟨rest', hk', hslot'⟩ := hdone₂
      refine takesSlot_alike houtcome hslot hslot' (hagree.imp_left ?_)
      omega
    · rw [if_neg hcomments] at hdone₂
      rw [hdone.2, hdone₂.2]
      exact houtcome

end Alike

/-! ## The operations -/

theorem enqueuedDb_frames (args : EnqueueArgs) (now₁ now₂ : Nat) (db : Db) :
    db.Frames args.key (enqueuedDb args now₁ now₂ db) :=
  (Dml.Enqueues.frames (.job (args.job now₁) rfl) db).trans
    (Dml.Enqueues.frames (.lock ⟨args.repo, args.prNumber, now₂, _⟩ rfl) _)

theorem outcomeDb_touches (job : Job) (result : ReviewResult) (now₁ now₂ : Nat) (db : Db) :
    db.Touches job (outcomeDb job result now₁ now₂ db) := by
  have hupdated : db.Touches job ((Dml.updateJobStatus job.id result.status result.statusDetail
      result.error now₁).apply db).2 := Dml.For.touches (.status ..) db
  unfold outcomeDb
  cases result.reviewId with
  | none => exact hupdated.trans (Dml.For.touches .unlock _)
  | some reviewId =>
    exact (hupdated.trans (Dml.For.touches (.posted _ rfl rfl) _)).trans
      (Dml.For.touches .unlock _)

theorem slotDb_frames (repo : String) (prNumber now : Nat) (db : Db) :
    db.Frames (repo, prNumber) (slotDb repo prNumber now db) :=
  fun _ hne => ⟨fun _ _ => Iff.rfl, fun _ _ => Iff.rfl, fun _ _ => Iff.rfl, fun _ hkey =>
    Table.mem_upsert_of_ne fun heq => hne (hkey.symm.trans heq)⟩

theorem takesSlot_frames {repo : String} {prNumber k : Nat} {b : Bool} {db db' : Db}
    (h : TakesSlot repo prNumber k b db db') : db.Frames (repo, prNumber) db' := by
  rcases h with ⟨_, rfl, _⟩ | ⟨_, now, rfl⟩
  · exact .refl _ _
  · exact slotDb_frames repo prNumber now db

theorem persists_frames {job : Job} {result : ReviewResult} {k : Nat} {b : Bool} {db db' : Db}
    (hrow : ∃ row ∈ db.jobs, row.id = job.id ∧ row.key = job.key)
    (h : Persists job result k b db db') : db.Frames job.key db' := by
  rcases h with ⟨_, _, rfl⟩ | ⟨now₁, now₂, hdone⟩
  · exact .refl _ _
  · have houtcome := (outcomeDb_touches job result now₁ now₂ db).frames hrow
    split at hdone
    · obtain ⟨rest, _, hslot⟩ := hdone
      exact houtcome.trans (takesSlot_frames hslot)
    · rw [hdone.2]
      exact houtcome

/-- What is done to the store on behalf of one pull request. -/
inductive Operation where
  | enqueue (args : EnqueueArgs)
  | persist (job : Job) (result : ReviewResult)
  | finalizeFailure (job : Job) (statusDetail : JobStatusDetail) (error failureMessage : String)
  | claimFailureSlot (repo : String) (prNumber cooldownSeconds : Nat)

namespace Operation

/-- The pull request. -/
def key : Operation → PrKey
  | enqueue args => args.key
  | persist job _ => job.key
  | finalizeFailure job _ _ _ => job.key
  | claimFailureSlot repo prNumber _ => (repo, prNumber)

def Result : Operation → Type
  | enqueue _ => Option Job
  | persist _ _ => Unit
  | finalizeFailure .. => Unit
  | claimFailureSlot .. => Bool

/-- The coroutine, in a session of its own where it is given one. -/
def prog [UnicodeDb] (config : OperatorConfig) : (o : Operation) → Py o.Result
  | enqueue args => Py.withSession (tryEnqueueReview args)
  | persist job result => Worker.persist config job result
  | finalizeFailure job statusDetail error failureMessage =>
    Worker.finalizeFailure config job statusDetail error failureMessage
  | claimFailureSlot repo prNumber cooldownSeconds =>
    Py.withSession (VidiPr.claimFailureSlot repo prNumber cooldownSeconds)

/-- The job of the operation, if it has one, is a job of the store. -/
def On (db : Db) : Operation → Prop
  | persist job _ => ∃ row ∈ db.jobs, row.id = job.id ∧ row.key = job.key
  | finalizeFailure job _ _ _ => ∃ row ∈ db.jobs, row.id = job.id ∧ row.key = job.key
  | _ => True

/-- What the operation makes of a store. -/
def leaves : Operation → Outcome
  | enqueue args => Enqueues args
  | persist job result => Persists job result
  | finalizeFailure job statusDetail error failureMessage =>
    Persists job
      { status := .failed
        statusDetail := some statusDetail
        error := some error
        failureMessage := some failureMessage }
  | claimFailureSlot repo prNumber _ => TakesSlot repo prNumber

theorem solo [UnicodeDb] {a : Actor} {db : Db} {hist : List (Actor × Db)} {log : WorkerLog}
    (config : OperatorConfig) (o : Operation) :
    wp (VidiPr.solo a) (o.prog config) (Leaves o.leaves (⟨db, none, hist⟩, log))
      (⟨db, none, hist⟩, log) := by
  cases o with
  | enqueue args => exact enqueue_solo args
  | persist job result => exact persist_solo config job result
  | finalizeFailure job statusDetail error failureMessage =>
    show wp _ (Worker.finalizeFailure config job statusDetail error failureMessage) _ _
    rw [finalizeFailure_eq]
    exact persist_solo config job _
  | claimFailureSlot repo prNumber cooldownSeconds =>
    exact claimFailureSlot_solo repo prNumber cooldownSeconds

theorem frames {o : Operation} {k : Nat} {b : Bool} {db db' : Db} (hon : o.On db)
    (h : o.leaves k b db db') : db.Frames o.key db' := by
  cases o with
  | enqueue args =>
    rcases h with ⟨_, rfl, _⟩ | ⟨_, _, now₁, now₂, rfl⟩
    · exact .refl _ _
    · exact enqueuedDb_frames args now₁ now₂ db
  | persist job result => exact persists_frames hon h
  | finalizeFailure job statusDetail error failureMessage => exact persists_frames hon h
  | claimFailureSlot repo prNumber cooldownSeconds => exact takesSlot_frames h

theorem alike {o : Operation} {k k' : Nat} {b b' : Bool} {db db' db₂ db₂' : Db}
    (h : db.SameAt o.key db₂) (ho : o.leaves k b db db') (ho₂ : o.leaves k' b' db₂ db₂')
    (hagree : Agree k b k' b') : db'.AlikeAt o.key db₂' := by
  cases o with
  | enqueue args => exact enqueues_alike h ho ho₂ hagree
  | persist job result => exact persists_alike h ho ho₂ hagree
  | finalizeFailure job statusDetail error failureMessage => exact persists_alike h ho ho₂ hagree
  | claimFailureSlot repo prNumber cooldownSeconds =>
    exact ⟨_, _, takesSlot_alike h.alikeBy ho ho₂ hagree⟩

theorem On.of_sameAt {o : Operation} {db db' : Db} (hon : o.On db) (h : db.SameAt o.key db') :
    o.On db' := by
  cases o with
  | persist job result =>
    obtain ⟨row, hrow, hid, hkey⟩ := hon
    exact ⟨row, (h.jobs row hkey).mpr hrow, hid, hkey⟩
  | finalizeFailure job statusDetail error failureMessage =>
    obtain ⟨row, hrow, hid, hkey⟩ := hon
    exact ⟨row, (h.jobs row hkey).mpr hrow, hid, hkey⟩
  | enqueue args => trivial
  | claimFailureSlot repo prNumber cooldownSeconds => trivial

/-- The operation, run to its end by some actor with nobody beside it, makes `db'` of `db`. On the
way it commits so many transactions, and it ends in an exception or not. -/
def Performs [UnicodeDb] (X : External) (config : OperatorConfig) (o : Operation) (commits : Nat)
    (ended : Bool) (db db' : Db) : Prop :=
  ∃ (a : Actor) (w w' : World X) (tr : ReqTrace) (r : Except PyError o.Result),
    w.db.tx = none ∧ w.db.committed = db ∧ Ends (sem X a) (o.prog config) w tr r w' ∧
      w'.db.committed = db' ∧ (logOf tr {}).commits = commits ∧ raised r = ended

theorem Performs.leaves [UnicodeDb] {X : External} {config : OperatorConfig} {o : Operation}
    {k : Nat} {b : Bool} {db db' : Db} (h : o.Performs X config k b db db') :
    o.leaves k b db db' := by
  obtain ⟨a, w, w', tr, r, htx, rfl, hends, rfl, rfl, rfl⟩ := h
  have hstart : w.db = ⟨w.db.committed, none, w.db.log⟩ := by rw [← htx]
  have hsolo : wp (VidiPr.solo a) (o.prog config) (Leaves o.leaves (w.db, {})) (w.db, {}) := by
    rw [hstart]
    exact o.solo config
  obtain ⟨_, commits, hcommits, hleaves⟩ := solo_ends hends hsolo
  have hk : (logOf tr {}).commits = commits := by simpa using hcommits
  rw [hk]
  exact hleaves

end Operation

/-! ## The result -/

/-- Operations on different pull requests commute, up to ids and times, where each gets as far in
one order as in the other, or returns in both. -/
theorem operations_commute [UnicodeDb] {X : External} {config : OperatorConfig} {o₁ o₂ : Operation}
    {db db₁ db₁₂ db₂ db₂₁ : Db} {k₁ k₁' k₂ k₂' : Nat} {b₁ b₁' b₂ b₂' : Bool}
    (hne : o₁.key ≠ o₂.key) (hon₁ : o₁.On db) (hon₂ : o₂.On db)
    (h₁ : o₁.Performs X config k₁ b₁ db db₁) (h₁₂ : o₂.Performs X config k₂ b₂ db₁ db₁₂)
    (h₂ : o₂.Performs X config k₂' b₂' db db₂) (h₂₁ : o₁.Performs X config k₁' b₁' db₂ db₂₁)
    (hagree₁ : Agree k₁ b₁ k₁' b₁') (hagree₂ : Agree k₂ b₂ k₂' b₂') (key : PrKey) :
    db₁₂.AlikeAt key db₂₁ := by
  -- what each operation does to the other one's pull request, alone and after it
  have hframe₁ : db.Frames o₁.key db₁ := Operation.frames hon₁ h₁.leaves
  have hframe₂ : db.Frames o₂.key db₂ := Operation.frames hon₂ h₂.leaves
  have hframe₁₂ : db₁.Frames o₂.key db₁₂ :=
    Operation.frames (hon₂.of_sameAt (hframe₁ _ hne.symm)) h₁₂.leaves
  have hframe₂₁ : db₂.Frames o₁.key db₂₁ :=
    Operation.frames (hon₁.of_sameAt (hframe₂ _ hne)) h₂₁.leaves
  by_cases hkey₁ : key = o₁.key
  · subst hkey₁
    obtain ⟨π, ρ, halike⟩ := Operation.alike (hframe₂ _ hne) h₁.leaves h₂₁.leaves hagree₁
    exact ⟨π, ρ, halike.of_sameAt (hframe₁₂ _ hne) (.refl _ _)⟩
  · by_cases hkey₂ : key = o₂.key
    · subst hkey₂
      obtain ⟨π, ρ, halike⟩ := Operation.alike (hframe₁ _ hne.symm).symm h₁₂.leaves h₂.leaves
        hagree₂
      exact ⟨π, ρ, halike.of_sameAt (.refl _ _) (hframe₂₁ _ hne.symm)⟩
    · have hsame : db₁₂.SameAt key db₂₁ :=
        ((hframe₁ _ hkey₁).trans (hframe₁₂ _ hkey₂)).symm.trans
          ((hframe₂ _ hkey₂).trans (hframe₂₁ _ hkey₁))
      exact ⟨_, _, hsame.alikeBy⟩

/-- **Pull requests are isolated.** In every state of every run, whatever else is in progress: a
step made on behalf of a pull request leaves the rows of the others alone; so does an operation
that is run by itself; and two operations on different pull requests leave the same store in
either order, up to ids and times. -/
theorem pr_isolation [UnicodeDb] {X : External} {config : OperatorConfig}
    {reviewer : ReviewRoutine} {s : Service (.queue X config reviewer)} {seen : Seen}
    (h : Observed s seen) :
    (∀ ev s' key, Step s ev s' → OnBehalf s seen key ev →
      s.world.db.committed.Frames key s'.world.db.committed) ∧
    (∀ (o : Operation) k b db', o.On s.world.db.committed →
      o.Performs X config k b s.world.db.committed db' →
      s.world.db.committed.Frames o.key db') ∧
    ∀ (o₁ o₂ : Operation) db₁ db₁₂ db₂ db₂₁ k₁ k₁' k₂ k₂' b₁ b₁' b₂ b₂', o₁.key ≠ o₂.key →
      o₁.On s.world.db.committed → o₂.On s.world.db.committed →
      o₁.Performs X config k₁ b₁ s.world.db.committed db₁ → o₂.Performs X config k₂ b₂ db₁ db₁₂ →
      o₂.Performs X config k₂' b₂' s.world.db.committed db₂ →
      o₁.Performs X config k₁' b₁' db₂ db₂₁ → Agree k₁ b₁ k₁' b₁' → Agree k₂ b₂ k₂' b₂' →
      ∀ key, db₁₂.AlikeAt key db₂₁ :=
  ⟨fun _ _ _ hs hkey => frames_step h hs hkey,
    fun _ _ _ _ hon hperforms => Operation.frames hon hperforms.leaves,
    fun _ _ _ _ _ _ _ _ _ _ _ _ _ _ hne hon₁ hon₂ h₁ h₁₂ h₂ h₂₁ hagree₁ hagree₂ key =>
      operations_commute hne hon₁ hon₂ h₁ h₁₂ h₂ h₂₁ hagree₁ hagree₂ key⟩

section Example

attribute [local instance] asciiDb

/-- Two triggers, one after the other, each carried out to its end. -/
def bothQueued : Option (Service (.queue outage exampleConfig nothingToReview)) :=
  Schedule.execute (perform outageResponder) (fun _ _ => true)
    ([.spawn 1 exampleTrigger] ++ List.replicate 6 (.call 1 false) ++
      [.spawn 2 { exampleTrigger with prNumber := 8 }] ++ List.replicate 6 (.call 2 false))
    (Service.initial _ (0 : Nat))

/-- The store with a job and a lock of pull request 7, and a job and a lock of pull request 8. -/
def queuedDb : Db := bothQueued.elim Db.empty fun s => s.world.db.committed

theorem observed_bothQueued :
    ∃ (s : Service (.queue outage exampleConfig nothingToReview)) (seen : Seen),
      Observed s seen ∧ s.world.db.committed = queuedDb := by
  have hsome : bothQueued.isSome = true := by decide +kernel
  obtain ⟨s, hs⟩ := Option.isSome_iff_exists.mp hsome
  have hrun := hs
  unfold bothQueued at hrun
  have hreach : ReachableIf (fun _ _ => True) s :=
    reachable_of_schedule (fun _ _ _ => trivial) (.initial (0 : Nat)) hrun
  obtain ⟨seen, hseen⟩ := observed_of_reachable hreach
  refine ⟨s, seen, hseen, ?_⟩
  rw [queuedDb, hs]
  rfl

/-- The job of pull request 7 fails, and a failure comment of pull request 8 is due. -/
def exampleFailure : Operation :=
  .finalizeFailure { exampleTrigger.job 0 with id := 1 } .timeout "job timed out" "it timed out"

def exampleSlot : Operation := .claimFailureSlot "o/r" 8 600

/-- An operation run by itself during an outage, and the store it leaves. -/
def exampleRun (o : Operation) (db : Db) : ReqTrace × Except PyError o.Result × World outage :=
  runAlone outageResponder .worker (o.prog exampleConfig) ⟨{ committed := db }, (0 : Nat)⟩

def exampleAfter (o : Operation) (db : Db) : Db := (exampleRun o db).2.2.db.committed

def exampleCommits (o : Operation) (db : Db) : Nat := (logOf (exampleRun o db).1 {}).commits

theorem exampleRun_performs (o : Operation) (db : Db) :
    o.Performs outage exampleConfig (exampleCommits o db) (raised (exampleRun o db).2.1) db
      (exampleAfter o db) :=
  ⟨.worker, _, _, _, _, rfl, rfl, ends_runAlone rfl, rfl, rfl, rfl⟩

/-- A failed job and a failure comment, in either order, where both pull requests have rows. -/
theorem pr_isolation_failure_and_comment :
    ∃ db₁₂ db₂₁ : Db, (∀ key, db₁₂.AlikeAt key db₂₁) ∧
      (∃ job ∈ db₁₂.jobs, job.key = ("o/r", 7) ∧ job.status = .failed) ∧
      (∃ job ∈ db₁₂.jobs, job.key = ("o/r", 8) ∧ job.status = .pending) ∧
      ∃ cooldown ∈ db₁₂.failureCooldowns, cooldown.key = ("o/r", 8) := by
  obtain ⟨s, seen, hseen, hdb⟩ := observed_bothQueued
  have hon : ∃ row ∈ queuedDb.jobs, row.id = 1 ∧ row.key = ("o/r", 7) := by decide +kernel
  have hmain := (pr_isolation hseen).2.2 exampleFailure exampleSlot
  rw [hdb] at hmain
  have halike := hmain _ _ _ _ _ _ _ _ _ _ _ _ (by decide) hon trivial
    (exampleRun_performs _ _) (exampleRun_performs _ _) (exampleRun_performs _ _)
    (exampleRun_performs _ _) (Or.inl (by decide +kernel)) (Or.inl (by decide +kernel))
  exact ⟨_, _, halike, by decide +kernel, by decide +kernel, by decide +kernel⟩

end Example

end VidiPr
