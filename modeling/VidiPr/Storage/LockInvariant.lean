import VidiPr.Orchestration.Locks
import VidiPr.Pipeline.ReviewResult

/-!
# Locks and unfinished jobs

The invariant that ties the two tables of the queue together, and what each write of the service
does to it. It is stated on the tables alone; which transaction writes what is the business of
`Service/`.

* **`LockInv`** — every lock row belongs to an unfinished job of its pull request, and every
  unfinished job holds its pull request's lock. That there is at most one unfinished job for a
  pull request follows from the primary key of the lock table (`LockInv.unique`).
* **`Db.Running`** — which jobs are `RUNNING`.
* **`Db.Grows`** — all that tasks other than the worker do to a store: they add pending jobs and
  locks.
* **`Enqueued`** — what `try_enqueue_review` commits.
* **`Db.Advances`** — all that anyone does to the jobs: each takes steps of its life.
* **`Held`**, **`Settled`** — where the job of the worker is, before and after its outcome is
  committed.
-/

namespace VidiPr

open Relational

/-- Locks and unfinished jobs correspond: a lock names an unfinished job of its own pull request,
and each unfinished job is named by the lock of its pull request. -/
structure LockInv (db : Db) : Prop where
  lock_job : ∀ lock ∈ db.prLocks, ∃ job ∈ db.jobs,
    job.id = lock.jobId ∧ job.key = lock.key ∧ ¬ job.status.IsTerminal
  job_lock : ∀ job ∈ db.jobs, ¬ job.status.IsTerminal →
    ∃ lock ∈ db.prLocks, lock.key = job.key ∧ lock.jobId = job.id

/-- The job with this id is `RUNNING`. -/
def Db.Running (db : Db) (id : Nat) : Prop :=
  ∃ job ∈ db.jobs, job.id = id ∧ job.status = .running

/-- `key` has an unfinished job. -/
def Db.Busy (db : Db) (key : PrKey) : Prop :=
  ∃ job ∈ db.jobs, job.key = key ∧ ¬ job.status.IsTerminal

/-- What tasks other than the worker do to a store. -/
structure Db.Grows (db db' : Db) : Prop where
  jobs : ∀ job ∈ db.jobs, job ∈ db'.jobs
  new : ∀ job ∈ db'.jobs, job ∈ db.jobs ∨ job.status = .pending
  locks : ∀ lock ∈ db.prLocks, lock ∈ db'.prLocks
  reviews : db'.reviewsPosted = db.reviewsPosted

theorem Db.Grows.refl (db : Db) : db.Grows db :=
  ⟨fun _ h => h, fun _ h => Or.inl h, fun _ h => h, rfl⟩

/-- Growing leaves the running jobs alone. -/
theorem Db.Grows.running {db db' : Db} (h : db.Grows db') (id : Nat) :
    db'.Running id ↔ db.Running id := by
  constructor
  · rintro ⟨job, hjob, hid, hst⟩
    rcases h.new job hjob with hold | hpending
    · exact ⟨job, hold, hid, hst⟩
    · rw [hpending] at hst
      cases hst
  · rintro ⟨job, hjob, hid, hst⟩
    exact ⟨job, h.jobs job hjob, hid, hst⟩

theorem LockInv.congr {db db' : Db} (h : LockInv db) (hjobs : db'.jobs = db.jobs)
    (hlocks : db'.prLocks = db.prLocks) : LockInv db' := by
  constructor
  · rw [hlocks, hjobs]
    exact h.lock_job
  · rw [hlocks, hjobs]
    exact h.job_lock

theorem lockInv_empty : LockInv Db.empty := by
  constructor
  · intro lock h
    exact absurd h (Table.not_mem_empty lock)
  · intro job h
    exact absurd h (Table.not_mem_empty job)

namespace LockInv

variable {db : Db}

/-- A pull request has at most one unfinished job. -/
theorem unique (h : LockInv db) {job job' : Job} (hjob : job ∈ db.jobs) (hjob' : job' ∈ db.jobs)
    (hst : ¬ job.status.IsTerminal) (hst' : ¬ job'.status.IsTerminal) (hkey : job.key = job'.key) :
    job = job' := by
  obtain ⟨lock, hlock, hk, hid⟩ := h.job_lock job hjob hst
  obtain ⟨lock', hlock', hk', hid'⟩ := h.job_lock job' hjob' hst'
  have hsame : lock = lock' := Table.eq_of_key_eq hlock hlock' (by rw [hk, hk', hkey])
  subst hsame
  exact Table.eq_of_key_eq hjob hjob' (hid.symm.trans hid')

/-- A pull request is locked exactly while it has an unfinished job. -/
theorem busy_iff (h : LockInv db) (key : PrKey) :
    db.Busy key ↔ ∃ lock ∈ db.prLocks, lock.key = key := by
  constructor
  · rintro ⟨job, hjob, rfl, hst⟩
    obtain ⟨lock, hlock, hk, _⟩ := h.job_lock job hjob hst
    exact ⟨lock, hlock, hk⟩
  · rintro ⟨lock, hlock, rfl⟩
    obtain ⟨job, hjob, _, hk, hst⟩ := h.lock_job lock hlock
    exact ⟨job, hjob, hk, hst⟩

end LockInv

/-! ## Enqueueing -/

/-- `db'` is `db` with a pending job for `args` and the lock that belongs to it, where no lock was
held. -/
structure EnqueuedAs (args : EnqueueArgs) (job : Job) (lock : PrLock) (db db' : Db) : Prop where
  jobs : ∀ j, j ∈ db'.jobs ↔ j ∈ db.jobs ∨ j = job
  new : job ∉ db.jobs
  status : job.status = .pending
  installationId : job.installationId = args.installationId
  key : job.key = args.key
  headSha : job.headSha = args.headSha
  triggerKind : job.triggerKind = args.triggerKind
  extraContext : job.extraContext = args.extraContext
  locks : ∀ l, l ∈ db'.prLocks ↔ l ∈ db.prLocks ∨ l = lock
  lockKey : lock.key = args.key
  lockJob : lock.jobId = job.id
  free : ∀ l ∈ db.prLocks, l.key ≠ args.key
  reviews : db'.reviewsPosted = db.reviewsPosted
  deliveries : db'.webhookDeliveries = db.webhookDeliveries
  cooldowns : db'.failureCooldowns = db.failureCooldowns

/-- A review was enqueued: a new pending job and its lock have come into a store in which the pull
request was not locked, and nothing else has changed. -/
def Enqueued (args : EnqueueArgs) (db db' : Db) : Prop :=
  ∃ job lock, EnqueuedAs args job lock db db'

/-- The row `insert_job` adds for `args`, up to its id and its times: pending, and otherwise what
the call has asked for. -/
structure JobFor (args : EnqueueArgs) (job : Job) : Prop where
  status : job.status = .pending
  installationId : job.installationId = args.installationId
  repo : job.repo = args.repo
  prNumber : job.prNumber = args.prNumber
  headSha : job.headSha = args.headSha
  triggerKind : job.triggerKind = args.triggerKind
  extraContext : job.extraContext = args.extraContext

/-- Inserting a job and then its lock, when the lock was free. -/
theorem enqueued_of_inserts {args : EnqueueArgs} {db : Db} {job row : Job} {lockedAt : Nat}
    {work work' : Db} (hjob : JobFor args job) (hins : (Dml.insertJob job).apply db = (row, work))
    (hlock : (Dml.insertPrLock
      { repo := args.repo, prNumber := args.prNumber, lockedAt, jobId := row.id }).apply work
        = (true, work')) :
    Enqueued args db work' := by
  set lock : PrLock := { repo := args.repo, prNumber := args.prNumber, lockedAt, jobId := row.id }
    with hlockdef
  -- the row is the job under a fresh id
  have hrow : row = { job with id := db.jobs.freshId } := (congrArg Prod.fst hins).symm
  have hworkJobs : ∀ j, j ∈ work.jobs ↔ j ∈ db.jobs ∨ j = row := by
    intro j
    have hwork : work.jobs = (db.jobs.insertAuto (fun id => { job with id }) fun _ => rfl).1 :=
      congrArg (fun r => r.2.jobs) hins.symm
    rw [hwork, hrow]
    exact Table.mem_insertAuto
  have hjobs : work'.jobs = work.jobs := congrArg (fun r => r.2.jobs) hlock.symm
  have hworkLocks : work.prLocks = db.prLocks := congrArg (fun r => r.2.prLocks) hins.symm
  have hlocks' : work'.prLocks = (work.prLocks.insertOrIgnore lock).1 :=
    congrArg (fun r => r.2.prLocks) hlock.symm
  have hwritten : (work.prLocks.insertOrIgnore lock).2 = true := congrArg Prod.fst hlock
  rcases work.prLocks.insertOrIgnore_cases lock with ⟨_, heq⟩ | ⟨hfree, t, heq, hmem⟩
  · rw [heq] at hwritten
    cases hwritten
  rw [heq] at hlocks'
  refine ⟨row, lock, ?_, ?_, ?_, ?_, ?_, ?_, ?_, ?_, ?_, rfl, rfl, ?_, ?_, ?_, ?_⟩
  · intro j
    rw [hjobs, hworkJobs]
  · intro hmem'
    have hlt := Table.lt_freshId hmem'
    rw [hrow] at hlt
    exact Nat.lt_irrefl _ hlt
  · rw [hrow]; exact hjob.status
  · rw [hrow]; exact hjob.installationId
  · rw [hrow, EnqueueArgs.key, ← hjob.repo, ← hjob.prNumber]; rfl
  · rw [hrow]; exact hjob.headSha
  · rw [hrow]; exact hjob.triggerKind
  · rw [hrow]; exact hjob.extraContext
  · intro l
    rw [hlocks', hmem l, hworkLocks]
  · exact fun l hl => hfree l (hworkLocks ▸ hl)
  · exact (congrArg (fun r => r.2.reviewsPosted) hlock.symm).trans
      (congrArg (fun r => r.2.reviewsPosted) hins.symm)
  · exact (congrArg (fun r => r.2.webhookDeliveries) hlock.symm).trans
      (congrArg (fun r => r.2.webhookDeliveries) hins.symm)
  · exact (congrArg (fun r => r.2.failureCooldowns) hlock.symm).trans
      (congrArg (fun r => r.2.failureCooldowns) hins.symm)

/-- The lock insert is refused only where the lock is held. -/
theorem locked_of_refused {db : Db} {job row : Job} {lock : PrLock} {work work' : Db}
    (hins : (Dml.insertJob job).apply db = (row, work))
    (hlock : (Dml.insertPrLock lock).apply work = (false, work')) :
    ∃ l ∈ db.prLocks, l.key = lock.key := by
  have hworkLocks : work.prLocks = db.prLocks := congrArg (fun r => r.2.prLocks) hins.symm
  have hwritten : (work.prLocks.insertOrIgnore lock).2 = false := congrArg Prod.fst hlock
  rcases work.prLocks.insertOrIgnore_cases lock with ⟨hheld, _⟩ | ⟨_, t, heq, _⟩
  · rwa [hworkLocks] at hheld
  · rw [heq] at hwritten
    cases hwritten

theorem Enqueued.grows {args : EnqueueArgs} {db db' : Db} (h : Enqueued args db db') :
    db.Grows db' := by
  obtain ⟨job, lock, h⟩ := h
  refine ⟨fun j hj => (h.jobs j).mpr (Or.inl hj), fun j hj => ?_,
    fun l hl => (h.locks l).mpr (Or.inl hl), h.reviews⟩
  rcases (h.jobs j).mp hj with hold | rfl
  · exact Or.inl hold
  · exact Or.inr h.status

theorem Enqueued.lockInv {args : EnqueueArgs} {db db' : Db} (h : Enqueued args db db')
    (hinv : LockInv db) : LockInv db' := by
  obtain ⟨job, lock, h⟩ := h
  constructor
  · intro l hl
    rcases (h.locks l).mp hl with hold | rfl
    · obtain ⟨j, hj, h1, h2, h3⟩ := hinv.lock_job l hold
      exact ⟨j, (h.jobs j).mpr (Or.inl hj), h1, h2, h3⟩
    · exact ⟨job, (h.jobs job).mpr (Or.inr rfl), h.lockJob.symm, h.key.trans h.lockKey.symm,
        by simp [h.status]⟩
  · intro j hj hst
    rcases (h.jobs j).mp hj with hold | rfl
    · obtain ⟨l, hl, h1, h2⟩ := hinv.job_lock j hold hst
      exact ⟨l, (h.locks l).mpr (Or.inl hl), h1, h2⟩
    · exact ⟨lock, (h.locks lock).mpr (Or.inr rfl), h.lockKey.trans h.key.symm, h.lockJob⟩

/-! ## Changing the status of a job -/

theorem mem_updateJobStatus {db : Db} {id : Nat} {status : JobStatus}
    {detail : Option JobStatusDetail} {error : Option String} {updatedAt : Nat} {job : Job} :
    job ∈ ((Dml.updateJobStatus id status detail error updatedAt).apply db).2.jobs ↔
      (∃ old ∈ db.jobs, old.id = id ∧ old.withStatus status detail error updatedAt = job) ∨
      (job ∈ db.jobs ∧ job.id ≠ id) := by
  simp only [Dml.apply, Table.mem_updateWhere, decide_eq_true_eq, ne_eq]

/-- Which jobs run after one job's status was set. -/
theorem running_updateJobStatus {db : Db} {id : Nat} {status : JobStatus}
    {detail : Option JobStatusDetail} {error : Option String} {updatedAt : Nat} {old : Job}
    (hold : old ∈ db.jobs) (hid : old.id = id) (id' : Nat) :
    ((Dml.updateJobStatus id status detail error updatedAt).apply db).2.Running id' ↔
      (id' = id ∧ status = .running) ∨ (id' ≠ id ∧ db.Running id') := by
  simp only [Db.Running, mem_updateJobStatus]
  constructor
  · rintro ⟨job, ⟨old', hold', hid', rfl⟩ | ⟨hjob, hne⟩, rfl, hst⟩
    · exact Or.inl ⟨hid', hst⟩
    · exact Or.inr ⟨hne, job, hjob, rfl, hst⟩
  · rintro (⟨rfl, hst⟩ | ⟨hne, job, hjob, rfl, hst⟩)
    · exact ⟨_, Or.inl ⟨old, hold, hid, rfl⟩, hid, hst⟩
    · exact ⟨job, Or.inr ⟨hjob, hne⟩, rfl, hst⟩

/-- Claiming a pending job keeps the invariant. -/
theorem LockInv.claim {db : Db} (h : LockInv db) {job : Job} (hjob : job ∈ db.jobs)
    (hst : job.status = .pending) (detail : Option JobStatusDetail) (error : Option String)
    (updatedAt : Nat) :
    LockInv ((Dml.updateJobStatus job.id .running detail error updatedAt).apply db).2 := by
  constructor
  · intro lock hlock
    obtain ⟨old, hold, hid, hkey, hnt⟩ := h.lock_job lock hlock
    by_cases heq : old.id = job.id
    · exact ⟨_, mem_updateJobStatus.mpr (Or.inl ⟨old, hold, heq, rfl⟩), hid, hkey, by simp⟩
    · exact ⟨old, mem_updateJobStatus.mpr (Or.inr ⟨hold, heq⟩), hid, hkey, hnt⟩
  · intro job' hjob' hnt
    rcases mem_updateJobStatus.mp hjob' with ⟨old, hold, hid, rfl⟩ | ⟨hold, _⟩
    · have hsame : old = job := Table.eq_of_key_eq hold hjob hid
      subst hsame
      exact h.job_lock old hold (by simp [hst])
    · exact h.job_lock job' hold hnt

/-- Finishing the unfinished job of a pull request and deleting that pull request's lock keeps
the invariant, although the delete does not look at the job id. -/
theorem LockInv.finish {db work : Db} (h : LockInv db) {job : Job} (hjob : job ∈ db.jobs)
    (hnt : ¬ job.status.IsTerminal) {status : JobStatus} (hst : status.IsTerminal)
    {detail : Option JobStatusDetail} {error : Option String} {updatedAt : Nat}
    (hjobs : work.jobs
      = ((Dml.updateJobStatus job.id status detail error updatedAt).apply db).2.jobs)
    (hlocks : work.prLocks = ((Dml.deletePrLock job.repo job.prNumber).apply db).2.prLocks) :
    LockInv work := by
  have hmemLocks : ∀ l, l ∈ work.prLocks ↔ l ∈ db.prLocks ∧ l.key ≠ job.key := by
    intro l
    rw [hlocks]
    simp [Dml.apply, Job.key]
  obtain ⟨lock, hlock, hlk, hlid⟩ := h.job_lock job hjob hnt
  constructor
  · intro l hl
    obtain ⟨hold, hne⟩ := (hmemLocks l).mp hl
    obtain ⟨j, hj, hid, hkey, hjnt⟩ := h.lock_job l hold
    have hjne : j.id ≠ job.id := by
      intro heq
      have hsame : j = job := Table.eq_of_key_eq hj hjob heq
      exact hne (by rw [← hkey, hsame])
    exact ⟨j, hjobs ▸ mem_updateJobStatus.mpr (Or.inr ⟨hj, hjne⟩), hid, hkey, hjnt⟩
  · intro j hj hjnt
    rw [hjobs] at hj
    rcases mem_updateJobStatus.mp hj with ⟨old, _, _, rfl⟩ | ⟨hold, hne⟩
    · exact absurd hst hjnt
    · obtain ⟨l, hl, hlk', hlid'⟩ := h.job_lock j hold hjnt
      refine ⟨l, (hmemLocks l).mpr ⟨hl, ?_⟩, hlk', hlid'⟩
      -- a second lock row of the pull request would be the same row, hence the same job
      intro hkey
      have hsame : l = lock := Table.eq_of_key_eq hl hlock (by rw [hkey, hlk])
      exact hne (by rw [← hlid', hsame, hlid])

/-! ## Recovery -/

theorem mem_failRunningJobs {db : Db} {text : String} {updatedAt : Nat} {job : Job} :
    job ∈ ((Dml.failRunningJobs text updatedAt).apply db).2.jobs ↔
      (∃ old ∈ db.jobs, old.status = .running ∧ Job.interrupted text updatedAt old = job) ∨
      (job ∈ db.jobs ∧ job.status ≠ .running) := by
  simp only [Dml.apply, Table.mem_updateWhere, decide_eq_true_eq, ne_eq]

/-- `recover_on_startup` keeps the invariant: a lock goes exactly with the job it belonged to. -/
theorem LockInv.recover {db work : Db} (h : LockInv db) {text : String} {updatedAt : Nat}
    (hwork : work = ((Dml.failRunningJobs text updatedAt).apply db).2) :
    LockInv (Dml.deleteTerminalLocks.apply work).2 := by
  subst hwork
  set work := ((Dml.failRunningJobs text updatedAt).apply db).2
  have hmemJobs : ∀ j, j ∈ work.jobs ↔
      (∃ old ∈ db.jobs, old.status = .running ∧ Job.interrupted text updatedAt old = j) ∨
      (j ∈ db.jobs ∧ j.status ≠ .running) := fun j => mem_failRunningJobs
  have hmemLocks : ∀ l, l ∈ (Dml.deleteTerminalLocks.apply work).2.prLocks ↔
      l ∈ db.prLocks ∧ ¬ work.HasTerminalJob l.jobId := by
    intro l
    simp only [Dml.apply, Table.mem_deleteWhere, decide_eq_true_eq]
    rfl
  constructor
  · -- a lock that is left is of a job that is left unfinished
    intro l hl
    obtain ⟨hold, hfree⟩ := (hmemLocks l).mp hl
    obtain ⟨j, hj, hid, hkey, hnt⟩ := h.lock_job l hold
    by_cases hrun : j.status = .running
    · -- the job of the lock was just failed, so the lock is gone
      refine absurd ⟨Job.interrupted text updatedAt j, ?_, hid, by simp [Job.interrupted]⟩ hfree
      exact (hmemJobs _).mpr (Or.inl ⟨j, hj, hrun, rfl⟩)
    · exact ⟨j, (hmemJobs j).mpr (Or.inr ⟨hj, hrun⟩), hid, hkey, hnt⟩
  · -- and such a job has kept its lock
    intro j hj hnt
    rcases (hmemJobs j).mp hj with ⟨old, _, _, rfl⟩ | ⟨hold, hrun⟩
    · exact absurd (by simp [Job.interrupted]) hnt
    · obtain ⟨l, hl, hlk, hlid⟩ := h.job_lock j hold hnt
      refine ⟨l, (hmemLocks l).mpr ⟨hl, ?_⟩, hlk, hlid⟩
      rintro ⟨j', hj', hid', hterm⟩
      have hsame : j' = j := Table.eq_of_key_eq (t := work.jobs) hj' hj (hid'.trans hlid)
      exact hnt (hsame ▸ hterm)

/-! ## The life of a job -/

/-- The steps of a job's status: from pending to running, and from there to one of the two ends. -/
def JobStatus.Next : JobStatus → JobStatus → Prop
  | .pending, status => status = .running
  | .running, status => status.IsTerminal
  | _, _ => False

/-- Rows stay, and each is left alone or takes one step of its life. -/
def Db.Advances (db db' : Db) : Prop :=
  ∀ job ∈ db.jobs, ∃ job' ∈ db'.jobs, job'.id = job.id ∧ job'.key = job.key ∧
    (job' = job ∨ job.status.Next job'.status)

theorem Db.Advances.of_subset {db db' : Db} (h : ∀ job ∈ db.jobs, job ∈ db'.jobs) :
    db.Advances db' :=
  fun job hjob => ⟨job, h job hjob, rfl, rfl, Or.inl rfl⟩

theorem Db.Grows.advances {db db' : Db} (h : db.Grows db') : db.Advances db' :=
  .of_subset h.jobs

/-- Setting the status of one job, to a status that comes next. -/
theorem advances_updateJobStatus {db work : Db} {job : Job} (hjob : job ∈ db.jobs)
    {status : JobStatus} (hnext : job.status.Next status) {detail : Option JobStatusDetail}
    {error : Option String} {updatedAt : Nat}
    (hwork : work.jobs
      = ((Dml.updateJobStatus job.id status detail error updatedAt).apply db).2.jobs) :
    db.Advances work := by
  intro old hold
  rw [hwork]
  by_cases hid : old.id = job.id
  · have hsame : old = job := Table.eq_of_key_eq hold hjob hid
    subst hsame
    exact ⟨_, mem_updateJobStatus.mpr (Or.inl ⟨old, hold, hid, rfl⟩), rfl, rfl, Or.inr hnext⟩
  · exact ⟨old, mem_updateJobStatus.mpr (Or.inr ⟨hold, hid⟩), rfl, rfl, Or.inl rfl⟩

theorem advances_recover {db : Db} {text : String} {updatedAt : Nat} :
    db.Advances ((Dml.failRunningJobs text updatedAt).apply db).2 := by
  intro old hold
  by_cases hrun : old.status = .running
  · refine ⟨Job.interrupted text updatedAt old, ?_, rfl, rfl, Or.inr ?_⟩
    · exact mem_failRunningJobs.mpr (Or.inl ⟨old, hold, hrun, rfl⟩)
    · rw [hrun]
      simp [JobStatus.Next]
  · exact ⟨old, mem_failRunningJobs.mpr (Or.inr ⟨hold, hrun⟩), rfl, rfl, Or.inl rfl⟩

/-- The job has been started: it is running or finished. -/
def Db.Begun (db : Db) (id : Nat) : Prop :=
  ∃ job ∈ db.jobs, job.id = id ∧ job.status ≠ .pending

theorem Db.Advances.begun {db db' : Db} (h : db.Advances db') {id : Nat} (hb : db.Begun id) :
    db'.Begun id := by
  obtain ⟨job, hjob, hid, hst⟩ := hb
  obtain ⟨job', hjob', hid', _, hsame | hnext⟩ := h job hjob
  · exact ⟨job', hjob', hid'.trans hid, hsame ▸ hst⟩
  · refine ⟨job', hjob', hid'.trans hid, fun hpending => ?_⟩
    -- no status comes before `PENDING`
    rw [hpending] at hnext
    cases hs : job.status <;> simp [hs, JobStatus.Next] at hnext

/-! ## The job the worker holds -/

/-- The running jobs are those of `F`. -/
def Db.RunningIs (db : Db) (F : Nat → Prop) : Prop := ∀ id, db.Running id ↔ F id

theorem Db.RunningIs.grows {db db' : Db} {F : Nat → Prop} (h : db.RunningIs F)
    (hg : db.Grows db') : db'.RunningIs F :=
  fun id => (hg.running id).trans (h id)

theorem Db.RunningIs.congr {db db' : Db} {F : Nat → Prop} (h : db.RunningIs F)
    (hjobs : db'.jobs = db.jobs) : db'.RunningIs F := by
  intro id
  rw [Db.Running, hjobs]
  exact h id

/-- `job` is running, and it is not one of the jobs `F` that were running before. -/
structure Held (F : Nat → Prop) (job : Job) (db : Db) : Prop where
  row : job ∈ db.jobs
  running : job.status = .running
  fresh : ¬ F job.id
  only : db.RunningIs fun id => F id ∨ id = job.id

theorem Held.grows {F : Nat → Prop} {job : Job} {db db' : Db} (h : Held F job db)
    (hg : db.Grows db') : Held F job db' :=
  ⟨hg.jobs job h.row, h.running, h.fresh, h.only.grows hg⟩

theorem held_of_claim {F : Nat → Prop} {db : Db} {job : Job} (hF : db.RunningIs F)
    (hjob : job ∈ db.jobs) (hst : job.status = .pending) (detail : Option JobStatusDetail)
    (error : Option String) (updatedAt : Nat) :
    Held F (job.withStatus .running detail error updatedAt)
      ((Dml.updateJobStatus job.id .running detail error updatedAt).apply db).2 := by
  refine ⟨mem_updateJobStatus.mpr (Or.inl ⟨job, hjob, rfl, rfl⟩), rfl, ?_, ?_⟩
  · intro hmem
    obtain ⟨row, hrow, hid, hrun⟩ := (hF job.id).mpr hmem
    have hsame : row = job := Table.eq_of_key_eq hrow hjob hid
    rw [hsame, hst] at hrun
    cases hrun
  · intro id
    rw [running_updateJobStatus hjob rfl, hF id, Job.withStatus_id]
    by_cases heq : id = job.id <;> simp [heq]

/-- The rows of `reviews_posted` before and after a result is recorded. -/
def Recorded (job : Job) (result : ReviewResult)
    (before after : Table Nat ReviewPosted ReviewPosted.id) : Prop :=
  match result.reviewId with
  | none => after = before
  | some reviewId => ∃ posted, posted ∉ before ∧
      (∀ row, row ∈ after ↔ row ∈ before ∨ row = posted) ∧
      posted.repo = job.repo ∧ posted.prNumber = job.prNumber ∧ posted.headSha = job.headSha ∧
      posted.reviewId = reviewId

/-- `job` has the outcome `result`, which is recorded. -/
structure Settled (F : Nat → Prop) (job : Job) (result : ReviewResult)
    (reviews : Table Nat ReviewPosted ReviewPosted.id) (db : Db) : Prop where
  only : db.RunningIs F
  row : ∃ updatedAt,
    job.withStatus result.status result.statusDetail result.error updatedAt ∈ db.jobs
  reviews : Recorded job result reviews db.reviewsPosted

theorem Settled.grows {F : Nat → Prop} {job : Job} {result : ReviewResult}
    {reviews : Table Nat ReviewPosted ReviewPosted.id} {db db' : Db}
    (h : Settled F job result reviews db) (hg : db.Grows db') :
    Settled F job result reviews db' := by
  obtain ⟨updatedAt, hrow⟩ := h.row
  refine ⟨h.only.grows hg, ⟨updatedAt, hg.jobs _ hrow⟩, ?_⟩
  rw [hg.reviews]
  exact h.reviews

theorem Settled.congr {F : Nat → Prop} {job : Job} {result : ReviewResult}
    {reviews : Table Nat ReviewPosted ReviewPosted.id} {db db' : Db}
    (h : Settled F job result reviews db) (hjobs : db'.jobs = db.jobs)
    (hreviews : db'.reviewsPosted = db.reviewsPosted) : Settled F job result reviews db' := by
  refine ⟨h.only.congr hjobs, ?_, ?_⟩
  · rw [hjobs]
    exact h.row
  · rw [hreviews]
    exact h.reviews

/-- Finishing the job that is held. -/
theorem Held.settle {F : Nat → Prop} {job : Job} {db work : Db} {result : ReviewResult}
    {updatedAt : Nat} (h : Held F job db) (hst : result.status.IsTerminal)
    (hjobs : work.jobs = ((Dml.updateJobStatus job.id result.status result.statusDetail
      result.error updatedAt).apply db).2.jobs)
    (hreviews : Recorded job result db.reviewsPosted work.reviewsPosted) :
    Settled F job result db.reviewsPosted work := by
  refine ⟨?_, ⟨updatedAt, ?_⟩, hreviews⟩
  · -- the job was the only one running, and now is not
    have honly : Db.RunningIs ((Dml.updateJobStatus job.id result.status result.statusDetail
        result.error updatedAt).apply db).2 F := by
      have hne : result.status ≠ .running := by
        intro heq
        rw [heq] at hst
        simp at hst
      intro id
      rw [running_updateJobStatus h.row rfl, h.only id]
      constructor
      · rintro (⟨_, hrun⟩ | ⟨hid, hF | heq⟩)
        · exact absurd hrun hne
        · exact hF
        · exact absurd heq hid
      · intro hF
        exact Or.inr ⟨fun heq => h.fresh (heq ▸ hF), Or.inl hF⟩
    exact honly.congr hjobs
  · rw [hjobs]
    exact mem_updateJobStatus.mpr (Or.inl ⟨job, h.row, rfl, rfl⟩)

end VidiPr
