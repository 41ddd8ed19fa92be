import VidiPr.Models.Storage

/-!
# SQL statements

The statements the storage layer sends, each named after what its SQL says and given its meaning
on the tables. A statement is a query, which reads, or a piece of DML, which writes; `rowcount`
results are the rows written.
-/

namespace VidiPr

open Relational

/-! ## Queries -/

inductive Query where
  /-- `session.get(PrLock, …)` -/
  | prLock (repo : String) (prNumber : Nat)
  /-- `select(Job).where(status == PENDING).order_by(created_at, id).limit(1)` -/
  | oldestPendingJob
  /-- `session.refresh(job)` -/
  | job (id : Nat)
  /-- `select(FailureCooldown).where(repo, pr_number)` -/
  | failureCooldown (repo : String) (prNumber : Nat)

def Query.Resp : Query → Type
  | .prLock _ _ => Option PrLock
  | .oldestPendingJob => Option Job
  | .job _ => Option Job
  | .failureCooldown _ _ => Option FailureCooldown

/-- The order of the job queue: `(created_at, id)`. -/
def Job.Before (job other : Job) : Prop :=
  job.createdAt < other.createdAt ∨ (job.createdAt = other.createdAt ∧ job.id < other.id)

instance (job other : Job) : Decidable (job.Before other) :=
  inferInstanceAs (Decidable (_ ∨ _))

/-- The first job of a list in queue order. -/
def oldestJob : List Job → Option Job
  | [] => none
  | job :: rest =>
    match oldestJob rest with
    | none => some job
    | some other => if other.Before job then some other else some job

theorem mem_of_oldestJob {jobs : List Job} {job : Job} (h : oldestJob jobs = some job) :
    job ∈ jobs := by
  induction jobs generalizing job with
  | nil => simp [oldestJob] at h
  | cons first rest ih =>
    simp only [oldestJob] at h
    split at h
    · simp_all
    · rename_i other hother
      split at h
      · obtain rfl := Option.some.inj h
        exact List.mem_cons_of_mem _ (ih hother)
      · simp_all

theorem oldestJob_eq_none {jobs : List Job} : oldestJob jobs = none ↔ jobs = [] := by
  cases jobs with
  | nil => simp [oldestJob]
  | cons first rest =>
    simp only [oldestJob, reduceCtorEq, iff_false]
    split
    · simp
    · split <;> simp

/-- No job of the list comes before the first one. -/
theorem not_before_of_oldestJob {jobs : List Job} {job : Job} (h : oldestJob jobs = some job) :
    ∀ other ∈ jobs, ¬ other.Before job := by
  induction jobs generalizing job with
  | nil => simp
  | cons first rest ih =>
    intro other hother
    simp only [oldestJob] at h
    split at h
    · rename_i hnone
      cases h
      rw [oldestJob_eq_none.mp hnone] at hother
      obtain rfl := List.mem_singleton.mp hother
      simp only [Job.Before]
      omega
    · -- the first of the rest is known: it comes before the head, or it does not
      rename_i least hleast
      split at h
      · rename_i hbefore
        cases h
        rcases List.mem_cons.mp hother with rfl | hrest
        · simp only [Job.Before] at hbefore ⊢
          omega
        · exact ih hleast other hrest
      · rename_i hbefore
        cases h
        rcases List.mem_cons.mp hother with rfl | hrest
        · simp only [Job.Before]
          omega
        · have hle : ¬ other.Before least := ih hleast other hrest
          simp only [Job.Before] at hbefore hle ⊢
          omega

def Db.pendingJobs (db : Db) : List Job :=
  db.jobs.rows.filter fun job => job.status = .pending

theorem mem_pendingJobs {db : Db} {job : Job} :
    job ∈ db.pendingJobs ↔ job ∈ db.jobs ∧ job.status = .pending := by
  simp [Db.pendingJobs, Table.mem_def]

/-- `job` is the first pending job of `db` in queue order. -/
def Db.FirstPending (db : Db) (job : Job) : Prop :=
  job ∈ db.jobs ∧ job.status = .pending ∧
    ∀ other ∈ db.jobs, other.status = .pending → other = job ∨ job.Before other

theorem firstPending_of_oldestJob {db : Db} {job : Job}
    (h : oldestJob db.pendingJobs = some job) : db.FirstPending job := by
  obtain ⟨hjob, hst⟩ := mem_pendingJobs.mp (mem_of_oldestJob h)
  refine ⟨hjob, hst, fun other hother host => ?_⟩
  have hle : ¬ other.Before job :=
    not_before_of_oldestJob h other (mem_pendingJobs.mpr ⟨hother, host⟩)
  by_cases hid : other.id = job.id
  · exact Or.inl (Table.eq_of_key_eq hother hjob hid)
  · right
    simp only [Job.Before] at hle ⊢
    omega

theorem pendingJobs_isEmpty {db : Db} :
    db.pendingJobs.isEmpty = false ↔ ∃ job ∈ db.jobs, job.status = .pending := by
  simp only [← mem_pendingJobs]
  cases db.pendingJobs with
  | nil => simp
  | cons job rest => simp

def Query.eval : (q : Query) → Db → q.Resp
  | .prLock repo prNumber, db => db.prLocks.get? (repo, prNumber)
  | .oldestPendingJob, db => oldestJob db.pendingJobs
  | .job id, db => db.jobs.get? id
  | .failureCooldown repo prNumber, db => db.failureCooldowns.get? (repo, prNumber)

/-! ## Data manipulation -/

inductive Dml where
  /-- `session.add(job); session.flush()` -/
  | insertJob (job : Job)
  /-- `update(Job).where(id)` with the four columns of `update_job_status` -/
  | updateJobStatus (id : Nat) (status : JobStatus) (statusDetail : Option JobStatusDetail)
      (error : Option String) (updatedAt : Nat)
  /-- `insert(PrLock) … on_conflict_do_nothing` -/
  | insertPrLock (lock : PrLock)
  /-- `delete(PrLock).where(repo, pr_number)` -/
  | deletePrLock (repo : String) (prNumber : Nat)
  /-- `insert(WebhookDelivery) … on_conflict_do_nothing` -/
  | insertDelivery (delivery : WebhookDelivery)
  /-- `session.add(posted); session.flush()` -/
  | insertReviewPosted (posted : ReviewPosted)
  /-- `insert(FailureCooldown) … on_conflict_do_update` -/
  | upsertFailureCooldown (cooldown : FailureCooldown)
  /-- `update(Job).where(status == RUNNING)` of `recover_on_startup` -/
  | failRunningJobs (interruptedError : String) (updatedAt : Nat)
  /-- `delete(PrLock).where(job_id in (select id … terminal))` -/
  | deleteTerminalLocks

def Dml.Resp : Dml → Type
  | .insertJob _ => Job
  | .updateJobStatus .. => Unit
  | .insertPrLock _ => Bool
  | .deletePrLock _ _ => Unit
  | .insertDelivery _ => Bool
  | .insertReviewPosted _ => ReviewPosted
  | .upsertFailureCooldown _ => Unit
  | .failRunningJobs _ _ => Nat
  | .deleteTerminalLocks => Nat

/-- The row `update_job_status` leaves: the four columns it sets, with everything else as it was
ordered. -/
def Job.withStatus (job : Job) (status : JobStatus) (statusDetail : Option JobStatusDetail)
    (error : Option String) (updatedAt : Nat) : Job :=
  { job with status, statusDetail, error, updatedAt }

@[simp] theorem Job.withStatus_id (job : Job) (status : JobStatus)
    (detail : Option JobStatusDetail) (error : Option String) (updatedAt : Nat) :
    (job.withStatus status detail error updatedAt).id = job.id := rfl

@[simp] theorem Job.withStatus_key (job : Job) (status : JobStatus)
    (detail : Option JobStatusDetail) (error : Option String) (updatedAt : Nat) :
    (job.withStatus status detail error updatedAt).key = job.key := rfl

@[simp] theorem Job.withStatus_status (job : Job) (status : JobStatus)
    (detail : Option JobStatusDetail) (error : Option String) (updatedAt : Nat) :
    (job.withStatus status detail error updatedAt).status = status := rfl

/-- The row `recover_on_startup` leaves: an error text already there is kept. -/
def Job.interrupted (interruptedError : String) (updatedAt : Nat) (job : Job) : Job :=
  { job with
    status := .failed
    statusDetail := some .interruptedByRestart
    error := some (job.error.getD interruptedError)
    updatedAt }

@[simp] theorem Job.interrupted_id (text : String) (updatedAt : Nat) (job : Job) :
    (Job.interrupted text updatedAt job).id = job.id := rfl

@[simp] theorem Job.interrupted_status (text : String) (updatedAt : Nat) (job : Job) :
    (Job.interrupted text updatedAt job).status = .failed := rfl

/-- The row the cooldown upsert leaves where there was one. -/
def FailureCooldown.bump (lastPostedAt : Nat) (cooldown : FailureCooldown) : FailureCooldown :=
  { cooldown with lastPostedAt }

theorem FailureCooldown.bump_key (lastPostedAt : Nat) (cooldown : FailureCooldown) :
    (cooldown.bump lastPostedAt).key = cooldown.key := rfl

/-- `job_id in (select id from jobs where status in (done, failed))`. -/
def Db.HasTerminalJob (db : Db) (id : Nat) : Prop :=
  ∃ job ∈ db.jobs.rows, job.id = id ∧ job.status.IsTerminal

instance (db : Db) (id : Nat) : Decidable (db.HasTerminalJob id) :=
  inferInstanceAs (Decidable (∃ job ∈ db.jobs.rows, job.id = id ∧ job.status.IsTerminal))

def Dml.apply : (d : Dml) → Db → d.Resp × Db
  | .insertJob job, db =>
    let (jobs, row) := db.jobs.insertAuto (fun id => { job with id }) fun _ => rfl
    (row, { db with jobs })
  | .updateJobStatus id status statusDetail error updatedAt, db =>
    ((), { db with
      jobs := db.jobs.updateWhere (fun job => job.id = id)
        (fun job => job.withStatus status statusDetail error updatedAt)
        fun job => job.withStatus_id status statusDetail error updatedAt })
  | .insertPrLock lock, db =>
    let (prLocks, written) := db.prLocks.insertOrIgnore lock
    (written, { db with prLocks })
  | .deletePrLock repo prNumber, db =>
    ((), { db with prLocks := db.prLocks.deleteWhere fun lock => lock.key = (repo, prNumber) })
  | .insertDelivery delivery, db =>
    let (webhookDeliveries, written) := db.webhookDeliveries.insertOrIgnore delivery
    (written, { db with webhookDeliveries })
  | .insertReviewPosted posted, db =>
    let (reviewsPosted, row) :=
      db.reviewsPosted.insertAuto (fun id => { posted with id }) fun _ => rfl
    (row, { db with reviewsPosted })
  | .upsertFailureCooldown cooldown, db =>
    ((), { db with
      failureCooldowns := db.failureCooldowns.upsert cooldown
        (FailureCooldown.bump cooldown.lastPostedAt)
        (FailureCooldown.bump_key cooldown.lastPostedAt) })
  | .failRunningJobs interruptedError updatedAt, db =>
    ((db.jobs.rows.filter fun job => job.status = .running).length, { db with
      jobs := db.jobs.updateWhere (fun job => job.status = .running)
        (Job.interrupted interruptedError updatedAt)
        (Job.interrupted_id interruptedError updatedAt) })
  | .deleteTerminalLocks, db =>
    ((db.prLocks.rows.filter fun lock => db.HasTerminalJob lock.jobId).length,
      { db with prLocks := db.prLocks.deleteWhere fun lock => db.HasTerminalJob lock.jobId })

end VidiPr
