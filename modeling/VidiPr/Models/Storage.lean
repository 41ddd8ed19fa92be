import VidiPr.Lib.Table

/-!
# The stored records

The five tables of `models/storage.py` as the initial migration creates them. Naive UTC
timestamps are microsecond counts. A row that has not been flushed yet has no id; its `id` field
is overwritten by the insert.
-/

namespace VidiPr

open Relational

inductive JobStatus where
  | pending
  | running
  | done
  | failed
deriving DecidableEq, Repr

/-- `TERMINAL_JOB_STATUSES`. -/
def terminalJobStatuses : List JobStatus := [.done, .failed]

/-- A job nobody will touch again. -/
def JobStatus.IsTerminal (status : JobStatus) : Prop := status ∈ terminalJobStatuses

instance (status : JobStatus) : Decidable status.IsTerminal :=
  inferInstanceAs (Decidable (status ∈ terminalJobStatuses))

@[simp] theorem JobStatus.isTerminal_iff {status : JobStatus} :
    status.IsTerminal ↔ status = .done ∨ status = .failed := by
  simp [JobStatus.IsTerminal, terminalJobStatuses]

theorem JobStatus.not_isTerminal_iff {status : JobStatus} :
    ¬ status.IsTerminal ↔ status = .pending ∨ status = .running := by
  cases status <;> simp

inductive JobType where
  | review
deriving DecidableEq, Repr

inductive TriggerKind where
  | auto
  | comment
deriving DecidableEq, Repr

inductive JobStatusDetail where
  | interruptedByRestart
  | timeout
  | noReviewableFiles
  | draftedAfterEvent
  | prClosed
  | parseFailed
  | llmFailure
  | githubFailure
deriving DecidableEq, Repr

/-- The member's value, which is also how a `StrEnum` formats. -/
def JobStatusDetail.value : JobStatusDetail → String
  | .interruptedByRestart => "interrupted_by_restart"
  | .timeout => "timeout"
  | .noReviewableFiles => "no_reviewable_files"
  | .draftedAfterEvent => "drafted_after_event"
  | .prClosed => "pr_closed"
  | .parseFailed => "parse_failed"
  | .llmFailure => "llm_failure"
  | .githubFailure => "github_failure"

/-- A pull request: repository full name and number. -/
abbrev PrKey : Type := String × Nat

structure Job where
  id : Nat
  jobType : JobType
  installationId : Nat
  repo : String
  prNumber : Nat
  headSha : String
  triggerKind : TriggerKind
  extraContext : Option String
  status : JobStatus
  statusDetail : Option JobStatusDetail
  attempts : Nat
  createdAt : Nat
  updatedAt : Nat
  error : Option String
deriving DecidableEq, Repr

/-- The pull request a job reviews. -/
def Job.key (job : Job) : PrKey := (job.repo, job.prNumber)

structure PrLock where
  repo : String
  prNumber : Nat
  lockedAt : Nat
  jobId : Nat
deriving DecidableEq, Repr

def PrLock.key (lock : PrLock) : PrKey := (lock.repo, lock.prNumber)

structure ReviewPosted where
  id : Nat
  repo : String
  prNumber : Nat
  headSha : String
  reviewId : Nat
  postedAt : Nat
  durationMs : Nat
  chunkCount : Nat
deriving DecidableEq, Repr

structure WebhookDelivery where
  deliveryId : String
  receivedAt : Nat
deriving DecidableEq, Repr

structure FailureCooldown where
  repo : String
  prNumber : Nat
  lastPostedAt : Nat
deriving DecidableEq, Repr

def FailureCooldown.key (cooldown : FailureCooldown) : PrKey := (cooldown.repo, cooldown.prNumber)

/-- The contents of the database. -/
structure Db where
  jobs : Table Nat Job Job.id
  prLocks : Table PrKey PrLock PrLock.key
  reviewsPosted : Table Nat ReviewPosted ReviewPosted.id
  webhookDeliveries : Table String WebhookDelivery WebhookDelivery.deliveryId
  failureCooldowns : Table PrKey FailureCooldown FailureCooldown.key

/-- The database as `alembic upgrade head` creates it. -/
def Db.empty : Db := ⟨.empty, .empty, .empty, .empty, .empty⟩

end VidiPr
