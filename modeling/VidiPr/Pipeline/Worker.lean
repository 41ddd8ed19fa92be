import VidiPr.Config.Operator
import VidiPr.Pipeline.ReviewResult
import VidiPr.Storage.Operations
import VidiPr.Transport.GitHubClient

/-!
# The worker

`pipeline/worker.py` and `pipeline/failure.py`: the two halves of one turn of the worker's loop,
claiming the oldest pending job and processing it. The reviewer is the one the worker was built
with. The loop itself is part of the service (`Service/System.lean`).
-/

namespace VidiPr

open Effect Text

variable [UnicodeDb]

/-! ## The failure comment -/

/-- `maybe_post_failure_comment`: the slot is claimed and committed first; a failure of the post
itself is swallowed. -/
def maybePostFailureComment (installationId : Nat) (repo : String) (prNumber : Nat)
    (message : String) (cooldownSeconds : Nat) : Py Bool := do
  let allowed ← Py.withSession (claimFailureSlot repo prNumber cooldownSeconds)
  if allowed then
    (GitHubClient.createComment installationId repo prNumber message).andThen fun
      | .ok _ => return true
      | .error .cancelled => Py.throw .cancelled
      | .error _ => return false
  else return false

/-! ## One turn of the loop -/

namespace Worker

/-- `_claim_one`: the first of the pending jobs is marked as running, and committed so, before it is
returned as the store then has it. -/
def claimOne : Py (Option Job) :=
  Py.withSession do
    let pending ← Py.query .oldestPendingJob
    match pending with
    | none => return none
    | some job => do
      updateJobStatus job.id .running none none
      Py.commit
      let row ← Py.query (.job job.id)
      match row with
      | some refreshed => return some refreshed
      | none => Py.throw (.other "could not refresh instance")

variable (config : OperatorConfig)

/-- The row of `_persist` for a review that was posted. -/
def recordReview (job : Job) (result : ReviewResult) : Py Unit :=
  match result.reviewId with
  | some reviewId => do
    let _ ← recordReviewPosted job.repo job.prNumber job.headSha reviewId result.durationMs
      result.chunkCount
  | none => return ()

/-- The transaction of `_persist`: the outcome, the posted review if there is one, the lock. -/
def persistOutcome (job : Job) (result : ReviewResult) : Py Unit :=
  Py.withSession do
    updateJobStatus job.id result.status result.statusDetail result.error
    recordReview job result
    releaseLock job.repo job.prNumber
    Py.commit

/-- `_persist`: the outcome is committed before the comment is tried. A comment is posted for a
failed result only, and only if that brings a message. -/
def persist (job : Job) (result : ReviewResult) : Py Unit := do
  persistOutcome job result
  match result.status, result.failureMessage with
  | .failed, some failureMessage => do
    let _ ← maybePostFailureComment job.installationId job.repo job.prNumber failureMessage
      config.pipeline.failureCommentCooldownSeconds
  | _, _ => return ()

/-- The transaction of `_finalize_failure`. -/
def finalizeOutcome (job : Job) (statusDetail : JobStatusDetail) (error : String) : Py Unit :=
  Py.withSession do
    updateJobStatus job.id .failed (some statusDetail) (some error)
    releaseLock job.repo job.prNumber
    Py.commit

/-- `_finalize_failure`: the job is recorded as failed and its lock released in one transaction, and
then a comment is tried, on the same slot as that of `_persist`. -/
def finalizeFailure (job : Job) (statusDetail : JobStatusDetail) (error failureMessage : String) :
    Py Unit := do
  finalizeOutcome job statusDetail error
  let _ ← maybePostFailureComment job.installationId job.repo job.prNumber failureMessage
    config.pipeline.failureCommentCooldownSeconds

/-- What `_process` does with the outcome of the review. -/
def settle (job : Job) : Except PyError ReviewResult → Py Unit
  | .ok result => persist config job result
  | .error .timeoutError =>
    finalizeFailure config job .timeout "job timed out"
      "vidi-pr could not complete the review: job timed out"
  | .error .cancelled => Py.throw .cancelled
  | .error exc =>
    finalizeFailure config job .llmFailure exc.str
      ("vidi-pr could not complete the review: " ++ exc.str)

/-- `_process`, for the reviewer `review`. -/
def process (review : Job → Py ReviewResult) (job : Job) : Py Unit :=
  (Py.waitFor (review job)).andThen (settle config job)

end Worker

end VidiPr
