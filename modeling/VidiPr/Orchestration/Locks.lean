import VidiPr.Storage.Operations

/-!
# Enqueueing a review

`orchestration/locks.py`. The lock is read first, outside any transaction; the job row and the
lock row are then written in one transaction, which is rolled back when another job got the lock
in between.
-/

namespace VidiPr

open Effect

/-- The arguments of `try_enqueue_review`. -/
structure EnqueueArgs where
  installationId : Nat
  repo : String
  prNumber : Nat
  headSha : String
  triggerKind : TriggerKind
  extraContext : Option String := none

/-- The pull request the review is for. -/
def EnqueueArgs.key (args : EnqueueArgs) : PrKey := (args.repo, args.prNumber)

def tryEnqueueReview (args : EnqueueArgs) : Py (Option Job) := do
  let existing ← fetchLock args.repo args.prNumber
  match existing with
  | some _ => return none
  | none => do
    let job ← insertJob .review args.installationId args.repo args.prNumber args.headSha
      args.triggerKind args.extraContext
    let acquired ← acquireLock args.repo args.prNumber job.id
    if acquired then do
      Py.commit
      return some job
    else do
      Py.rollback
      return none

end VidiPr
