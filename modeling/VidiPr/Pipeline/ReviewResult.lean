import VidiPr.Models.Storage

/-!
# The result of a review run

What `Reviewer.run` hands to the worker (`pipeline/reviewer.py`). Durations are nanoseconds.
-/

namespace VidiPr

structure ReviewResult where
  status : JobStatus
  statusDetail : Option JobStatusDetail := none
  reviewId : Option Nat := none
  durationNanos : Nat := 0
  chunkCount : Nat := 0
  promptTokens : Int := 0
  completionTokens : Int := 0
  error : Option String := none
  failureMessage : Option String := none
deriving DecidableEq, Repr

/-- `int(duration_seconds * 1000)`, of the exact duration. The source's is a float, so that its
milliseconds may be one less. -/
def ReviewResult.durationMs (result : ReviewResult) : Nat := result.durationNanos / 1000000

end VidiPr
