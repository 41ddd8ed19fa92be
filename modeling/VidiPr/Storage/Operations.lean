import VidiPr.Requests

/-!
# Storage operations

The coroutines of `storage/*.py`, each on the session of the task that runs it. None of them
commits but `claimFailureSlot`; the caller decides where a transaction ends.
-/

namespace VidiPr

open Effect

/-! ## `storage/jobs.py` -/

def insertJob (jobType : JobType) (installationId : Nat) (repo : String) (prNumber : Nat)
    (headSha : String) (triggerKind : TriggerKind) (extraContext : Option String) : Py Job := do
  let now ← Py.utcnow
  Py.execute (.insertJob {
    -- assigned by the flush
    id := 0
    jobType, installationId, repo, prNumber, headSha, triggerKind, extraContext
    status := .pending
    statusDetail := none
    attempts := 0
    createdAt := now
    updatedAt := now
    error := none })

def updateJobStatus (jobId : Nat) (status : JobStatus) (statusDetail : Option JobStatusDetail)
    (error : Option String) : Py Unit := do
  let now ← Py.utcnow
  Py.execute (.updateJobStatus jobId status statusDetail error now)

/-! ## `storage/locks.py` -/

def acquireLock (repo : String) (prNumber jobId : Nat) : Py Bool := do
  let now ← Py.utcnow
  Py.execute (.insertPrLock { repo, prNumber, lockedAt := now, jobId })

def releaseLock (repo : String) (prNumber : Nat) : Py Unit :=
  Py.execute (.deletePrLock repo prNumber)

def fetchLock (repo : String) (prNumber : Nat) : Py (Option PrLock) :=
  Py.query (.prLock repo prNumber)

def clearStaleLocks : Py Nat :=
  Py.execute .deleteTerminalLocks

/-! ## `storage/dedup.py` -/

def recordDelivery (deliveryId : String) : Py Bool := do
  let now ← Py.utcnow
  Py.execute (.insertDelivery { deliveryId, receivedAt := now })

/-! ## `storage/reviews.py` -/

def recordReviewPosted (repo : String) (prNumber : Nat) (headSha : String)
    (reviewId durationMs chunkCount : Nat) : Py ReviewPosted := do
  let now ← Py.utcnow
  Py.execute (.insertReviewPosted {
    id := 0
    repo, prNumber, headSha, reviewId
    postedAt := now
    durationMs, chunkCount })

/-! ## `storage/failures.py` -/

def microsecondsPerSecond : Nat := 1000000

/-- From 0001-01-01, the first date there is, to the epoch the clocks count from. -/
def firstDateSeconds : Nat := 62135596800

/-- `now - timedelta(seconds=cooldown_seconds)` is a date, and not before the year 1, where the
subtraction raises. -/
def CooldownInRange (now cooldownSeconds : Nat) : Prop :=
  cooldownSeconds * microsecondsPerSecond ≤ now + firstDateSeconds * microsecondsPerSecond

/-- A cooldown of up to 1969 years reaches back to a date from any time the clock can show. -/
theorem cooldownInRange_of_le {cooldownSeconds : Nat} (h : cooldownSeconds ≤ firstDateSeconds)
    (now : Nat) : CooldownInRange now cooldownSeconds := by
  unfold CooldownInRange
  have := Nat.mul_le_mul_right microsecondsPerSecond h
  omega

-- an ordinary cooldown is decided without the clock
instance (now cooldownSeconds : Nat) : Decidable (CooldownInRange now cooldownSeconds) :=
  if h : cooldownSeconds ≤ firstDateSeconds then isTrue (cooldownInRange_of_le h now)
  else inferInstanceAs (Decidable (_ ≤ _))

/-- What Python raises for a time before the first date: an `OverflowError`. -/
def dateOutOfRange : PyError := .other "date value out of range"

/-- `last_posted_at > now - cooldown`, for a cooldown that reaches back to a date: the slot is
still taken. -/
def FailureCooldown.InForce (cooldown : FailureCooldown) (now cooldownSeconds : Nat) : Prop :=
  now < cooldown.lastPostedAt + cooldownSeconds * microsecondsPerSecond

instance (cooldown : FailureCooldown) (now cooldownSeconds : Nat) :
    Decidable (cooldown.InForce now cooldownSeconds) :=
  inferInstanceAs (Decidable (_ < _))

def claimFailureSlot (repo : String) (prNumber cooldownSeconds : Nat) : Py Bool := do
  let now ← Py.utcnow
  -- the cutoff is computed before the record is read
  if CooldownInRange now cooldownSeconds then do
    let existing ← Py.query (.failureCooldown repo prNumber)
    if existing.any fun row => row.InForce now cooldownSeconds then
      return false
    else do
      Py.execute (.upsertFailureCooldown { repo, prNumber, lastPostedAt := now })
      Py.commit
      return true
  else
    Py.throw dateOutOfRange

/-! ## `storage/recovery.py` -/

def interruptedErrorText : String := "interrupted by service restart"

def recoverOnStartup : Py Nat := do
  let now ← Py.utcnow
  let recovered ← Py.execute (.failRunningJobs interruptedErrorText now)
  let _ ← Py.execute .deleteTerminalLocks
  return recovered

end VidiPr
