import VidiPr.Service.Invariant
import VidiPr.Service.Schedule

/-!
# The queue

In every reachable state of the queue, with recovery and crashes at any time, the lock table says
exactly which pull requests have an unfinished job and which job that is; and a call of
`try_enqueue_review` that is refused was refused because of another job.

The history `statesSince` of a call is read in the state in which the call returns: it is then
the list of the stores that were committed while the call ran.
-/

namespace VidiPr

open Effect Prog Relational Text Service

section

variable [UnicodeDb] {X : External} {config : OperatorConfig} {reviewer : ReviewRoutine}

/-- Locks and unfinished jobs correspond one to one, and a refused call has met another job and
left nothing behind. -/
theorem queue_lock_iff_unfinished_job {s : Service (.queue X config reviewer)}
    (h : Reachable s) :
    (∀ key : PrKey,
      (∀ job ∈ s.world.db.committed.jobs, ∀ job' ∈ s.world.db.committed.jobs,
        job.key = key → job'.key = key → ¬ job.status.IsTerminal → ¬ job'.status.IsTerminal →
          job = job') ∧
      ((∃ lock ∈ s.world.db.committed.prLocks, lock.key = key) ↔
        ∃ job ∈ s.world.db.committed.jobs, job.key = key ∧ ¬ job.status.IsTerminal) ∧
      ∀ lock ∈ s.world.db.committed.prLocks, ∀ job ∈ s.world.db.committed.jobs,
        lock.key = key → job.key = key → ¬ job.status.IsTerminal → lock.jobId = job.id) ∧
    ∀ n call, s.calls n = some call → call.prog = .ret none →
      (∃ db ∈ s.world.db.statesSince call.since,
        ∃ job ∈ db.jobs, job.key = EnqueueArgs.key call.task ∧ ¬ job.status.IsTerminal) ∧
      .call n ∉ s.world.db.committersSince call.since ∧ ¬ s.world.db.Owns (.call n) := by
  obtain ⟨F, hinv⟩ := inv_reachable h
  refine ⟨fun key => ⟨?_, ?_, ?_⟩, ?_⟩
  · intro job hjob job' hjob' hk hk' hst hst'
    exact hinv.locks.unique hjob hjob' hst hst' (hk.trans hk'.symm)
  · exact (hinv.locks.busy_iff key).symm
  · intro lock hlock job hjob hlk hjk hst
    -- the lock's own job is unfinished too, so it is this one
    obtain ⟨other, hother, hid, hok, host⟩ := hinv.locks.lock_job lock hlock
    have hsame := hinv.locks.unique hother hjob host hst (by rw [hok, hlk, hjk])
    rw [← hid, hsame]
  · intro n call hcall hret
    have hsafe := hinv.calls n call hcall
    rw [hret] at hsafe
    obtain ⟨hidle, hrefused⟩ := Safe.ok hsafe
    obtain ⟨⟨_, hquiet⟩, db, hdb, hdbinv, hlocked⟩ := hrefused rfl
    exact ⟨⟨db, hdb, (LockInv.busy_iff hdbinv _).mpr hlocked⟩, hquiet, hidle⟩

end

/-! ## Two triggers at once -/

/-- Call `n` has returned `None`. -/
def refusedCall {X : External} {config : OperatorConfig} {reviewer : ReviewRoutine}
    (s : Service (.queue X config reviewer)) (n : Nat) : Bool :=
  match s.calls n with
  | some ⟨_, _, .ret none⟩ => true
  | _ => false

theorem refusedCall_eq_true {X : External} {config : OperatorConfig} {reviewer : ReviewRoutine}
    {s : Service (.queue X config reviewer)} {n : Nat} (h : refusedCall s n = true) :
    ∃ call, s.calls n = some call ∧ call.prog = .ret none := by
  unfold refusedCall at h
  split at h
  · rename_i task since hcall
    exact ⟨_, hcall, rfl⟩
  · cases h

attribute [local instance] asciiDb

/-- Two calls for one pull request both read the lock while it is free; the first one commits,
and the second one is refused by the insert of the lock. -/
theorem queue_second_trigger_refused :
    ∃ s : Service (.queue outage exampleConfig nothingToReview),
      ((∃ lock ∈ s.world.db.committed.prLocks, lock.key = ("o/r", 7)) ↔
        ∃ job ∈ s.world.db.committed.jobs, job.key = ("o/r", 7) ∧ ¬ job.status.IsTerminal) ∧
      ∃ call, s.calls 2 = some call ∧ call.prog = .ret none ∧
        ∃ db ∈ s.world.db.statesSince call.since,
          ∃ job ∈ db.jobs, job.key = EnqueueArgs.key call.task ∧ ¬ job.status.IsTerminal := by
  obtain ⟨s, hs, htest⟩ := exists_of_schedule outageResponder (fun _ _ => true)
    (fun _ _ _ => trivial) (0 : Nat)
    ([.spawn 1 exampleTrigger, .spawn 2 exampleTrigger, .call 1 false, .call 2 false] ++
      List.replicate 6 (.call 1 false) ++ List.replicate 6 (.call 2 false))
    (fun (s : Service (.queue outage exampleConfig nothingToReview)) => refusedCall s 2)
    (by decide +kernel)
  have hmain := queue_lock_iff_unfinished_job hs
  obtain ⟨call, hcall, hret⟩ := refusedCall_eq_true htest
  exact ⟨s, (hmain.1 ("o/r", 7)).2.1, call, hcall, hret, (hmain.2 2 call hcall hret).1⟩

end VidiPr
