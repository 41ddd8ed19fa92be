import VidiPr.Service.Invariant
import VidiPr.Service.Schedule

/-!
# Restarts

`_serve` starts the worker on the store as it finds it; `recover_on_startup` exists and is tested,
and nothing calls it. A process that dies between the commit of a claim and the commit of its
outcome therefore leaves a job that stays `RUNNING` and a pull request that stays locked
(`restart_leaves_job_running`). As long as no process dies there, a service that is between two
jobs has no running job, and every lock belongs to a job that is still to be done
(`restart_safe`).
-/

namespace VidiPr

open Effect Prog Relational Text Service

section

variable [UnicodeDb] {X : External} {W : Workload} {config : OperatorConfig}
  {reviewer : ReviewRoutine}

/-- In a run in which no process dies while its worker holds a job, a live worker that holds no
job sees a consistent queue. -/
theorem restart_safe {s : Service (.serve X W config reviewer)}
    (h : ReachableIf (fun s ev => ev = .crash → ¬ s.Holding) s) (_hlive : s.worker.Live)
    (hidle : ¬ s.Holding) :
    (∀ job ∈ s.world.db.committed.jobs, job.status ≠ .running) ∧
    ∀ lock ∈ s.world.db.committed.prLocks,
      ∃ job ∈ s.world.db.committed.jobs, job.id = lock.jobId ∧ job.status = .pending := by
  have hinv := inv_reachableIf (fun _ _ hP => hP) h
  obtain ⟨F, hsub, hrun⟩ := hinv.running hidle
  have hnone : ∀ job ∈ s.world.db.committed.jobs, job.status ≠ .running := by
    intro job hjob hst
    exact hsub job.id ((hrun job.id).mp ⟨job, hjob, rfl, hst⟩)
  refine ⟨hnone, fun lock hlock => ?_⟩
  -- the job of a lock is unfinished, and it is not running
  obtain ⟨job, hjob, hid, _, hst⟩ := hinv.locks.lock_job lock hlock
  rcases JobStatus.not_isTerminal_iff.mp hst with hpending | hrunning
  · exact ⟨job, hjob, hid, hpending⟩
  · exact absurd hrunning (hnone job hjob)

end

attribute [local instance] asciiDb

/-- A run of the service in which a job is enqueued, claimed and processed, the process is
restarted, and the same pull request is enqueued again. -/
theorem restart_safe_after_job :
    ∃ s : Service (.serve outage enqueueWorkload exampleConfig nothingToReview),
      (s.started = [1] ∧ ∃ job ∈ s.world.db.committed.jobs, job.id = 2) ∧
      (∀ job ∈ s.world.db.committed.jobs, job.status ≠ .running) ∧
      ∀ lock ∈ s.world.db.committed.prLocks,
        ∃ job ∈ s.world.db.committed.jobs, job.id = lock.jobId ∧ job.status = .pending := by
  obtain ⟨s, hs, htest⟩ := exists_of_schedule outageResponder
    (fun s ev => match ev with
      | .crash => !decide s.Holding
      | _ => true) (P := fun s ev => ev = .crash → ¬ s.Holding)
    (fun s ev hok heq => by simpa [heq] using hok) (0 : Nat)
    ([.start, .spawn 1 exampleTrigger] ++ List.replicate 6 (.call 1 false) ++
      List.replicate 14 (.worker false) ++ [.crash, .start, .spawn 2 exampleTrigger] ++
      List.replicate 6 (.call 2 false))
    (fun (s : Service (.serve outage enqueueWorkload exampleConfig nothingToReview)) =>
      decide (s.worker.Live ∧ ¬ s.Holding ∧ s.started = [1] ∧
        ∃ job ∈ s.world.db.committed.jobs, job.id = 2)) (by decide +kernel)
  obtain ⟨hlive, hidle, hruns⟩ := of_decide_eq_true htest
  exact ⟨s, hruns, restart_safe hs hlive hidle⟩

/-- A job is enqueued and claimed, and the process dies; the next one finds the job running and
its pull request locked, and no worker will touch either. -/
theorem restart_leaves_job_running :
    ∃ s : Service (.serve outage enqueueWorkload exampleConfig nothingToReview),
      Reachable s ∧ s.worker.Live ∧ ¬ s.Holding ∧
      (∃ job ∈ s.world.db.committed.jobs, job.status = .running) ∧
      ∃ lock ∈ s.world.db.committed.prLocks, ∀ job ∈ s.world.db.committed.jobs,
        job.id = lock.jobId → job.status ≠ .pending := by
  obtain ⟨s, hs, htest⟩ := exists_of_schedule outageResponder (fun _ _ => true)
    (fun _ _ _ => trivial) (0 : Nat)
    ([.start, .spawn 1 exampleTrigger] ++ List.replicate 6 (.call 1 false) ++
      -- the commit of the claim is the worker's fifth step
      List.replicate 5 (.worker false) ++ [.crash, .start])
    (fun (s : Service (.serve outage enqueueWorkload exampleConfig nothingToReview)) =>
      decide (s.worker.Live ∧ ¬ s.Holding ∧
        (∃ job ∈ s.world.db.committed.jobs, job.status = .running) ∧
        ∃ lock ∈ s.world.db.committed.prLocks, ∀ job ∈ s.world.db.committed.jobs,
          job.id = lock.jobId → job.status ≠ .pending)) (by decide +kernel)
  exact ⟨s, hs, of_decide_eq_true htest⟩

end VidiPr
