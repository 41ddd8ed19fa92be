import VidiPr.Lib.Progress
import VidiPr.Service.Alone

/-!
# Graceful shutdown

When the server has stopped, `_serve` calls `worker.stop()` and awaits the task of the worker. The
loop looks at the stop event between two jobs only, so the task finishes what it holds first.

* **`Winds`** — how the loop goes on once the event is set. It is well founded: what is left of a
  coroutine gets smaller, and the loop does not claim again.
* **`shutdown_ends`** — the task comes to its end, having taken one more job at most, and leaves no
  job running and no lock behind it.
-/

namespace VidiPr

open Effect Prog Text Service

namespace Service

section Phases

variable [UnicodeDb] {D : Deployment}

/-- The phase after a move of the worker's task (first) and before it, where the stop event is
set. -/
inductive Winds (D : Deployment) : WorkerPhase → WorkerPhase → Prop where
  | claimStep {e : Req} {k : Except PyError e.Resp → Py (Option Job)} (r : Except PyError e.Resp) :
      Winds D (.claiming (k r)) (.claiming (.call e k))
  | claimedNone : Winds D .waiting (.claiming (.ret none))
  | claimedSome (job : Job) : Winds D
      (.processing job (Worker.process D.config D.reviewer.run job)) (.claiming (.ret (some job)))
  | claimRaised (x : PyError) (holding : Bool) : Winds D (.dead x holding) (.claiming (.raise x))
  | processStep {job : Job} {e : Req} {k : Except PyError e.Resp → Py Unit}
      (r : Except PyError e.Resp) : Winds D (.processing job (k r)) (.processing job (.call e k))
  | processed (job : Job) : Winds D .idle (.processing job (.ret ()))
  | processRaised (job : Job) (x : PyError) (holding : Bool) :
      Winds D (.dead x holding) (.processing job (.raise x))
  | wake : Winds D .idle .waiting
  | leave : Winds D .stopped .idle

theorem acc_dead (x : PyError) (holding : Bool) : Acc (Winds D) (.dead x holding) :=
  .intro _ fun _ h => by cases h

theorem acc_stopped : Acc (Winds D) .stopped := .intro _ fun _ h => by cases h

theorem acc_idle : Acc (Winds D) .idle := by
  refine .intro _ fun phase h => ?_
  cases h with
  | leave => exact acc_stopped

theorem acc_waiting : Acc (Winds D) .waiting := by
  refine .intro _ fun phase h => ?_
  cases h with
  | wake => exact acc_idle

theorem acc_processing (job : Job) (p : Py Unit) : Acc (Winds D) (.processing job p) := by
  induction p with
  | ret u =>
    refine .intro _ fun phase h => ?_
    cases h with
    | processed => exact acc_idle
  | raise x =>
    refine .intro _ fun phase h => ?_
    cases h with
    | processRaised _ _ holding => exact acc_dead x holding
  | call e k ih =>
    refine .intro _ fun phase h => ?_
    cases h with
    | processStep r => exact ih r

theorem acc_claiming (p : Py (Option Job)) : Acc (Winds D) (.claiming p) := by
  induction p with
  | ret result =>
    refine .intro _ fun phase h => ?_
    cases h with
    | claimedNone => exact acc_waiting
    | claimedSome job => exact acc_processing job _
  | raise x =>
    refine .intro _ fun phase h => ?_
    cases h with
    | claimRaised _ holding => exact acc_dead x holding
  | call e k ih =>
    refine .intro _ fun phase h => ?_
    cases h with
    | claimStep r => exact ih r

theorem acc_of_live {phase : WorkerPhase} (h : phase.Live) : Acc (Winds D) phase := by
  cases phase with
  | idle => exact acc_idle
  | waiting => exact acc_waiting
  | claiming p => exact acc_claiming p
  | processing job p => exact acc_processing job p
  | _ => exact h.elim

/-- How many jobs the loop can still take once the stop event is set. -/
def mayTake : WorkerPhase → Nat
  | .claiming _ => 1
  | _ => 0

end Phases

/-! ## The step lemma -/

section Steps

variable [UnicodeDb] {D : Deployment} {s s' : Service D} {ev : Event D}

/-- The stop event is set, and the loop is running or has ended. -/
structure Stopping (s : Service D) : Prop where
  stop : s.stop = true
  phase : s.worker.Live ∨ s.worker = .stopped ∨ ∃ x holding, s.worker = .dead x holding

omit [UnicodeDb] in
theorem Stopping.same (h : Stopping s) (hstop : s'.stop = true) (hphase : s'.worker = s.worker) :
    Stopping s' :=
  ⟨hstop, by rw [hphase]; exact h.phase⟩

/-- A step of a stopping process is a move of the loop towards its end, or it leaves the loop
alone. -/
theorem stopping_step (h : Stopping s) (hs : Step s ev s') (hcrash : ev ≠ .crash) :
    Stopping s' ∧
    ((¬ ev.IsWorker ∧ s'.worker = s.worker ∧ s'.started = s.started) ∨
      (Winds D s'.worker s.worker ∧
        s'.started.length + mayTake s'.worker ≤ s.started.length + mayTake s.worker)) := by
  have hset := h.stop
  have hphases := h.phase
  cases hs with
  | external | spawn | call => exact ⟨h.same hset rfl, Or.inl ⟨id, rfl, rfl⟩⟩
  | requestStop => exact ⟨h.same rfl rfl, Or.inl ⟨id, rfl, rfl⟩⟩
  | crash => exact absurd rfl hcrash
  | claim hphase hunset =>
    rw [hset] at hunset
    cases hunset
  | start hphase | recover hphase | recoverStep hphase | recovered hphase =>
    -- there is no worker in these phases
    rw [hphase] at hphases
    rcases hphases with hlive | hstopped | ⟨x, holding, hdead⟩
    · exact hlive.elim
    · cases hstopped
    · cases hdead
  | leave hphase =>
    rw [hphase]
    exact ⟨⟨hset, Or.inr (Or.inl rfl)⟩, Or.inr ⟨.leave, Nat.le_refl _⟩⟩
  | wake hphase =>
    rw [hphase]
    exact ⟨⟨hset, Or.inl trivial⟩, Or.inr ⟨.wake, Nat.le_refl _⟩⟩
  | claimedNone hphase =>
    rw [hphase]
    exact ⟨⟨hset, Or.inl trivial⟩, Or.inr ⟨.claimedNone, Nat.le_succ _⟩⟩
  | claimStep hphase =>
    rw [hphase]
    exact ⟨⟨hset, Or.inl trivial⟩, Or.inr ⟨.claimStep _, Nat.le_refl _⟩⟩
  | claimedSome hphase =>
    rw [hphase]
    exact ⟨⟨hset, Or.inl trivial⟩, Or.inr ⟨.claimedSome _, Nat.le_refl _⟩⟩
  | claimRaised hphase =>
    rw [hphase]
    exact ⟨⟨hset, Or.inr (Or.inr ⟨_, _, rfl⟩)⟩, Or.inr ⟨.claimRaised _ _, Nat.le_succ _⟩⟩
  | processStep hphase =>
    rw [hphase]
    exact ⟨⟨hset, Or.inl trivial⟩, Or.inr ⟨.processStep _, Nat.le_refl _⟩⟩
  | processed hphase =>
    rw [hphase]
    exact ⟨⟨hset, Or.inl trivial⟩, Or.inr ⟨.processed _, Nat.le_refl _⟩⟩
  | processRaised hphase =>
    rw [hphase]
    exact ⟨⟨hset, Or.inr (Or.inr ⟨_, _, rfl⟩)⟩, Or.inr ⟨.processRaised _ _ _, Nat.le_refl _⟩⟩

end Steps

/-! ## The runs of a process that stops -/

/-- An undisturbed run of one process from `s` in which the worker's task is scheduled again and
again until it has ended. -/
structure StopRun [UnicodeDb] {D : Deployment} (s : Service D) (run : Nat → Service D)
    (ev : Nat → Event D) : Prop where
  start : run 0 = s
  step : ∀ i, Step (run i) (ev i) (run (i + 1))
  undisturbed : ∀ i, Undisturbed (run i) (ev i)
  noCrash : ∀ i, ev i ≠ .crash
  fair : ∀ i, (run i).worker.Live → ∃ j, i ≤ j ∧ (ev j).IsWorker

namespace StopRun

variable [UnicodeDb] {D : Deployment} {s : Service D} {run : Nat → Service D} {ev : Nat → Event D}

theorem reachable (hr : StopRun s run ev) (h : ReachableIf Undisturbed s) (i : Nat) :
    ReachableIf Undisturbed (run i) := by
  induction i with
  | zero => exact hr.start ▸ h
  | succ i ih => exact ih.step (hr.step i) (hr.undisturbed i)

/-- The run lemma: the event stays set, and what the worker has taken since, together with what it
may still take, does not grow. -/
theorem stopping (hr : StopRun s run ev) (h : Stopping s) (i : Nat) :
    Stopping (run i) ∧
    (run i).started.length + mayTake (run i).worker ≤ s.started.length + mayTake s.worker := by
  induction i with
  | zero =>
    rw [hr.start]
    exact ⟨h, Nat.le_refl _⟩
  | succ i ih =>
    obtain ⟨hstopping, hbound⟩ := ih
    obtain ⟨hnext, ⟨-, hsame, hstarted⟩ | ⟨-, htaken⟩⟩ :=
      stopping_step hstopping (hr.step i) (hr.noCrash i)
    · rw [hsame, hstarted]
      exact ⟨hnext, hbound⟩
    · exact ⟨hnext, by omega⟩

/-- The loop is left for good: it goes on as long as it is alive, each of its phases is finite, and
with the event set it cannot come back to its top for another round. -/
theorem ends (hr : StopRun s run ev) (h : Stopping s) (hlive : s.worker.Live) :
    ∃ n, ∀ i, n ≤ i → ¬ (run i).worker.Live := by
  have hstep : ∀ i, (run (i + 1)).worker = (run i).worker ∨
      Winds D (run (i + 1)).worker (run i).worker := by
    intro i
    obtain ⟨-, ⟨-, hsame, -⟩ | ⟨hwinds, -⟩⟩ :=
      stopping_step (hr.stopping h i).1 (hr.step i) (hr.noCrash i)
    · exact Or.inl hsame
    · exact Or.inr hwinds
  have hacc : Acc (Winds D) (run 0).worker := by
    rw [hr.start]
    exact acc_of_live hlive
  refine exists_done (fun s : Service D => s.worker) (fun phase => ¬ phase.Live) hstep hacc
    fun i hnot => ?_
  obtain ⟨j, hij, hmove⟩ := hr.fair i (not_not.mp hnot)
  obtain ⟨-, ⟨hidle, -, -⟩ | ⟨hwinds, -⟩⟩ :=
    stopping_step (hr.stopping h j).1 (hr.step j) (hr.noCrash j)
  · exact absurd hmove hidle
  · exact ⟨j, hij, hwinds⟩

end StopRun

end Service

/-- **Graceful shutdown.** After `stop()` the worker's task ends by leaving its loop, in every
undisturbed run of the process in which it is scheduled again and again. Up to then it takes no job,
or the one it was just claiming; and when it has ended no job is running, every job that was ever
taken is finished, and the locks that are left are those of pending jobs. -/
theorem shutdown_ends [UnicodeDb] {D : Deployment} {s : Service D} {run : Nat → Service D}
    {ev : Nat → Event D} (h : ReachableIf Undisturbed s) (hstop : s.stop = true)
    (hlive : s.worker.Live) (hr : StopRun s run ev) :
    (∀ i, (run i).started.length ≤ s.started.length + mayTake s.worker) ∧
    ∃ n, ∀ i, n ≤ i → (run i).worker = .stopped ∧
      (∀ job ∈ (run i).world.db.committed.jobs, job.status ≠ .running) ∧
      (∀ id ∈ (run i).started, ∃ job ∈ (run i).world.db.committed.jobs,
        job.id = id ∧ job.status.IsTerminal) ∧
      ∀ lock ∈ (run i).world.db.committed.prLocks,
        ∃ job ∈ (run i).world.db.committed.jobs, job.id = lock.jobId ∧ job.status = .pending := by
  have hstopping : Stopping s := ⟨hstop, Or.inl hlive⟩
  refine ⟨fun i => ?_, ?_⟩
  · -- it takes no job but the one it was claiming
    have hbound := (hr.stopping hstopping i).2
    omega
  obtain ⟨n, hended⟩ := hr.ends hstopping hlive
  refine ⟨n, fun i hi => ?_⟩
  have hreach := hr.reachable h i
  -- it has ended, and not by an exception
  have hphase : (run i).worker = .stopped := by
    rcases (hr.stopping hstopping i).1.phase with hlive' | hstopped | ⟨x, holding, hdead⟩
    · exact absurd hlive' (hended i hi)
    · exact hstopped
    · exact absurd hdead (not_dead hreach x holding)
  have hfree : ¬ (run i).Holding := by
    unfold Service.Holding
    rw [hphase]
    exact id
  have hinv := inv_undisturbed hreach
  obtain ⟨F, hsub, hrun⟩ := hinv.running hfree
  -- no job is held, so none is running
  have hnone : ∀ job ∈ (run i).world.db.committed.jobs, job.status ≠ .running :=
    fun job hjob hst => hsub job.id ((hrun job.id).mp ⟨job, hjob, rfl, hst⟩)
  refine ⟨hphase, hnone, fun id hid => (started_finished hreach hfree hid).1, fun lock hlock => ?_⟩
  -- a lock is of an unfinished job, which can only be pending
  obtain ⟨job, hjob, hid, -, hst⟩ := hinv.locks.lock_job lock hlock
  rcases JobStatus.not_isTerminal_iff.mp hst with hpending | hrunning
  · exact ⟨job, hjob, hid, hpending⟩
  · exact absurd hrunning (hnone job hjob)

namespace Service

section Alone

variable [UnicodeDb] {D : Deployment} {answers : Responder D.external} {s : Service D}

/-- The run of the worker alone, once `stop()` was called, is one of a process that stops. -/
theorem stopRun_alone (h : Ready s) (hstop : s.stop = true) :
    StopRun s (alone answers s) (aloneEvent answers s) := by
  have hready := h.alone answers
  constructor
  · rfl
  · intro i
    by_cases hlive : (alone answers s i).worker.Live
    · -- while it is alive the worker takes a turn
      exact ((hready i).1.turn hlive).step
    · -- the state stands still, and `stop()` is called once more
      obtain ⟨hev, hsame⟩ := alone_ended hlive
      have hset : { alone answers s i with stop := true } = alone answers s i := by
        rw [← hstop, ← (hready i).2]
      rw [hev, hsame]
      exact hset ▸ (Step.requestStop : Step (alone answers s i) .requestStop _)
  · intro i
    by_cases hlive : (alone answers s i).worker.Live
    · exact ((hready i).1.turn hlive).quiet
    · rw [(alone_ended hlive).1]
      trivial
  · intro i heq
    by_cases hlive : (alone answers s i).worker.Live
    · have hmoved := ((hready i).1.turn hlive).worker
      rw [heq] at hmoved
      exact hmoved
    · rw [(alone_ended hlive).1] at heq
      cases heq
  · exact fun i hlive => ⟨i, Nat.le_refl i, ((hready i).1.turn hlive).worker⟩

end Alone

end Service

section Example

attribute [local instance] asciiDb

/-- The service is stopped while the worker is claiming a job, and goes on alone. It still takes the
job, and ends with the job finished. -/
theorem shutdown_ends_outage :
    ∃ s : Service (.serve outage enqueueWorkload exampleConfig nothingToReview),
      s.stop = true ∧ s.started = [] ∧ mayTake s.worker = 1 ∧
      (alone outageResponder s 6).started = [1] ∧ (alone outageResponder s 6).Holding ∧
      ∃ n, 6 ≤ n ∧ (alone outageResponder s n).worker = .stopped ∧
        (∀ id ∈ (alone outageResponder s n).started,
          ∃ job ∈ (alone outageResponder s n).world.db.committed.jobs,
            job.id = id ∧ job.status.IsTerminal) ∧
        (alone outageResponder s n).started.length ≤ 1 := by
  obtain ⟨s, hs, htest⟩ := exists_of_schedule outageResponder undisturbed (P := Undisturbed)
    (fun _ _ => undisturbed_sound) (0 : Nat)
    ([.start, .spawn 1 exampleTrigger] ++ List.replicate 6 (.call 1 false) ++
      List.replicate 3 (.worker false) ++ [.stop])
    (fun (s : Service (.serve outage enqueueWorkload exampleConfig nothingToReview)) =>
      decide (s.started = [] ∧ s.stop = true ∧ s.worker.Live ∧ mayTake s.worker = 1 ∧
        s.world.db.tx.isNone ∧ (alone outageResponder s 6).started = [1] ∧
        (alone outageResponder s 6).Holding)) (by decide +kernel)
  obtain ⟨hstarted, hstop, hlive, hone, htx, htaken, hholds⟩ := of_decide_eq_true htest
  have hready : Ready s := ⟨hs, fun owner work hopen => by rw [hopen] at htx; cases htx⟩
  -- from there the run of the worker alone is one to which the theorem applies
  obtain ⟨hbound, n, hended⟩ := shutdown_ends hs hstop hlive
    (stopRun_alone hready hstop : StopRun s (alone outageResponder s) _)
  obtain ⟨hstopped, -, hfinished, -⟩ := hended (max 6 n) (Nat.le_max_right _ _)
  have hatMost := hbound (max 6 n)
  rw [hstarted, hone] at hatMost
  exact ⟨s, hstop, hstarted, hone, htaken, hholds, max 6 n, Nat.le_max_left _ _, hstopped,
    hfinished, hatMost⟩

end Example

end VidiPr
