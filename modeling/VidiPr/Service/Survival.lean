import VidiPr.Service.Invariant
import VidiPr.Service.Schedule

/-!
# The worker's loop

`run_forever` has no `except` clause, and `_serve` awaits the worker's task only when the server has
stopped. What a review raises is caught by `_process`, and what posting a comment raises is caught
by `maybe_post_failure_comment`. Nobody catches what the slot of a failure comment raises before
that: a statement of the worker that fails, or a cooldown that reaches back before the first date.
Then the task is gone (`worker_killed_by_commit`, `worker_killed_by_cooldown`).

`worker_survives` says what holds of every run in which neither happens:

* the task never dies, and between two jobs every job it has taken is finished and unlocked;
* in every fair continuation without a stop the loop calls `_claim_one` again and again, and a
  call made while a job is pending ends with a job being handed to `_process`.
-/

namespace VidiPr

open Effect Prog Relational Text Service

namespace Service

variable {D : Deployment}

/-- No statement of the worker fails, no process dies while its worker holds a job, and a worker is
started only with a cooldown that its clock covers. -/
def Undisturbed (s : Service D) : Event D → Prop
  | .worker (.sql _) (.error _) => False
  | .crash => ¬ s.Holding
  | .start => D.external.Covers D.cooldownSeconds
  | _ => True

/-- A test that allows no other steps. -/
def undisturbed (s : Service D) : Event D → Bool
  | .worker (.sql _) (.error _) => false
  | .crash => !decide s.Holding
  | .start => decide (D.cooldownSeconds ≤ firstDateSeconds)
  | _ => true

theorem undisturbed_sound {s : Service D} {ev : Event D} (h : undisturbed s ev = true) :
    Undisturbed s ev := by
  unfold undisturbed at h
  unfold Undisturbed
  split at h
  · cases h
  · simpa using h
  · exact External.covers_of_le (of_decide_eq_true h)
  · trivial

/-- A worker was started in this process. -/
def WorkerStarted : WorkerPhase → Prop
  | .down | .recovering _ => False
  | _ => True

/-- The worker's task moved. -/
def Event.IsWorker : Event D → Prop
  | .worker _ _ | .control => True
  | _ => False

/-- The phase after a move of the worker's task, with what it records: one line for each way the
loop goes on. -/
def Turn [UnicodeDb] (s s' : Service D) : Prop :=
  match s.worker with
  | .idle => (s.stop = true ∧ s'.worker = .stopped) ∨
      (s.stop = false ∧ s'.worker = .claiming Worker.claimOne ∧ s'.started = s.started ∧
        s'.log.queued = !s.world.db.committed.pendingJobs.isEmpty)
  | .waiting => s'.worker = .idle
  | .claiming (.call _ k) => ∃ r, s'.worker = .claiming (k r) ∧ s'.started = s.started ∧
      s'.log.queued = s.log.queued
  | .claiming (.ret none) => s'.worker = .waiting
  | .claiming (.ret (some job)) => s'.started = job.id :: s.started ∧
      s'.worker = .processing job (Worker.process D.config D.reviewer.run job)
  | .claiming (.raise x) => ∃ holding, s'.worker = .dead x holding
  | .processing job (.call _ k) => ∃ r, s'.worker = .processing job (k r)
  | .processing _ (.ret ()) => s'.worker = .idle
  | .processing _ (.raise x) => ∃ holding, s'.worker = .dead x holding
  | _ => True

/-- What moves of anyone else leave alone: where the worker is, what it has taken, and what the
queue was when it last looked. -/
structure SameLoop (s s' : Service D) : Prop where
  worker : s'.worker = s.worker
  started : s'.started = s.started
  queued : s'.log.queued = s.log.queued

theorem SameLoop.refl (s : Service D) : SameLoop s s := ⟨rfl, rfl, rfl⟩

theorem SameLoop.trans {s s' s'' : Service D} (h : SameLoop s s') (h' : SameLoop s' s'') :
    SameLoop s s'' :=
  ⟨h'.worker.trans h.worker, h'.started.trans h.started, h'.queued.trans h.queued⟩

theorem record_queued {log : WorkerLog} {e : Req} {r : Except PyError e.Resp} :
    (log.record e r).queued = log.queued := by
  unfold WorkerLog.record
  split <;> rfl

theorem record_not_faulted {log : WorkerLog} {e : Req} {r : Except PyError e.Resp}
    (h : log.faulted = false) (hok : ∀ q, e = .sql q → ∃ v, r = .ok v) :
    (log.record e r).faulted = false := by
  unfold WorkerLog.record
  split
  · exact h
  · rename_i q x
    obtain ⟨v, hv⟩ := hok q rfl
    cases hv
  · exact h

/-- What is answered to an undisturbed worker. -/
theorem Undisturbed.ok {s : Service D} {e : Req} {r : Except PyError e.Resp}
    (h : Undisturbed s (.worker e r)) (q : Sql) (he : e = .sql q) : ∃ v, r = .ok v := by
  subst he
  cases r with
  | ok v => exact ⟨v, rfl⟩
  | error x => exact absurd h id

variable [UnicodeDb]

/-! ## The step lemmas -/

theorem turn_of_step {s s' : Service D} {ev : Event D} (hs : Step s ev s') (hev : ev.IsWorker) :
    Turn s s' := by
  unfold Turn
  cases hs with
  | leave hphase hstop => rw [hphase]; exact Or.inl ⟨hstop, rfl⟩
  | claim hphase hstop => rw [hphase]; exact Or.inr ⟨hstop, rfl, rfl, rfl⟩
  | claimStep hphase _ => rw [hphase]; exact ⟨_, rfl, rfl, record_queued⟩
  | claimedNone hphase => rw [hphase]
  | wake hphase => rw [hphase]
  | claimedSome hphase => rw [hphase]; exact ⟨rfl, rfl⟩
  | claimRaised hphase => rw [hphase]; exact ⟨_, rfl⟩
  | processStep hphase _ => rw [hphase]; exact ⟨_, rfl⟩
  | processed hphase => rw [hphase]
  | processRaised hphase => rw [hphase]; exact ⟨_, rfl⟩
  | recover hphase _ => rw [hphase]; trivial
  | recoverStep hphase _ => rw [hphase]; trivial
  | recovered hphase => rw [hphase]; trivial
  | external _ => exact absurd hev id
  | spawn _ _ _ => exact absurd hev id
  | call _ _ => exact absurd hev id
  | start _ => exact absurd hev id
  | requestStop => exact absurd hev id
  | crash => exact absurd hev id

theorem sameLoop_of_step {s s' : Service D} {ev : Event D} (hs : Step s ev s')
    (hev : ¬ ev.IsWorker) (hcrash : ev ≠ .crash) (hlive : s.worker.Live) : SameLoop s s' := by
  cases hs with
  | external _ => exact ⟨rfl, rfl, rfl⟩
  | spawn _ _ _ => exact ⟨rfl, rfl, rfl⟩
  | call _ _ => exact ⟨rfl, rfl, rfl⟩
  | requestStop => exact ⟨rfl, rfl, rfl⟩
  | start hphase =>
    rw [hphase] at hlive
    exact absurd hlive id
  | crash => exact absurd rfl hcrash
  | _ => exact absurd trivial hev

/-- A step that is neither a stop nor a crash keeps a live loop going, or kills its task. -/
theorem live_of_step {s s' : Service D} {ev : Event D} (hs : Step s ev s')
    (hcrash : ev ≠ .crash) (hnoStop : ev ≠ .requestStop) (hlive : s.worker.Live)
    (hstop : s.stop = false) :
    s'.stop = false ∧ (s'.worker.Live ∨ ∃ x holding, s'.worker = .dead x holding) := by
  cases hs with
  | leave _ hset =>
    rw [hstop] at hset
    cases hset
  | start hphase => rw [hphase] at hlive; exact absurd hlive id
  | recover hphase _ => rw [hphase] at hlive; exact absurd hlive id
  | recoverStep hphase _ => rw [hphase] at hlive; exact absurd hlive id
  | recovered hphase => rw [hphase] at hlive; exact absurd hlive id
  | requestStop => exact absurd rfl hnoStop
  | crash => exact absurd rfl hcrash
  | claimRaised _ => exact ⟨hstop, Or.inr ⟨_, _, rfl⟩⟩
  | processRaised _ => exact ⟨hstop, Or.inr ⟨_, _, rfl⟩⟩
  | external _ => exact ⟨hstop, Or.inl hlive⟩
  | spawn _ _ _ => exact ⟨hstop, Or.inl hlive⟩
  | call _ _ => exact ⟨hstop, Or.inl hlive⟩
  | _ => exact ⟨hstop, Or.inl trivial⟩

/-- A statement of the worker never fails in an undisturbed run. -/
theorem not_faulted {s : Service D} (h : ReachableIf Undisturbed s) : s.log.faulted = false := by
  induction h with
  | initial ext => rfl
  | step _ hs hP ih =>
    cases hs with
    | recoverStep _ _ => exact record_not_faulted ih hP.ok
    | claimStep _ _ => exact record_not_faulted ih hP.ok
    | processStep _ _ => exact record_not_faulted ih hP.ok
    | start _ => rfl
    | recover _ _ => rfl
    | claim _ _ => rfl
    | claimedSome _ => rfl
    | _ => exact ih

/-- Only `start` brings a worker into being. -/
theorem started_of_step {s s' : Service D} {ev : Event D} (hs : Step s ev s')
    (h : WorkerStarted s'.worker) : WorkerStarted s.worker ∨ ev = .start := by
  cases hs with
  | start _ => exact Or.inr rfl
  | external _ => exact Or.inl h
  | spawn _ _ _ => exact Or.inl h
  | call _ _ => exact Or.inl h
  | requestStop => exact Or.inl h
  | recover _ _ => exact h.elim
  | recoverStep _ _ => exact h.elim
  | recovered _ => exact h.elim
  | crash => exact h.elim
  | leave hphase _ => exact Or.inl (by rw [hphase]; trivial)
  | claim hphase _ => exact Or.inl (by rw [hphase]; trivial)
  | claimStep hphase _ => exact Or.inl (by rw [hphase]; trivial)
  | claimedNone hphase => exact Or.inl (by rw [hphase]; trivial)
  | wake hphase => exact Or.inl (by rw [hphase]; trivial)
  | claimedSome hphase => exact Or.inl (by rw [hphase]; trivial)
  | claimRaised hphase => exact Or.inl (by rw [hphase]; trivial)
  | processStep hphase _ => exact Or.inl (by rw [hphase]; trivial)
  | processed hphase => exact Or.inl (by rw [hphase]; trivial)
  | processRaised hphase => exact Or.inl (by rw [hphase]; trivial)

/-- Whatever the worker of an undisturbed run does, its clock covers the cooldown. -/
theorem covers_of_started {s : Service D} (h : ReachableIf Undisturbed s)
    (hstarted : WorkerStarted s.worker) : D.external.Covers D.cooldownSeconds := by
  induction h with
  | initial ext => exact hstarted.elim
  | step _ hs hP ih =>
    rcases started_of_step hs hstarted with hbefore | rfl
    · exact ih hbefore
    · exact hP

/-- No job is abandoned in an undisturbed run. -/
theorem inv_undisturbed {s : Service D} (h : ReachableIf Undisturbed s) :
    Inv (fun _ => False) s := by
  refine inv_reachableIf (fun s ev hP hev => ?_) h
  subst hev
  exact hP

theorem not_dead {s : Service D} (h : ReachableIf Undisturbed s) (x : PyError)
    (holding : Bool) : s.worker ≠ .dead x holding := by
  intro hphase
  have hw := (inv_undisturbed h).worker
  rw [hphase] at hw
  rcases hw.1.2 with hfault | huncovered
  · rw [not_faulted h] at hfault
    cases hfault
  · exact huncovered (covers_of_started h (by rw [hphase]; trivial))

/-- Between two jobs, every job that was taken is finished and holds no lock. -/
theorem started_finished {s : Service D} (h : ReachableIf Undisturbed s) (hfree : ¬ s.Holding)
    {id : Nat} (hid : id ∈ s.started) :
    (∃ job ∈ s.world.db.committed.jobs, job.id = id ∧ job.status.IsTerminal) ∧
    ∀ lock ∈ s.world.db.committed.prLocks, lock.jobId ≠ id := by
  have hinv := inv_undisturbed h
  obtain ⟨F, hsub, hrun⟩ := hinv.running hfree
  obtain ⟨job, hjob, hjid, hst⟩ := hinv.begun id hid
  have hterm : job.status.IsTerminal := by
    by_contra hnt
    rcases JobStatus.not_isTerminal_iff.mp hnt with hpending | hrunning
    · exact hst hpending
    · exact hsub job.id ((hrun job.id).mp ⟨job, hjob, rfl, hrunning⟩)
  refine ⟨⟨job, hjob, hjid, hterm⟩, fun lock hlock heq => ?_⟩
  obtain ⟨other, hother, hoid, _, host⟩ := hinv.locks.lock_job lock hlock
  have hsame : other = job := Table.eq_of_key_eq hother hjob (by rw [hoid, heq, hjid])
  exact host (hsame ▸ hterm)

/-! ## Fair runs -/

/-- An undisturbed run from `s` in which nobody stops the service, and the worker's task is
scheduled again and again. -/
structure FairRun (s : Service D) (run : Nat → Service D) (ev : Nat → Event D) : Prop where
  start : run 0 = s
  step : ∀ i, Step (run i) (ev i) (run (i + 1))
  undisturbed : ∀ i, Undisturbed (run i) (ev i)
  noCrash : ∀ i, ev i ≠ .crash
  noStop : ∀ i, ev i ≠ .requestStop
  fair : ∀ i, ∃ j, i ≤ j ∧ (ev j).IsWorker

namespace FairRun

variable {s : Service D} {run : Nat → Service D} {ev : Nat → Event D}

theorem reachable (hr : FairRun s run ev) (h : ReachableIf Undisturbed s) (i : Nat) :
    ReachableIf Undisturbed (run i) := by
  induction i with
  | zero => exact hr.start ▸ h
  | succ i ih => exact ih.step (hr.step i) (hr.undisturbed i)

/-- The loop is never left: nothing that an undisturbed worker meets gets out of it as an exception,
and `stop()` is not called in the run. -/
theorem live (hr : FairRun s run ev) (h : ReachableIf Undisturbed s) (hlive : s.worker.Live)
    (hstop : s.stop = false) (i : Nat) : (run i).worker.Live ∧ (run i).stop = false := by
  induction i with
  | zero =>
    rw [hr.start]
    exact ⟨hlive, hstop⟩
  | succ i ih =>
    obtain ⟨hlive, hstop⟩ := ih
    obtain ⟨hstop', hnext⟩ := live_of_step (hr.step i) (hr.noCrash i) (hr.noStop i) hlive hstop
    rcases hnext with hlive' | ⟨x, holding, hdead⟩
    · exact ⟨hlive', hstop'⟩
    · exact absurd hdead (not_dead (hr.reachable h (i + 1)) x holding)

/-- The next move of the worker's task finds the loop as it was left. -/
theorem next_turn (hr : FairRun s run ev) (h : ReachableIf Undisturbed s)
    (hlive : s.worker.Live) (hstop : s.stop = false) (i : Nat) :
    ∃ j, i ≤ j ∧ SameLoop (run i) (run j) ∧ Turn (run j) (run (j + 1)) := by
  obtain ⟨j, hij, hmove⟩ := hr.fair i
  -- by induction on the distance to a move: the first one is the one we want
  obtain ⟨d, rfl⟩ := Nat.exists_eq_add_of_le hij
  clear hij
  induction d generalizing i with
  | zero => exact ⟨i, Nat.le_refl i, .refl _, turn_of_step (hr.step i) hmove⟩
  | succ d ih =>
    by_cases hev : (ev i).IsWorker
    · exact ⟨i, Nat.le_refl i, .refl _, turn_of_step (hr.step i) hev⟩
    · have hsame := sameLoop_of_step (hr.step i) hev (hr.noCrash i)
        (hr.live h hlive hstop i).1
      have hmove' : (ev (i + 1 + d)).IsWorker := by
        rwa [show i + 1 + d = i + (d + 1) from by omega]
      obtain ⟨j, hij, hloop, hturn⟩ := ih (i + 1) hmove'
      exact ⟨j, by omega, hsame.trans hloop, hturn⟩

/-- A call of `_claim_one` comes to an end: it found nothing in a queue that was empty, or it
hands a job to `_process`. The induction is on what is left of the coroutine. -/
theorem claiming_ends (hr : FairRun s run ev) (h : ReachableIf Undisturbed s)
    (hlive : s.worker.Live) (hstop : s.stop = false) (p : Py (Option Job)) (i : Nat)
    (hphase : (run i).worker = .claiming p) :
    ∃ j, i ≤ j ∧ (((run (j + 1)).worker = .waiting ∧ (run i).log.queued = false) ∨
      ∃ job q, (run (j + 1)).worker = .processing job q ∧
        (run (j + 1)).started = job.id :: (run i).started) := by
  induction p generalizing i with
  -- the call is over
  | ret result =>
    obtain ⟨j, hij, hloop, hturn⟩ := hr.next_turn h hlive hstop i
    have hphase' : (run j).worker = .claiming (.ret result) := hloop.worker.trans hphase
    unfold Turn at hturn
    rw [hphase'] at hturn
    cases result with
    -- none was found, so the queue was empty when it looked
    | none =>
      have hw := (inv_undisturbed (hr.reachable h j)).worker
      rw [hphase'] at hw
      obtain ⟨_, _, hqueued⟩ := Safe.ok hw
      exact ⟨j, hij, Or.inl ⟨hturn, hloop.queued ▸ hqueued⟩⟩
    | some job =>
      refine ⟨j, hij, Or.inr ⟨job, _, hturn.2, ?_⟩⟩
      rw [hturn.1, hloop.started]
  -- it raised, which no undisturbed run does
  | raise x =>
    obtain ⟨j, _, hloop, hturn⟩ := hr.next_turn h hlive hstop i
    unfold Turn at hturn
    rw [hloop.worker.trans hphase] at hturn
    obtain ⟨holding, hdead⟩ := hturn
    exact absurd hdead (not_dead (hr.reachable h (j + 1)) x holding)
  -- one request more, and the rest of the coroutine
  | call e k ih =>
    obtain ⟨j, hij, hloop, hturn⟩ := hr.next_turn h hlive hstop i
    unfold Turn at hturn
    rw [hloop.worker.trans hphase] at hturn
    obtain ⟨r, hnext, hstarted, hqueued⟩ := hturn
    obtain ⟨l, hjl, hend⟩ := ih r (j + 1) hnext
    refine ⟨l, by omega, ?_⟩
    rwa [hqueued, hloop.queued, hstarted, hloop.started] at hend

/-- A call of `_process` comes to an end. -/
theorem processing_ends (hr : FairRun s run ev) (h : ReachableIf Undisturbed s)
    (hlive : s.worker.Live) (hstop : s.stop = false) {job : Job} (p : Py Unit) (i : Nat)
    (hphase : (run i).worker = .processing job p) :
    ∃ j, i ≤ j ∧ (run j).worker = .idle := by
  induction p generalizing i with
  | ret u =>
    obtain ⟨j, hij, hloop, hturn⟩ := hr.next_turn h hlive hstop i
    unfold Turn at hturn
    rw [hloop.worker.trans hphase] at hturn
    exact ⟨j + 1, by omega, hturn⟩
  | raise x =>
    obtain ⟨j, _, hloop, hturn⟩ := hr.next_turn h hlive hstop i
    unfold Turn at hturn
    rw [hloop.worker.trans hphase] at hturn
    obtain ⟨holding, hdead⟩ := hturn
    exact absurd hdead (not_dead (hr.reachable h (j + 1)) x holding)
  | call e k ih =>
    obtain ⟨j, hij, hloop, hturn⟩ := hr.next_turn h hlive hstop i
    unfold Turn at hturn
    rw [hloop.worker.trans hphase] at hturn
    obtain ⟨r, hnext⟩ := hturn
    obtain ⟨l, hjl, hidle⟩ := ih r (j + 1) hnext
    exact ⟨l, by omega, hidle⟩

/-- The loop comes back to its top: a claim and a turn are finite programs, each of their requests
is answered, and the worker gets its turn again and again. -/
theorem idle_again (hr : FairRun s run ev) (h : ReachableIf Undisturbed s)
    (hlive : s.worker.Live) (hstop : s.stop = false) (i : Nat) :
    ∃ j, i ≤ j ∧ (run j).worker = .idle := by
  -- a wait ends
  have hwaiting : ∀ l, (run l).worker = .waiting → ∃ j, l ≤ j ∧ (run j).worker = .idle := by
    intro l hphase
    obtain ⟨j, hlj, hloop, hturn⟩ := hr.next_turn h hlive hstop l
    unfold Turn at hturn
    rw [hloop.worker.trans hphase] at hturn
    exact ⟨j + 1, by omega, hturn⟩
  have hlive' := (hr.live h hlive hstop i).1
  cases hphase : (run i).worker with
  | idle => exact ⟨i, Nat.le_refl i, hphase⟩
  | waiting => exact hwaiting i hphase
  -- a claim finds nothing and waits, or a job is processed
  | claiming p =>
    obtain ⟨j, hij, ⟨hwait, _⟩ | ⟨job, q, hproc, _⟩⟩ :=
      hr.claiming_ends h hlive hstop p i hphase
    · obtain ⟨l, hjl, hidle⟩ := hwaiting (j + 1) hwait
      exact ⟨l, by omega, hidle⟩
    · obtain ⟨l, hjl, hidle⟩ := hr.processing_ends h hlive hstop q (j + 1) hproc
      exact ⟨l, by omega, hidle⟩
  | processing job p => exact hr.processing_ends h hlive hstop p i hphase
  | _ =>
    rw [hphase] at hlive'
    exact absurd hlive' id

end FairRun

/-! ## The loop goes on -/

end Service

section

variable [UnicodeDb] {X : External} {W : Workload} {config : OperatorConfig}
  {reviewer : ReviewRoutine}

/-- In a run in which no statement of the worker fails, and the clock covers the cooldown, the
worker survives whatever else happens: it is alive, what it has taken is finished before it takes
more, and it goes on taking jobs. -/
theorem worker_survives {s : Service (.serve X W config reviewer)}
    (h : ReachableIf Undisturbed s) :
    (∀ x holding, s.worker ≠ .dead x holding) ∧
    (¬ s.Holding → ∀ id ∈ s.started,
      (∃ job ∈ s.world.db.committed.jobs, job.id = id ∧ job.status.IsTerminal) ∧
      ∀ lock ∈ s.world.db.committed.prLocks, lock.jobId ≠ id) ∧
    (s.worker.Live → s.stop = false → ∀ run ev, FairRun s run ev →
      (∀ i, ∃ j, i ≤ j ∧ (run j).worker = .idle ∧
        (run (j + 1)).worker = .claiming Worker.claimOne) ∧
      ∀ i, (run i).worker = .idle → (run (i + 1)).worker = .claiming Worker.claimOne →
        (∃ job ∈ (run i).world.db.committed.jobs, job.status = .pending) →
        ∃ j, i < j ∧ ∃ id, (run (j + 1)).started = id :: (run i).started) := by
  refine ⟨not_dead h, fun hfree id hid => started_finished h hfree hid, ?_⟩
  intro hlive hstop run ev hr
  constructor
  · intro i
    obtain ⟨j, hij, hidle⟩ := hr.idle_again h hlive hstop i
    obtain ⟨l, hjl, hloop, hturn⟩ := hr.next_turn h hlive hstop j
    have hidle' : (run l).worker = .idle := hloop.worker.trans hidle
    unfold Turn at hturn
    rw [hidle'] at hturn
    rcases hturn with ⟨hset, _⟩ | ⟨_, hclaim, _⟩
    · rw [(hr.live h hlive hstop l).2] at hset
      cases hset
    · exact ⟨l, by omega, hidle', hclaim⟩
  · intro i hidle hclaim hpending
    -- the step that entered _claim_one is the loop's own
    have hmove : (ev i).IsWorker := by
      by_contra hev
      have hsame := sameLoop_of_step (hr.step i) hev (hr.noCrash i) (hr.live h hlive hstop i).1
      rw [hsame.worker, hidle] at hclaim
      cases hclaim
    have hturn := turn_of_step (hr.step i) hmove
    unfold Turn at hturn
    rw [hidle] at hturn
    rcases hturn with ⟨_, hstopped⟩ | ⟨_, _, hstarted, hqueued⟩
    · rw [hclaim] at hstopped
      cases hstopped
    · obtain ⟨j, hij, ⟨_, hempty⟩ | ⟨job, q, _, hnew⟩⟩ :=
        hr.claiming_ends h hlive hstop _ (i + 1) hclaim
      · rw [hempty, pendingJobs_isEmpty.mpr hpending] at hqueued
        cases hqueued
      · exact ⟨j, by omega, job.id, by rw [hnew, hstarted]⟩

end

attribute [local instance] asciiDb

/-- A run with an enqueued job that is claimed and processed while GitHub cannot be reached. -/
theorem worker_survives_outage :
    ∃ s : Service (.serve outage enqueueWorkload exampleConfig nothingToReview),
      s.started = [1] ∧ (∀ x holding, s.worker ≠ .dead x holding) ∧
      (∃ job ∈ s.world.db.committed.jobs, job.id = 1 ∧ job.status.IsTerminal) ∧
      ∀ lock ∈ s.world.db.committed.prLocks, lock.jobId ≠ 1 := by
  obtain ⟨s, hs, htest⟩ := exists_of_schedule outageResponder undisturbed (P := Undisturbed)
    (fun _ _ => undisturbed_sound) (0 : Nat)
    ([.start, .spawn 1 exampleTrigger] ++ List.replicate 6 (.call 1 false) ++
      List.replicate 14 (.worker false))
    (fun (s : Service (.serve outage enqueueWorkload exampleConfig nothingToReview)) =>
      decide (s.started = [1] ∧ ¬ s.Holding)) (by decide +kernel)
  obtain ⟨hstarted, hfree⟩ := of_decide_eq_true htest
  obtain ⟨halive, hdone, _⟩ := worker_survives hs
  exact ⟨s, hstarted, halive, hdone hfree 1 (by rw [hstarted]; exact List.mem_singleton.mpr rfl)⟩

/-- The task of the worker has died while it held a job. -/
def diedHolding {D : Deployment} (s : Service D) : Bool :=
  match s.worker with
  | .dead _ true => true
  | _ => false

/-- The commit of a job's outcome fails once: the worker's task is gone although nobody stopped
it, the job it held stays running and locked, and the next one stays pending. -/
theorem worker_killed_by_commit :
    ∃ s : Service (.serve outage enqueueWorkload exampleConfig nothingToReview),
      ReachableIf (fun _ ev => ev ≠ .crash ∧ ev ≠ .requestStop) s ∧ s.stop = false ∧
      (∃ x, s.worker = .dead x true) ∧
      (∃ job ∈ s.world.db.committed.jobs, job.id ∈ s.started ∧ job.status = .running ∧
        ∃ lock ∈ s.world.db.committed.prLocks, lock.jobId = job.id) ∧
      ∃ job ∈ s.world.db.committed.jobs, job.status = .pending := by
  obtain ⟨s, hs, htest⟩ := exists_of_schedule outageResponder
    (fun _ ev => match ev with
      | .crash => false
      | .requestStop => false
      | _ => true) (P := fun _ ev => ev ≠ .crash ∧ ev ≠ .requestStop)
    (fun s ev hok => by constructor <;> rintro rfl <;> simp at hok) (0 : Nat)
    ([.start, .spawn 1 exampleTrigger] ++ List.replicate 6 (.call 1 false) ++
      [.spawn 2 { exampleTrigger with prNumber := 8 }] ++ List.replicate 6 (.call 2 false) ++
      -- the first job is claimed and reviewed, up to the commit of its outcome
      List.replicate 11 (.worker false) ++ [.worker true, .worker false, .worker false])
    (fun (s : Service (.serve outage enqueueWorkload exampleConfig nothingToReview)) =>
      diedHolding s && decide (s.stop = false ∧
        (∃ job ∈ s.world.db.committed.jobs, job.id ∈ s.started ∧ job.status = .running ∧
          ∃ lock ∈ s.world.db.committed.prLocks, lock.jobId = job.id) ∧
        ∃ job ∈ s.world.db.committed.jobs, job.status = .pending)) (by decide +kernel)
  obtain ⟨hdead, hrest⟩ := Bool.and_eq_true_iff.mp htest
  obtain ⟨hstop, hjobs⟩ := of_decide_eq_true hrest
  refine ⟨s, hs, hstop, ?_, hjobs⟩
  unfold diedHolding at hdead
  split at hdead
  · rename_i x hphase
    exact ⟨x, hphase⟩
  · cases hdead

/-- A configuration that the operator's file may hold: no bound is put on the cooldown. -/
def longCooldown : OperatorConfig :=
  { exampleConfig with pipeline := { failureCommentCooldownSeconds := 70000000000 } }

/-- A reviewer whose reviews fail. -/
def failedReview : ReviewRoutine where
  run _ := return { status := .failed, failureMessage := some "the model did not answer" }
  calls _ := trivial
  finished _ := by
    rintro result heq
    cases heq
    simp

/-- The worker's task is gone, between two jobs: an exception ended it while it held none, so the
queue stands still. -/
def diedFree {D : Deployment} (s : Service D) : Bool :=
  match s.worker with
  | .dead _ false => true
  | _ => false

/-- A cooldown of more than two thousand years: the first failed job is recorded, and the comment it
asks for ends the worker's task although no statement fails. The next job stays pending. -/
theorem worker_killed_by_cooldown :
    ∃ s : Service (.serve outage enqueueWorkload longCooldown failedReview),
      ReachableIf (fun _ ev => ev ≠ .crash ∧ ev ≠ .requestStop) s ∧ s.stop = false ∧
      s.log.faulted = false ∧ (∃ x, s.worker = .dead x false) ∧
      ∃ job ∈ s.world.db.committed.jobs, job.status = .pending := by
  obtain ⟨s, hs, htest⟩ := exists_of_schedule outageResponder
    (fun _ ev => match ev with
      | .crash => false
      | .requestStop => false
      | _ => true) (P := fun _ ev => ev ≠ .crash ∧ ev ≠ .requestStop)
    (fun s ev hok => by constructor <;> rintro rfl <;> simp at hok) (0 : Nat)
    ([.start, .spawn 1 exampleTrigger] ++ List.replicate 6 (.call 1 false) ++
      [.spawn 2 { exampleTrigger with prNumber := 8 }] ++ List.replicate 6 (.call 2 false) ++
      List.replicate 16 (.worker false))
    (fun (s : Service (.serve outage enqueueWorkload longCooldown failedReview)) =>
      diedFree s && decide (s.stop = false ∧ s.log.faulted = false ∧
        ∃ job ∈ s.world.db.committed.jobs, job.status = .pending)) (by decide +kernel)
  -- the first job fails, and with it the task; the second is never claimed
  obtain ⟨hdead, hrest⟩ := Bool.and_eq_true_iff.mp htest
  obtain ⟨hstop, hfault, hjobs⟩ := of_decide_eq_true hrest
  refine ⟨s, hs, hstop, hfault, ?_, hjobs⟩
  unfold diedFree at hdead
  split at hdead
  · rename_i x hphase
    exact ⟨x, hphase⟩
  · cases hdead

end VidiPr
