import VidiPr.Lib.Schedule
import VidiPr.Service.Responder
import VidiPr.Service.System

/-!
# Schedules

A run of the service by a list of commands: which task moves next, and whether its statement
fails. With a `Responder` the service is a function of its schedule, so that a particular run can
be computed.

* **`Service.perform`** — what a command does, and the event it is.
* **`Service.perform_sound`** — every command is a step.
* **`Service.reachable_of_schedule`** — every schedule is a run.
-/

namespace VidiPr

open Effect Prog Text

/-- A reviewer that finds nothing to review. -/
def nothingToReview : ReviewRoutine where
  run _ := return { status := .done, statusDetail := some .noReviewableFiles }
  calls _ := trivial
  finished _ := by
    rintro result heq
    cases heq
    simp

/-- The configuration of the runs on fixed inputs. -/
def exampleConfig : OperatorConfig := { llm := { model := "m" }, webhookSecret := "secret" }

/-- Their trigger. -/
def exampleTrigger : EnqueueArgs :=
  { installationId := 1
    repo := "o/r"
    prNumber := 7
    headSha := "abc"
    triggerKind := .auto }

namespace Service

variable {D : Deployment} [UnicodeDb]

/-- What a schedule can ask for. -/
inductive Command (D : Deployment) where
  /-- start a task -/
  | spawn (n : Nat) (task : D.workload.Task)
  /-- task `n` makes its next request -/
  | call (n : Nat) (fault : Bool)
  /-- the worker makes its next request, or goes on without one -/
  | worker (fault : Bool)
  | start
  | stop
  | crash

/-- The next step of the worker's loop. -/
def workerTurn (answers : Responder D.external) (fault : Bool) (s : Service D) :
    Option (Event D × Service D) :=
  match s.worker with
  | .idle =>
    if s.stop then some (.control, { s with worker := .stopped })
    else some (.control, { s with
      worker := .claiming Worker.claimOne
      log := { queued := !s.world.db.committed.pendingJobs.isEmpty } })
  | .waiting => some (.control, { s with worker := .idle })
  | .claiming (.call e k) =>
    (respond answers .worker fault s.world e).map fun (r, world) =>
      (.worker e r, { s with world, worker := .claiming (k r), log := s.log.record e r })
  | .claiming (.ret none) => some (.control, { s with worker := .waiting })
  | .claiming (.ret (some job)) => some (.control, { s with
      worker := .processing job (Worker.process D.config D.reviewer.run job)
      log := {}
      started := job.id :: s.started })
  | .claiming (.raise x) => some (.control, { s with worker := .dead x (decide s.Holding) })
  | .processing job (.call e k) =>
    (respond answers .worker fault s.world e).map fun (r, world) =>
      (.worker e r, { s with world, worker := .processing job (k r), log := s.log.record e r })
  | .processing _ (.ret ()) => some (.control, { s with worker := .idle })
  | .processing _ (.raise x) => some (.control, { s with worker := .dead x (decide s.Holding) })
  | _ => none

/-- The next request of task `n`. -/
def callTurn (answers : Responder D.external) (n : Nat) (fault : Bool) (s : Service D) :
    Option (Event D × Service D) :=
  match s.calls n with
  | some ⟨task, since, .call e k⟩ =>
    (respond answers (.call n) fault s.world e).map fun (r, world) =>
      (.call n e r, { s with
        world
        calls := Function.update s.calls n (some ⟨task, since, k r⟩) })
  | _ => none

/-- What a command does. -/
def perform (answers : Responder D.external) (s : Service D) :
    Command D → Option (Event D × Service D)
  | .spawn n task =>
    match s.calls n with
    | none => some (.spawn n task, { s with
        calls := Function.update s.calls n
          (some ⟨task, s.world.db.log.length, D.workload.prog task⟩) })
    | some _ => none
  | .call n fault => callTurn answers n fault s
  | .worker fault => workerTurn answers fault s
  | .start =>
    match s.worker with
    | .down => some (.start, { s with worker := .idle, log := {}, stop := false })
    | _ => none
  | .stop => some (.requestStop, { s with stop := true })
  | .crash => some (.crash, { s with
      world := { s.world with db := s.world.db.crash }
      worker := .down
      calls := fun _ => none })

theorem workerTurn_sound {answers : Responder D.external} {fault : Bool} {s s' : Service D}
    {ev : Event D} (h : workerTurn answers fault s = some (ev, s')) : Step s ev s' := by
  unfold workerTurn at h
  split at h
  · -- at the top of the loop, `stop()` was called or not
    rename_i hphase
    split at h
    · rename_i hstop
      obtain ⟨rfl, rfl⟩ := Prod.mk.inj (Option.some.inj h)
      exact .leave hphase hstop
    · rename_i hstop
      obtain ⟨rfl, rfl⟩ := Prod.mk.inj (Option.some.inj h)
      exact .claim hphase (by simpa using hstop)
  · rename_i hphase
    obtain ⟨rfl, rfl⟩ := Prod.mk.inj (Option.some.inj h)
    exact .wake hphase
  · -- a request is answered, where the responder has an answer
    rename_i e k hphase
    obtain ⟨⟨r, world⟩, hresp, heq⟩ := Option.map_eq_some_iff.mp h
    obtain ⟨rfl, rfl⟩ := Prod.mk.inj heq
    exact .claimStep hphase (respond_sound hresp)
  · rename_i hphase
    obtain ⟨rfl, rfl⟩ := Prod.mk.inj (Option.some.inj h)
    exact .claimedNone hphase
  · rename_i job hphase
    obtain ⟨rfl, rfl⟩ := Prod.mk.inj (Option.some.inj h)
    exact .claimedSome hphase
  · rename_i x hphase
    obtain ⟨rfl, rfl⟩ := Prod.mk.inj (Option.some.inj h)
    exact .claimRaised hphase
  · rename_i job e k hphase
    obtain ⟨⟨r, world⟩, hresp, heq⟩ := Option.map_eq_some_iff.mp h
    obtain ⟨rfl, rfl⟩ := Prod.mk.inj heq
    exact .processStep hphase (respond_sound hresp)
  · rename_i job hphase
    obtain ⟨rfl, rfl⟩ := Prod.mk.inj (Option.some.inj h)
    exact .processed hphase
  · rename_i job x hphase
    obtain ⟨rfl, rfl⟩ := Prod.mk.inj (Option.some.inj h)
    exact .processRaised hphase
  · cases h

theorem callTurn_sound {answers : Responder D.external} {n : Nat} {fault : Bool}
    {s s' : Service D} {ev : Event D} (h : callTurn answers n fault s = some (ev, s')) :
    Step s ev s' := by
  unfold callTurn at h
  split at h
  · rename_i task since e k hcall
    obtain ⟨⟨r, world⟩, hresp, heq⟩ := Option.map_eq_some_iff.mp h
    obtain ⟨rfl, rfl⟩ := Prod.mk.inj heq
    exact .call hcall (respond_sound hresp)
  · cases h

/-- Every command is a step of the service: the responder gives one of the possible answers, and
where it has none the command cannot be carried out. -/
theorem perform_sound {answers : Responder D.external} {command : Command D} {s s' : Service D}
    {ev : Event D} (h : perform answers s command = some (ev, s')) : Step s ev s' := by
  cases command with
  | spawn n task =>
    simp only [perform] at h
    split at h
    · rename_i hn
      obtain ⟨rfl, rfl⟩ := Prod.mk.inj (Option.some.inj h)
      exact .spawn n task hn
    · cases h
  | call n fault => exact callTurn_sound h
  | worker fault => exact workerTurn_sound h
  | start =>
    simp only [perform] at h
    split at h
    · rename_i hphase
      obtain ⟨rfl, rfl⟩ := Prod.mk.inj (Option.some.inj h)
      exact .start hphase
    · cases h
  | stop =>
    obtain ⟨rfl, rfl⟩ := Prod.mk.inj (Option.some.inj h)
    exact .requestStop
  | crash =>
    obtain ⟨rfl, rfl⟩ := Prod.mk.inj (Option.some.inj h)
    exact .crash

/-- A schedule is a run: each of its commands is a step, and the test has checked of each that it
meets the condition. -/
theorem reachable_of_schedule {answers : Responder D.external}
    {allowed : Service D → Event D → Bool} {P : Service D → Event D → Prop}
    (hallowed : ∀ s ev, allowed s ev = true → P s ev) {commands : List (Command D)}
    {s s' : Service D} (h : ReachableIf P s)
    (he : Schedule.execute (perform answers) allowed commands s = some s') : ReachableIf P s' :=
  Schedule.execute_sound
    (fun _ _ _ _ _ hprev hperf hok => hprev.step (perform_sound hperf) (hallowed _ _ hok)) h he

/-- A schedule, a test of the state it leads to, and what they show. -/
theorem exists_of_schedule (answers : Responder D.external)
    (allowed : Service D → Event D → Bool) {P : Service D → Event D → Prop}
    (hallowed : ∀ s ev, allowed s ev = true → P s ev)
    (ext : D.external.State) (commands : List (Command D)) (test : Service D → Bool)
    (h : (Schedule.execute (perform answers) allowed commands (Service.initial D ext)).any test =
      true) :
    ∃ s, ReachableIf P s ∧ test s = true :=
  Schedule.exists_of_execute
    (fun _ _ _ _ _ hprev hperf hok => hprev.step (perform_sound hperf) (hallowed _ _ hok))
    (.initial ext) h

end Service

end VidiPr
