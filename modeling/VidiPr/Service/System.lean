import VidiPr.Pipeline.Worker
import VidiPr.Service.Calls

/-!
# The service as a transition system

One process runs the worker's loop beside any number of other tasks; the tasks share the store
and the outside. The system steps by one request of one task, so every interleaving at the
awaits is a run, and a crash may come between any two requests.

* **`Workload`** — what the other tasks of the process are, with what they owe to the store.
* **`ReviewRoutine`** — the reviewer, with what the worker relies on.
* **`Deployment`** — a workload, a reviewer and an outside; `serve` is what `_serve` builds.
* **`Service.Step`** — one step. The entry point `_serve` opens the store and starts the worker
  (`start`); it runs no other routine on the store. A deployment may also run
  `recover_on_startup` while no worker is live (`recover`), which `_serve` never does.

`run_forever` is the cycle `idle → claiming → processing → idle`, with the poll pause `waiting`;
an exception that leaves `_claim_one` or `_process` ends the task in `dead`, and nothing
restarts it until the process does.
-/

namespace VidiPr

open Effect Prog Text

/-- The tasks a process runs beside its worker. Each keeps what the store owes to the worker
(`queueContract`), and ends with what it promises. -/
structure Workload where
  Task : Type
  Result : Task → Type
  prog : (task : Task) → Py (Result task)
  Promise : (n since : Nat) → (task : Task) → Except PyError (Result task) → Sqlite → Prop
  keeps : ∀ (X : External) (n since : Nat) (task : Task),
    Triple (callSetting X n queueContract) (onDb (Fresh n since)) (prog task)
      fun r => onDb (Promise n since task r)

/-- The tasks that only call `try_enqueue_review`, in a session of their own. -/
def enqueueWorkload : Workload where
  Task := EnqueueArgs
  Result _ := Option Job
  prog args := Py.withSession (tryEnqueueReview args)
  Promise := EnqueuePost queueContract
  keeps _ _ _ args := enqueue_triple (queueContract_enqueued args)

/-- The reviewer a worker is built with: it never touches the database, and what it returns is
the outcome of a finished job. -/
structure ReviewRoutine where
  run : Job → Py ReviewResult
  calls : ∀ job, (run job).Calls Req.IsExt
  finished : ∀ job, (run job).Yields (fun _ _ => True) fun r =>
    ∀ result, r = .ok result → result.status.IsTerminal

/-- A task in flight, or finished with its result. `since` is the length of the store's history
when it was started. -/
structure Call (W : Workload) where
  task : W.Task
  since : Nat
  prog : Py (W.Result task)

/-- Where the worker task is. In the phases that carry a program it is what is left of the coroutine
the loop awaits. -/
inductive WorkerPhase where
  /-- no process, or no worker in it yet -/
  | down
  /-- `recover_on_startup` and its commit, before a worker starts -/
  | recovering (p : Py Unit)
  /-- at the top of the loop -/
  | idle
  /-- inside `_claim_one` -/
  | claiming (p : Py (Option Job))
  /-- the pause between two polls of an empty queue -/
  | waiting
  /-- inside `_process` -/
  | processing (job : Job) (p : Py Unit)
  /-- the task ended with an exception, holding a claimed job or not -/
  | dead (x : PyError) (holding : Bool)
  /-- the loop saw the stop event -/
  | stopped

/-- The worker's loop is running, at its top, in a pause or in one of the two coroutines that it
awaits. -/
def WorkerPhase.Live : WorkerPhase → Prop
  | .idle | .claiming _ | .waiting | .processing _ _ => True
  | _ => False

instance : DecidablePred WorkerPhase.Live := fun phase => by
  unfold WorkerPhase.Live
  split <;> infer_instance

/-- What a running system is made of: the outside, the other tasks of the process, and what the
worker is built with. -/
structure Deployment where
  external : External
  workload : Workload
  config : OperatorConfig
  reviewer : ReviewRoutine
  /-- whether `recover_on_startup` may be run between two processes -/
  mayRecover : Prop

/-- The service as `_serve` runs it: nothing calls `recover_on_startup`. -/
def Deployment.serve (external : External) (workload : Workload) (config : OperatorConfig)
    (reviewer : ReviewRoutine) : Deployment where
  external := external
  workload := workload
  config := config
  reviewer := reviewer
  mayRecover := False

/-- The queue on its own: calls of `try_enqueue_review`, one worker, crashes, and recovery while
no worker is live. -/
def Deployment.queue (external : External) (config : OperatorConfig) (reviewer : ReviewRoutine) :
    Deployment where
  external := external
  workload := enqueueWorkload
  config := config
  reviewer := reviewer
  mayRecover := True

/-- What the worker's task has done since it entered its phase. -/
structure WorkerLog where
  /-- transactions committed -/
  commits : Nat := 0
  /-- whether a statement has failed -/
  faulted : Bool := false
  /-- whether a job was pending when `_claim_one` was called -/
  queued : Bool := false

/-- The log after a request: it counts the commits that succeed and remembers whether any statement
has failed. -/
def WorkerLog.record (log : WorkerLog) : (e : Req) → Except PyError e.Resp → WorkerLog
  | .sql .commit, .ok _ => { log with commits := log.commits + 1 }
  | .sql _, .error _ => { log with faulted := true }
  | _, _ => log

/-- A state of the service. `log` and `started` are histories the code never reads; `started` are
the jobs handed to `_process`, newest first. -/
structure Service (D : Deployment) where
  world : World D.external
  worker : WorkerPhase
  log : WorkerLog
  stop : Bool
  calls : Nat → Option (Call D.workload)
  started : List Nat

variable {D : Deployment}

namespace Service

/-- Nothing has run yet, on the store the migrations leave. -/
def initial (D : Deployment) (ext : D.external.State) : Service D where
  world := { db := { committed := Db.empty }, ext }
  worker := .down
  log := {}
  stop := false
  calls _ := none
  started := []

/-- The worker has committed the claim of a job and not yet its outcome. A task that died in
between holds its job for good. -/
def Holding (s : Service D) : Prop :=
  match s.worker with
  | .claiming _ => 0 < s.log.commits
  | .processing _ _ => s.log.commits = 0
  | .dead _ holding => holding = true
  | _ => False

instance (s : Service D) : Decidable s.Holding := by
  unfold Holding
  split <;> infer_instance

/-- What a step was, as far as a condition on a run may look at it. -/
inductive Event (D : Deployment) where
  /-- a move of the outside -/
  | external
  /-- task `n` is started -/
  | spawn (n : Nat) (task : D.workload.Task)
  /-- task `n` made a request and got an answer -/
  | call (n : Nat) (e : Req) (r : Except PyError e.Resp)
  /-- the worker task made a request and got an answer -/
  | worker (e : Req) (r : Except PyError e.Resp)
  /-- the entry point started the worker -/
  | start
  /-- the loop went on without a request -/
  | control
  /-- `stop()` was called -/
  | requestStop
  /-- the process died -/
  | crash

variable [UnicodeDb]

/-- `recover_on_startup` in a session, committed by its caller, as its docstring asks of the entry
point. -/
def recoveryRoutine : Py Unit :=
  Py.withSession do
    let _ ← recoverOnStartup
    Py.commit

/-- One step of the service: a move of the outside, one request of one task, or what the worker's
loop does between two requests. The process may die between any two of them. -/
inductive Step : Service D → Event D → Service D → Prop where
  /-- something outside moves -/
  | external {s : Service D} {ext} (h : D.external.move s.world.ext ext) :
      Step s .external { s with world := { s.world with ext } }
  /-- a task is started -/
  | spawn {s : Service D} (n : Nat) (task : D.workload.Task) (h : s.calls n = none) :
      Step s (.spawn n task) { s with
        calls := Function.update s.calls n
          (some ⟨task, s.world.db.log.length, D.workload.prog task⟩) }
  /-- a task makes one request -/
  | call {s : Service D} {n : Nat} {task : D.workload.Task} {since : Nat} {e : Req}
      {k : Except PyError e.Resp → Py (D.workload.Result task)} {r : Except PyError e.Resp}
      {world : World D.external} (h : s.calls n = some ⟨task, since, .call e k⟩)
      (hsem : sem D.external (.call n) e s.world r world) :
      Step s (.call n e r) { s with
        world
        calls := Function.update s.calls n (some ⟨task, since, k r⟩) }
  /-- `_serve` starts the worker -/
  | start {s : Service D} (h : s.worker = .down) :
      Step s .start { s with worker := .idle, log := {}, stop := false }
  /-- recovery is run while no worker is live -/
  | recover {s : Service D} (h : s.worker = .down) (may : D.mayRecover) :
      Step s .control { s with worker := .recovering recoveryRoutine, log := {} }
  | recoverStep {s : Service D} {e : Req} {k : Except PyError e.Resp → Py Unit}
      {r : Except PyError e.Resp} {world : World D.external}
      (h : s.worker = .recovering (.call e k))
      (hsem : sem D.external .worker e s.world r world) :
      Step s (.worker e r) { s with
        world
        worker := .recovering (k r)
        log := s.log.record e r }
  | recovered {s : Service D} (h : s.worker = .recovering (.ret ())) :
      Step s .control { s with worker := .down }
  /-- `stop()` -/
  | requestStop {s : Service D} : Step s .requestStop { s with stop := true }
  /-- the loop test fails -/
  | leave {s : Service D} (h : s.worker = .idle) (hstop : s.stop = true) :
      Step s .control { s with worker := .stopped }
  /-- the loop calls `_claim_one` -/
  | claim {s : Service D} (h : s.worker = .idle) (hstop : s.stop = false) :
      Step s .control { s with
        worker := .claiming Worker.claimOne
        log := { queued := !s.world.db.committed.pendingJobs.isEmpty } }
  | claimStep {s : Service D} {e : Req} {k : Except PyError e.Resp → Py (Option Job)}
      {r : Except PyError e.Resp} {world : World D.external}
      (h : s.worker = .claiming (.call e k))
      (hsem : sem D.external .worker e s.world r world) :
      Step s (.worker e r) { s with
        world
        worker := .claiming (k r)
        log := s.log.record e r }
  /-- the queue was empty -/
  | claimedNone {s : Service D} (h : s.worker = .claiming (.ret none)) :
      Step s .control { s with worker := .waiting }
  /-- the pause is over -/
  | wake {s : Service D} (h : s.worker = .waiting) : Step s .control { s with worker := .idle }
  /-- a job was claimed: `_process` is called -/
  | claimedSome {s : Service D} {job : Job} (h : s.worker = .claiming (.ret (some job))) :
      Step s .control { s with
        worker := .processing job (Worker.process D.config D.reviewer.run job)
        log := {}
        started := job.id :: s.started }
  | claimRaised {s : Service D} {x : PyError} (h : s.worker = .claiming (.raise x)) :
      Step s .control { s with worker := .dead x (decide s.Holding) }
  | processStep {s : Service D} {job : Job} {e : Req} {k : Except PyError e.Resp → Py Unit}
      {r : Except PyError e.Resp} {world : World D.external}
      (h : s.worker = .processing job (.call e k))
      (hsem : sem D.external .worker e s.world r world) :
      Step s (.worker e r) { s with
        world
        worker := .processing job (k r)
        log := s.log.record e r }
  /-- `_process` returned -/
  | processed {s : Service D} {job : Job} (h : s.worker = .processing job (.ret ())) :
      Step s .control { s with worker := .idle }
  | processRaised {s : Service D} {job : Job} {x : PyError}
      (h : s.worker = .processing job (.raise x)) :
      Step s .control { s with worker := .dead x (decide s.Holding) }
  /-- the process dies, with all its tasks -/
  | crash {s : Service D} :
      Step s .crash { s with
        world := { s.world with db := s.world.db.crash }
        worker := .down
        calls := fun _ => none }

/-- The states reachable by runs whose every step meets `P`, a condition on the state before the
step and on the event. -/
inductive ReachableIf (P : Service D → Event D → Prop) : Service D → Prop where
  | initial (ext : D.external.State) : ReachableIf P (Service.initial D ext)
  | step {s s' : Service D} {ev : Event D} (h : ReachableIf P s) (hs : Step s ev s')
      (hP : P s ev) : ReachableIf P s'

/-- The states a run can reach, whatever its steps are: any interleaving of the tasks, any answers,
and crashes at any time. -/
abbrev Reachable (s : Service D) : Prop := ReachableIf (fun _ _ => True) s

end Service

end VidiPr
