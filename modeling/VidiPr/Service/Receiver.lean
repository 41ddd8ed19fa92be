import VidiPr.Service.Footprint
import VidiPr.Service.WebhookSpec

/-!
# The receiver of webhook deliveries

Any number of requests in progress at once beside the worker, with crashes between any two of
their steps. A request that is sent again is another attempt with the same delivery id.

* **`Webhook.Phase`** — where an attempt is: before the handler is called, inside it, closing its
  session, answered. `Phase.rest` is what is left of the route; `rest_start` and `Asks.rest` say
  that the phases run the route and nothing else.
* **`Receiver.Step`** — one step of one attempt, of the worker or of the outside.
* **`Phase.Ok`** — what an attempt keeps: it is still safe to run.
* **`worker_deliveries`** — the worker leaves the delivery table alone.
-/

namespace VidiPr

open Effect Prog Text

/-- Where an attempt to handle a request is. -/
inductive Webhook.Phase where
  /-- in `process_webhook`, before the handler is called -/
  | receiving (p : Py (Option WebhookEvent))
  /-- in the handler -/
  | handling (p : Py Unit)
  /-- `process_webhook` is over and the session is being closed -/
  | closing (r : Except PyError Bool) (p : Py Unit)
  | answered (r : Except PyError Nat)

namespace Webhook.Phase

/-- Closing the session and answering: the exception of the route, if there is one, is raised again
behind the rollback, and the response depends on it. -/
def close (r : Except PyError Bool) (p : Py Unit) : Py Nat :=
  (p.bind fun _ => Prog.ofExcept r).andThen fun r' => Prog.ofExcept (answer r')

/-- What is left of the route when an attempt is in this phase, put together as the source has
it. -/
def rest (handler : EventHandler) : Phase → Py Nat
  | receiving p => (p.bind (handle handler)).andThen fun r => close r Py.rollback
  | handling p => (p.bind fun _ => .ret true).andThen fun r => close r Py.rollback
  | closing r p => close r p
  | answered r => Prog.ofExcept r

/-- A request has come in. What the checks of its size refuse is answered at once, and everything
else opens a session. -/
def start [WebhookLibrary] (secret : String) (request : WebhookRequest) : Phase :=
  match refusal request with
  | some status => answered (.ok status)
  | none => receiving (receive secret request)

/-- The phase makes a request, and what becomes of it with each answer. -/
inductive Asks : Phase → (e : Req) → (Except PyError e.Resp → Phase) → Prop where
  | receiving {e : Req} (k : Except PyError e.Resp → Py (Option WebhookEvent)) :
      Asks (receiving (.call e k)) e fun r => receiving (k r)
  | handling {e : Req} (k : Except PyError e.Resp → Py Unit) :
      Asks (handling (.call e k)) e fun r => handling (k r)
  | closing {e : Req} (r : Except PyError Bool) (k : Except PyError e.Resp → Py Unit) :
      Asks (closing r (.call e k)) e fun r' => closing r (k r')

/-- The phases start as the route: put together again, they are `webhook` itself, request by
request. -/
theorem rest_start [WebhookLibrary] (secret : String) (handler : EventHandler)
    (request : WebhookRequest) :
    (start secret request).rest handler = webhook secret handler request := by
  rw [webhook_eq, processWebhook_eq]
  unfold start
  cases refusal request with
  | some status => rfl
  | none => simp only [rest, close, Py.withSession, Prog.finally', andThen_assoc]

/-- They make the requests of the route. -/
theorem Asks.rest {handler : EventHandler} {phase : Phase} {e : Req}
    {next : Except PyError e.Resp → Phase} (h : phase.Asks e next) :
    phase.rest handler = .call e fun r => (next r).rest handler := by
  cases h <;> rfl

/-- And go on as the route does where they make none. -/
theorem rest_dispatch (handler : EventHandler) (event : WebhookEvent) :
    (receiving (.ret (some event))).rest handler =
      (handling (dispatch handler event)).rest handler := rfl

theorem rest_duplicate (handler : EventHandler) :
    (receiving (.ret none)).rest handler = (closing (.ok false) Py.rollback).rest handler := rfl

theorem rest_complete (handler : EventHandler) :
    (handling (.ret ())).rest handler = (closing (.ok true) Py.rollback).rest handler := rfl

theorem rest_closed (handler : EventHandler) (r : Except PyError Bool) :
    (closing r (.ret ())).rest handler = (answered (answer r)).rest handler := by
  cases r <;> rfl

end Webhook.Phase

open Webhook (Phase)

/-! ## The system -/

/-- A request in progress: the HTTP request, and how far its handling has come. -/
structure Attempt where
  request : WebhookRequest
  phase : Phase

/-- The state of the receiver. `next` names the attempts apart. `dispatched` are the attempts for
which the handler was called and `handled` the requests for which it returned, newest first; the
code keeps neither. -/
structure Receiver (X : External) where
  world : World X
  attempts : Nat → Option Attempt
  next : Nat
  dispatched : List (Nat × WebhookRequest)
  handled : List WebhookRequest

/-- A request that does not record a delivery: any but the insertion into `webhook_deliveries`. -/
def Req.SparesDeliveries : Req → Prop
  | .sql (.dml (.insertDelivery _)) => False
  | _ => True

namespace Receiver

variable {X : External}

def initial (ext : X.State) : Receiver X where
  world := { db := { committed := Db.empty }, ext }
  attempts _ := none
  next := 0
  dispatched := []
  handled := []

/-- The delivery was dispatched to completion: the handler was called for a request with its id, and
returned. -/
def Handled (s : Receiver X) (deliveryId : String) : Prop :=
  ∃ request ∈ s.handled, request.deliveryId = some deliveryId

/-- What a step was; the number is that of the attempt. -/
inductive Event where
  | external
  | worker
  | arrive (request : WebhookRequest)
  /-- the attempt makes a request, which may fail -/
  | call (n : Nat) (failed : Bool)
  /-- the handler is called -/
  | dispatch (n : Nat) (event : WebhookEvent)
  /-- the delivery is dropped as a duplicate -/
  | duplicate (n : Nat)
  /-- the handler returned -/
  | complete (n : Nat)
  /-- an exception left `process_webhook` -/
  | fail (n : Nat)
  | close (n : Nat)
  | answer (n : Nat) (r : Except PyError Nat)
  | crash

/-- The attempt that made the step, where one of them did: the world, the worker and a crash are
nobody's. -/
def Event.attempt : Event → Option Nat
  | .call n _ | .dispatch n _ | .duplicate n | .complete n | .fail n | .close n | .answer n _ =>
    some n
  | .external | .worker | .arrive _ | .crash => none

/-- Attempt `n` goes on in another phase. -/
def goTo (s : Receiver X) (n : Nat) (request : WebhookRequest) (phase : Phase) : Receiver X :=
  { s with attempts := Function.update s.attempts n (some ⟨request, phase⟩) }

/-- Attempt `n` is over. -/
def drop (s : Receiver X) (n : Nat) : Receiver X :=
  { s with attempts := Function.update s.attempts n none }

section

variable {s : Receiver X} {n m : Nat} {request : WebhookRequest} {phase : Phase}
  {attempt : Attempt}

theorem goTo_self (s : Receiver X) (n : Nat) (request : WebhookRequest) (phase : Phase) :
    (s.goTo n request phase).attempts n = some ⟨request, phase⟩ :=
  Function.update_self n _ s.attempts

theorem goTo_other (s : Receiver X) {n m : Nat} (hne : m ≠ n) (request : WebhookRequest)
    (phase : Phase) : (s.goTo n request phase).attempts m = s.attempts m :=
  Function.update_of_ne hne _ s.attempts

theorem goTo_eq_some (h : (s.goTo n request phase).attempts m = some attempt) :
    (m = n ∧ attempt = ⟨request, phase⟩) ∨ (m ≠ n ∧ s.attempts m = some attempt) := by
  by_cases heq : m = n
  · rw [heq] at h
    simp only [goTo, Function.update_self] at h
    exact Or.inl ⟨heq, (Option.some.inj h).symm⟩
  · simp only [goTo, Function.update_of_ne heq] at h
    exact Or.inr ⟨heq, h⟩

theorem goTo_eq_none (h : (s.goTo n request phase).attempts m = none) :
    m ≠ n ∧ s.attempts m = none := by
  by_cases heq : m = n
  · rw [heq] at h
    simp only [goTo, Function.update_self] at h
    cases h
  · simp only [goTo, Function.update_of_ne heq] at h
    exact ⟨heq, h⟩

theorem drop_eq_some (h : (s.drop n).attempts m = some attempt) :
    m ≠ n ∧ s.attempts m = some attempt := by
  by_cases heq : m = n
  · rw [heq] at h
    simp only [drop, Function.update_self] at h
    cases h
  · simp only [drop, Function.update_of_ne heq] at h
    exact ⟨heq, h⟩

theorem drop_eq_none (h : (s.drop n).attempts m = none) : m = n ∨ s.attempts m = none := by
  by_cases heq : m = n
  · exact Or.inl heq
  · simp only [drop, Function.update_of_ne heq] at h
    exact Or.inr h

end

variable [UnicodeDb] [ConfigLibrary] [WebhookLibrary] (secret : String)
  (handler : OrchestrationHandler)

/-- One step of the receiver: a move of the world, a request of the worker, a request that comes in,
or the next thing that one of the attempts does. The process may die between any two of them. -/
inductive Step : Receiver X → Event → Receiver X → Prop where
  | external {s : Receiver X} {ext : X.State} (h : X.move s.world.ext ext) :
      Step s .external { s with world := { s.world with ext } }
  /-- the worker makes a request; it never records a delivery -/
  | worker {s : Receiver X} {e : Req} {r : Except PyError e.Resp} {world : World X}
      (he : e.SparesDeliveries) (hsem : sem X .worker e s.world r world) :
      Step s .worker { s with world }
  /-- a request comes in -/
  | arrive {s : Receiver X} (request : WebhookRequest) :
      Step s (.arrive request) { s.goTo s.next request (Phase.start secret request) with
        next := s.next + 1 }
  /-- an attempt makes one request -/
  | call {s : Receiver X} {n : Nat} {request : WebhookRequest} {phase : Phase} {e : Req}
      {next : Except PyError e.Resp → Phase} {r : Except PyError e.Resp} {world : World X}
      (h : s.attempts n = some ⟨request, phase⟩) (hasks : phase.Asks e next)
      (hsem : sem X (.call n) e s.world r world) :
      Step s (.call n (!r.isOk)) { s.goTo n request (next r) with world }
  /-- the handler is called -/
  | dispatch {s : Receiver X} {n : Nat} {request : WebhookRequest} {event : WebhookEvent}
      (h : s.attempts n = some ⟨request, .receiving (.ret (some event))⟩) :
      Step s (.dispatch n event)
        { s.goTo n request (.handling (Webhook.dispatch handler.eventHandler event)) with
          dispatched := (n, request) :: s.dispatched }
  /-- the row of the delivery was there -/
  | duplicate {s : Receiver X} {n : Nat} {request : WebhookRequest}
      (h : s.attempts n = some ⟨request, .receiving (.ret none)⟩) :
      Step s (.duplicate n) (s.goTo n request (.closing (.ok false) Py.rollback))
  /-- the handler returned -/
  | complete {s : Receiver X} {n : Nat} {request : WebhookRequest}
      (h : s.attempts n = some ⟨request, .handling (.ret ())⟩) :
      Step s (.complete n) { s.goTo n request (.closing (.ok true) Py.rollback) with
        handled := request :: s.handled }
  /-- an exception before the handler was called, or out of the handler -/
  | refuse {s : Receiver X} {n : Nat} {request : WebhookRequest} {x : PyError}
      (h : s.attempts n = some ⟨request, .receiving (.raise x)⟩) :
      Step s (.fail n) (s.goTo n request (.closing (.error x) Py.rollback))
  | fail {s : Receiver X} {n : Nat} {request : WebhookRequest} {x : PyError}
      (h : s.attempts n = some ⟨request, .handling (.raise x)⟩) :
      Step s (.fail n) (s.goTo n request (.closing (.error x) Py.rollback))
  /-- the session is closed -/
  | close {s : Receiver X} {n : Nat} {request : WebhookRequest} {r : Except PyError Bool}
      (h : s.attempts n = some ⟨request, .closing r (.ret ())⟩) :
      Step s (.close n) (s.goTo n request (.answered (Webhook.answer r)))
  /-- the request is answered -/
  | answer {s : Receiver X} {n : Nat} {request : WebhookRequest} {r : Except PyError Nat}
      (h : s.attempts n = some ⟨request, .answered r⟩) :
      Step s (.answer n r) (s.drop n)
  /-- the process dies -/
  | crash {s : Receiver X} :
      Step s .crash { s with
        world := { s.world with db := s.world.db.crash }
        attempts := fun _ => none }

/-- The states reachable by runs whose every step meets `P`. -/
inductive ReachableIf (P : Receiver X → Event → Prop) : Receiver X → Prop where
  | initial (ext : X.State) : ReachableIf P (Receiver.initial ext)
  | step {s s' : Receiver X} {ev : Event} (h : ReachableIf P s) (hs : Step secret handler s ev s')
      (hP : P s ev) : ReachableIf P s'

/-- The states a run can reach, with any number of attempts in progress and any answers to what they
ask. -/
abbrev Reachable (s : Receiver X) : Prop :=
  ReachableIf secret handler (fun _ _ => True) s

end Receiver

/-! ## What an attempt keeps -/

section Ok

variable {X : External} {K : StoreContract} {n : Nat} {P : Prop} {Q C : Sqlite → Prop}

/-- The attempt is safe to run: `P` holds where its delivery is dropped, `Q` where it is to be
dispatched, and `C` once the session is closed. -/
def Webhook.Phase.Ok (X : External) (n : Nat) (K : StoreContract) (P : Prop) (Q C : Sqlite → Prop) :
    Phase → World X → Prop
  | .receiving p => Safe (callSetting X n K) p fun r => onDb (Received n P Q r)
  | .handling p => Safe (callSetting X n K) p fun _ => onDb (Idle (.call n))
  | .closing _ p => Safe (callSetting X n K) p fun _ => onDb fun s => Idle (.call n) s ∧ C s
  | .answered _ => onDb fun s => Idle (.call n) s ∧ C s

/-- A step of anybody else: where it respects the contract, the phase stays sound, also if a
transaction of the attempt is open. -/
theorem Webhook.Phase.Ok.env {phase : Phase} {w w' : World X} (h : phase.Ok X n K P Q C w)
    (hC : (callSetting X n K).Stable (onDb C)) (hi : (callSetting X n K).inv w)
    (hrely : (callSetting X n K).rely w w') (hi' : (callSetting X n K).inv w') :
    phase.Ok X n K P Q C w' := by
  cases phase with
  | receiving p => exact Safe.env h hrely hi'
  | handling p => exact Safe.env h hrely hi'
  | closing r p => exact Safe.env h hrely hi'
  | answered r => exact stable_idle.and hC w w' h hi hrely hi'

/-- A request of the attempt itself: it keeps what the others rely on, and the phase it leads to is
sound again. -/
theorem Webhook.Phase.Ok.asks {phase : Phase} {e : Req} {next : Except PyError e.Resp → Phase}
    {r : Except PyError e.Resp} {w w' : World X} (h : phase.Ok X n K P Q C w)
    (hasks : phase.Asks e next) (hsem : sem X (.call n) e w r w') :
    K.guar w.db.committed w'.db.committed ∧ (next r).Ok X n K P Q C w' := by
  cases hasks with
  | receiving k => exact Safe.step h hsem
  | handling k => exact Safe.step h hsem
  | closing r' k => exact Safe.step h hsem

/-- The session of an attempt is about to be closed. -/
theorem Webhook.Phase.ok_closing {w : World X} (hC : (callSetting X n K).Stable (onDb C))
    (hroll : ∀ s, C s → C (s.rollback (.call n))) (hi : (callSetting X n K).inv w) (h : C w.db)
    (r : Except PyError Bool) : (Phase.closing r Py.rollback).Ok X n K P Q C w := by
  have hclose := (rollback_triple hC hroll).conseq (fun _ _ hs => hs) (fun _ _ _ hs => hs.2)
    fun _ => stable_idle.and hC
  exact Safe.of_triple hclose hi h

theorem Webhook.Phase.ok_handling [UnicodeDb] [ConfigLibrary] {w : World X}
    {handler : OrchestrationHandler}
    {event : WebhookEvent} (hEnqueue : ∀ args, K.Allows (Enqueued args))
    (h : (Phase.receiving (.ret (some event))).Ok X n K P Q C w) :
    (Phase.handling (Webhook.dispatch handler.eventHandler event)).Ok X n K P Q C w :=
  Safe.of_triple (dispatch_triple hEnqueue handler event) h.inv (Safe.ok h _ rfl).1

/-- A request that has just come in. -/
theorem Webhook.Phase.ok_start [WebhookLibrary] {w : World X} {secret : String}
    {request : WebhookRequest}
    (hRecord : ∀ id, request.deliveryId = some id → K.Allows (DeliveryRecorded id))
    (hP : ∀ id, request.deliveryId = some id → K.Keeps P id)
    (hQ : (callSetting X n K).Stable (onDb Q)) (hest : Establishes n request Q)
    (hi : (callSetting X n K).inv w) (hidle : Idle (.call n) w.db)
    (hknown : ∀ id, request.deliveryId = some id → KnownIf P id w.db) (hC : C w.db) :
    (Phase.start secret request).Ok X n K P Q C w := by
  unfold Phase.start
  split
  · exact ⟨hidle, hC⟩
  · exact Safe.of_triple (receive_triple hRecord hP hQ hest) hi ⟨hidle, hknown⟩

end Ok

/-! ## What the worker keeps -/

theorem Dml.For.spares {job : Job} {d : Dml} (h : d.For job) :
    (Req.sql (.dml d)).SparesDeliveries := by
  cases h <;> trivial

theorem Req.Writes.spares {O : Dml → Prop} (hO : ∀ d, O d → (Req.sql (.dml d)).SparesDeliveries)
    {e : Req} (he : e.Writes O) : e.SparesDeliveries := by
  unfold Req.SparesDeliveries
  split
  · exact hO _ he
  · trivial

/-- The worker never records a delivery. -/
theorem claimOne_spares : Worker.claimOne.Calls Req.SparesDeliveries := by
  have hclose : ∀ {p : Py (Option Job)} {O : Dml → Prop},
      (∀ d, O d → (Req.sql (.dml d)).SparesDeliveries) → p.Calls (Req.Writes O) →
      (Py.withSession p).Calls Req.SparesDeliveries :=
    fun hO hp => (withSession_writes hp).mono fun e he => he.spares hO
  rw [claimOne_eq]
  refine ⟨trivial, fun r => ?_⟩
  rcases r with x | found
  · exact hclose (O := fun _ => False) (fun _ => False.elim) trivial
  · cases found with
    | none => exact hclose (O := fun _ => False) (fun _ => False.elim) trivial
    | some job => exact hclose (fun _ => Dml.For.spares) (claimRest_writes job)

theorem process_spares [UnicodeDb] (config : OperatorConfig) (reviewer : ReviewRoutine)
    (job : Job) : (Worker.process config reviewer.run job).Calls Req.SparesDeliveries :=
  (process_writes config reviewer job).mono fun _ he => he.spares fun _ => Dml.For.spares

/-- The transaction of the worker, if it has one, leaves the delivery table alone. -/
def WorkerSpares (s : Sqlite) : Prop :=
  ∀ work, s.tx = some (.worker, work) → work.webhookDeliveries = s.committed.webhookDeliveries

theorem deliveries_apply {d : Dml} {db : Db} (h : (Req.sql (.dml d)).SparesDeliveries) :
    (d.apply db).2.webhookDeliveries = db.webhookDeliveries := by
  cases d with
  | insertDelivery delivery => exact h.elim
  | _ => rfl

/-- A request of the worker: it writes no delivery into its copy, so that its commits leave the
table as it is. -/
theorem worker_deliveries {X : External} {e : Req} {w w' : World X} {r : Except PyError e.Resp}
    (he : e.SparesDeliveries) (hsem : sem X .worker e w r w') (h : WorkerSpares w.db) :
    w'.db.committed.webhookDeliveries = w.db.committed.webhookDeliveries ∧ WorkerSpares w'.db := by
  have hwrites : e.Writes fun d => (Req.sql (.dml d)).SparesDeliveries := by
    unfold Req.Writes
    split
    · exact he
    · trivial
  exact tx_step (R := fun db db' => db'.webhookDeliveries = db.webhookDeliveries)
    (fun _ => rfl) (fun h₁ h₂ => h₂.trans h₁) (fun _ hd _ => deliveries_apply hd) hwrites hsem h

/-- Everybody else, and a crash, leaves the worker's transaction alone. -/
theorem WorkerSpares.env {a : Actor} {s s' : Sqlite} (h : WorkerSpares s) (ha : a ≠ .worker)
    (hstep : ActorStep a s s') : WorkerSpares s' :=
  TxKeeps.env (R := fun db db' => db'.webhookDeliveries = db.webhookDeliveries) h ha hstep

/-! ## What an invariant of the receiver is built on -/

section Sound

variable {X : External} {Ok : Nat → Attempt → World X → Prop} {s : Receiver X}

/-- Every attempt in progress is as `Ok` says, and numbers that are not in use own nothing. -/
structure Receiver.Sound (Ok : Nat → Attempt → World X → Prop) (s : Receiver X) : Prop where
  attempts : ∀ n attempt, s.attempts n = some attempt → Ok n attempt s.world
  free : ∀ n, s.attempts n = none → Idle (.call n) s.world.db
  fresh : ∀ n, s.next ≤ n → s.attempts n = none
  worker : WorkerSpares s.world.db

/-- The world moves by a step of attempt `n`, or of nobody here. -/
structure Receiver.Moves (Ok : Nat → Attempt → World X → Prop) (s : Receiver X) (n : Option Nat)
    (world : World X) : Prop where
  others : ∀ m attempt, some m ≠ n → s.attempts m = some attempt → Ok m attempt world
  idle : ∀ m, some m ≠ n → Idle (.call m) s.world.db → Idle (.call m) world.db
  worker : WorkerSpares world.db

namespace Receiver.Sound

/-- The invariant looks at the world, the attempts and the next number only. So it survives a change
of the histories, and of what is kept of an attempt, as long as nothing is lost for those in
progress. -/
theorem transport {Ok' : Nat → Attempt → World X → Prop} {s' : Receiver X} (h : Sound Ok s)
    (hworld : s'.world = s.world) (hattempts : s'.attempts = s.attempts) (hnext : s'.next = s.next)
    (hok : ∀ n attempt, Ok n attempt s.world → Ok' n attempt s.world) : Sound Ok' s' where
  attempts n attempt hn := by
    rw [hattempts] at hn
    rw [hworld]
    exact hok n attempt (h.attempts n attempt hn)
  free n hn := by
    rw [hattempts] at hn
    rw [hworld]
    exact h.free n hn
  fresh n hn := by
    rw [hnext] at hn
    rw [hattempts]
    exact h.fresh n hn
  worker := by
    rw [hworld]
    exact h.worker

theorem initial (ext : X.State) : Sound Ok (Receiver.initial ext) where
  attempts n attempt h := by cases h
  free n _ := by simp [Receiver.initial, Idle, Sqlite.Owns]
  fresh n _ := rfl
  worker work h := by cases h

theorem stays (h : Sound Ok s) (n : Option Nat) : Moves Ok s n s.world :=
  ⟨fun m attempt _ hm => h.attempts m attempt hm, fun _ _ hidle => hidle, h.worker⟩

/-- A number in use is smaller than the next one. -/
theorem lt_next (h : Sound Ok s) {n : Nat} {attempt : Attempt}
    (hn : s.attempts n = some attempt) : n < s.next := by
  by_contra hle
  rw [h.fresh n (by omega)] at hn
  cases hn

/-- The world moves on its own, or by a step of the worker. -/
theorem moved (h : Sound Ok s) {world : World X} (hmoves : Moves Ok s none world) :
    Sound Ok { s with world } :=
  ⟨fun n attempt hn => hmoves.others n attempt nofun hn,
    fun n hn => hmoves.idle n nofun (h.free n hn), h.fresh, hmoves.worker⟩

theorem goTo (h : Sound Ok s) {n : Nat} {request : WebhookRequest} {phase : Phase}
    {world : World X} (hmoves : Moves Ok s (some n) world) (hok : Ok n ⟨request, phase⟩ world)
    (hnext : n < s.next) : Sound Ok { s.goTo n request phase with world } := by
  have hsome : ∀ {m : Nat}, m ≠ n → some m ≠ some n := fun hne heq => hne (Option.some.inj heq)
  constructor
  · intro m attempt hm
    rcases goTo_eq_some hm with ⟨rfl, rfl⟩ | ⟨hne, hold⟩
    · exact hok
    · exact hmoves.others m attempt (hsome hne) hold
  · intro m hm
    obtain ⟨hne, hold⟩ := goTo_eq_none hm
    exact hmoves.idle m (hsome hne) (h.free m hold)
  · intro m hm
    have hne : m ≠ n := by
      have : s.next ≤ m := hm
      omega
    exact (goTo_other s hne request phase).trans (h.fresh m hm)
  · exact hmoves.worker

theorem arrive (h : Sound Ok s) {request : WebhookRequest} {phase : Phase}
    (hok : Ok s.next ⟨request, phase⟩ s.world) :
    Sound Ok { s.goTo s.next request phase with next := s.next + 1 } := by
  have hbump : Sound Ok { s with next := s.next + 1 } :=
    ⟨h.attempts, h.free, fun n hn => h.fresh n (Nat.le_of_succ_le hn), h.worker⟩
  exact hbump.goTo (hbump.stays _) hok (Nat.lt_succ_self _)

theorem drop (h : Sound Ok s) {n : Nat} (hidle : Idle (.call n) s.world.db) :
    Sound Ok (s.drop n) := by
  refine ⟨fun m attempt hm => h.attempts m attempt (drop_eq_some hm).2, fun m hm => ?_,
    fun m hm => ?_, h.worker⟩
  · rcases drop_eq_none hm with rfl | hfree
    · exact hidle
    · exact h.free m hfree
  · show Function.update s.attempts n none m = none
    by_cases heq : m = n
    · rw [heq, Function.update_self]
    · rw [Function.update_of_ne heq]
      exact h.fresh m hm

/-- The process dies: no attempt is left to be sound, and no transaction of the worker to be careful
with. -/
theorem crash : Sound Ok { s with
    world := { s.world with db := s.world.db.crash }
    attempts := fun _ => none } := by
  constructor
  · intro n attempt hn
    cases hn
  · intro n _
    simp [Idle, Sqlite.crash, Sqlite.Owns]
  · intro n _
    rfl
  · intro work hwork
    cases hwork

end Receiver.Sound

end Sound

end VidiPr
