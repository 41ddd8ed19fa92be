import VidiPr.Service.ReceiverSchedule

/-!
# Who is dispatched, and how often

* **`RecordedBy`** — whose commit put the row of a delivery into the store. There is one such
  actor (`RecordedBy.unique`), and it stays the same one (`OwnsDelivery.step`).
* **`DispatchInv`** — the invariant: the handler was called only for authentic requests, each
  time by the attempt that recorded the delivery.
* **`dispatchInv_step`**, **`dispatchInv_reachable`** — the step lemma and the run lemma.
* **`authentic_and_once`** — a request that is not authentic changes nothing, and the handler is
  called at most once for a delivery.
-/

namespace VidiPr

open Effect Prog Text
open Webhook (Phase)

/-- All three headers are there, and the signature is the one of this body. -/
def WebhookRequest.Authentic [WebhookLibrary] (secret : String) (request : WebhookRequest) :
    Prop :=
  ∃ signature eventType deliveryId, request.signature = some signature ∧
    request.eventType = some eventType ∧ request.deliveryId = some deliveryId ∧
    WebhookLibrary.verify secret request.body signature = true

/-! ## Who recorded a delivery -/

/-- The commit of `a` put the row of a delivery into the store, and it has been there since. -/
inductive RecordedBy (deliveryId : String) (a : Actor) : Db → List (Actor × Db) → Prop where
  | here {after before : Db} {older : List (Actor × Db)} (hnew : ¬ before.HasDelivery deliveryId)
      (h : after.HasDelivery deliveryId) : RecordedBy deliveryId a after ((a, before) :: older)
  | later {after before : Db} {older : List (Actor × Db)} {b : Actor}
      (hold : before.HasDelivery deliveryId) (h : after.HasDelivery deliveryId)
      (hrest : RecordedBy deliveryId a before older) :
      RecordedBy deliveryId a after ((b, before) :: older)

theorem RecordedBy.hasDelivery {deliveryId : String} {a : Actor} {db : Db}
    {log : List (Actor × Db)} (h : RecordedBy deliveryId a db log) : db.HasDelivery deliveryId := by
  cases h with
  | here _ h => exact h
  | later _ h _ => exact h

theorem RecordedBy.unique {deliveryId : String} {a b : Actor} {db : Db} {log : List (Actor × Db)}
    (h : RecordedBy deliveryId a db log) (h' : RecordedBy deliveryId b db log) : a = b := by
  induction h with
  | here hnew _ =>
    cases h' with
    | here _ _ => rfl
    | later hold _ _ => exact absurd hold hnew
  | later hold _ _ ih =>
    cases h' with
    | here hnew _ => exact absurd hold hnew
    | later _ _ hrest => exact ih hrest

/-- Attempt `n` recorded the delivery of its request. -/
def OwnsDelivery (n : Nat) (request : WebhookRequest) (s : Sqlite) : Prop :=
  ∀ deliveryId, request.deliveryId = some deliveryId →
    RecordedBy deliveryId (.call n) s.committed s.log

/-- Rows of deliveries are never lost. -/
def KeepsDeliveries (db db' : Db) : Prop :=
  ∀ deliveryId, db.HasDelivery deliveryId → db'.HasDelivery deliveryId

theorem OwnsDelivery.step {n : Nat} {request : WebhookRequest} {a : Actor} {s s' : Sqlite}
    (h : OwnsDelivery n request s) (hstep : ActorStep a s s')
    (hkeeps : KeepsDeliveries s.committed s'.committed) : OwnsDelivery n request s' := by
  intro deliveryId hid
  have hrec := h deliveryId hid
  have hhad : s.committed.HasDelivery deliveryId := hrec.hasDelivery
  rcases hstep.log with ⟨hlog, hcommitted⟩ | hlog
  · rwa [hlog, hcommitted]
  · rw [hlog]
    exact .later hhad (hkeeps deliveryId hhad) hrec

/-! ## The invariant -/

/-- What attempts owe to one another: no row of a delivery is lost. -/
def keepingContract : StoreContract where
  inv _ := True
  guar := KeepsDeliveries
  refl _ _ h := h
  rely := KeepsDeliveries

theorem keepingContract_enqueued (args : EnqueueArgs) : keepingContract.Allows (Enqueued args) := by
  rintro db db' - ⟨job, lock, h⟩
  refine ⟨trivial, fun deliveryId hhas => ?_⟩
  rw [Db.HasDelivery, h.deliveries]
  exact hhas

theorem keepingContract_recorded (deliveryId : String) :
    keepingContract.Allows (DeliveryRecorded deliveryId) := by
  intro db db' _ h
  refine ⟨trivial, fun other hhas => ?_⟩
  by_cases heq : other = deliveryId
  · rw [heq]
    exact h.recorded
  · exact (h.others other heq).mpr hhas

section

variable {X : External} {n : Nat}

theorem stable_ownsDelivery {request : WebhookRequest} :
    (callSetting X n keepingContract).Stable (onDb (OwnsDelivery n request)) := by
  rintro w w' h _ ⟨⟨a, _, hstep⟩, hkeeps⟩ _
  exact OwnsDelivery.step h hstep hkeeps

theorem establishes_ownsDelivery {request : WebhookRequest} :
    Establishes n request (OwnsDelivery n request) := by
  intro deliveryId hid s work hwritten other hother
  cases hid.symm.trans hother
  refine .here ?_ hwritten.1.recorded
  intro hold
  exact absurd (hwritten.2.mpr hold) (by decide)

/-- An attempt of a request that is not authentic: it will be refused. -/
def Webhook.Phase.Harmless : Phase → Prop
  | .receiving p => ∃ x, p = .raise x
  | .handling _ => False
  | .closing _ p => p.Calls fun e => e = .sql .rollback
  | .answered _ => True

theorem receive_of_not_authentic [WebhookLibrary] {secret : String} {request : WebhookRequest}
    (h : ¬ request.Authentic secret) : ∃ x, Webhook.receive secret request = .raise x := by
  unfold Webhook.receive
  split
  · exact ⟨_, rfl⟩
  · exact ⟨_, rfl⟩
  · exact ⟨_, rfl⟩
  · rename_i signature eventType deliveryId hsig hev hid
    split
    · exact ⟨_, rfl⟩
    · rename_i hverify
      exact absurd ⟨signature, eventType, deliveryId, hsig, hev, hid, by simpa using hverify⟩ h

theorem harmless_start [WebhookLibrary] {secret : String} {request : WebhookRequest}
    (h : ¬ request.Authentic secret) : (Phase.start secret request).Harmless := by
  unfold Phase.start
  split
  · trivial
  · exact receive_of_not_authentic h

/-- All that a harmless attempt asks for is to close its session. -/
theorem Webhook.Phase.Harmless.asks {phase : Phase} {e : Req}
    {next : Except PyError e.Resp → Phase} (h : phase.Harmless) (hasks : phase.Asks e next) :
    e = .sql .rollback ∧ ∀ r, (next r).Harmless := by
  cases hasks with
  | receiving k =>
    obtain ⟨x, hraise⟩ := h
    cases hraise
  | handling k => exact h.elim
  | closing r k => exact h

/-- After a rollback there is no transaction. -/
theorem rollback_idle {e : Req} {w w' : World X} {r : Except PyError e.Resp}
    (he : e = .sql .rollback) (hsem : sem X (.call n) e w r w') : Idle (.call n) w'.db := by
  subst he
  rw [Idle, hsem.1.2]
  exact Sqlite.not_owns_rollback _ _

theorem harmless_closing (r : Except PyError Bool) :
    (Phase.closing r Py.rollback).Harmless := by
  have hcalls : Py.rollback.Calls fun e => e = .sql .rollback := calls_perform rfl
  exact hcalls

end

section Invariant

variable {X : External}

/-- The attempt is safe to run, and has recorded its delivery when it is to be dispatched. -/
def Attempt.Ok (n : Nat) (attempt : Attempt) (w : World X) : Prop :=
  attempt.phase.Ok X n keepingContract True (OwnsDelivery n attempt.request) (fun _ => True) w

/-- An actor makes a step that loses no delivery. -/
theorem Receiver.Sound.moves_keeping {s : Receiver X} (h : s.Sound Attempt.Ok) {a : Actor}
    {n : Option Nat}
    {world : World X} (ha : ∀ m, some m ≠ n → a ≠ .call m)
    (hstep : ActorStep a s.world.db world.db)
    (hkeeps : KeepsDeliveries s.world.db.committed world.db.committed)
    (hworker : WorkerSpares world.db) : s.Moves Attempt.Ok n world := by
  refine ⟨fun m attempt hne hm => ?_, fun m hne hidle => hstep.not_owns (ha m hne) hidle, hworker⟩
  have hrely : (callSetting X m keepingContract).rely s.world world :=
    ⟨⟨a, ha m hne, hstep⟩, hkeeps⟩
  exact (h.attempts m attempt hm).env (Setting.stable_const True) trivial hrely trivial

variable [WebhookLibrary] (secret : String)

/-- The invariant of the receiver: whoever reaches the handler is authentic and has recorded its
delivery, and the deliveries of those that have reached it are all different. -/
structure DispatchInv (s : Receiver X) : Prop where
  sound : s.Sound Attempt.Ok
  authentic : ∀ n attempt, s.attempts n = some attempt →
    attempt.request.Authentic secret ∨ (attempt.phase.Harmless ∧ Idle (.call n) s.world.db)
  dispatched : ∀ d ∈ s.dispatched, d.1 < s.next ∧ d.2.Authentic secret ∧
    OwnsDelivery d.1 d.2 s.world.db
  /-- an attempt that has not reached the handler is not among those that have -/
  waiting : ∀ n request p, s.attempts n = some ⟨request, .receiving p⟩ →
    ∀ d ∈ s.dispatched, d.1 ≠ n
  nodup : (s.dispatched.map (·.2.deliveryId)).Nodup

variable {secret}

theorem dispatchInv_initial (ext : X.State) :
    DispatchInv secret (Receiver.initial ext : Receiver X) where
  sound := .initial ext
  authentic n attempt h := by cases h
  dispatched d h := by cases h
  waiting n request p h := by cases h
  nodup := List.nodup_nil

/-! ## One step -/

section Steps

variable {s : Receiver X}

/-- The world moves on its own, or by a step of the worker. -/
theorem DispatchInv.moved (h : DispatchInv secret s) {world : World X}
    (hstep : ActorStep .worker s.world.db world.db)
    (hkeeps : KeepsDeliveries s.world.db.committed world.db.committed)
    (hworker : WorkerSpares world.db) : DispatchInv secret { s with world } := by
  have hmoves : s.Moves Attempt.Ok none world :=
    h.sound.moves_keeping (by simp) hstep hkeeps hworker
  refine ⟨h.sound.moved hmoves, fun n attempt hn => ?_, fun d hd => ?_, h.waiting, h.nodup⟩
  · exact (h.authentic n attempt hn).imp id fun hh => ⟨hh.1, hmoves.idle n nofun hh.2⟩
  · obtain ⟨hlt, hauth, howns⟩ := h.dispatched d hd
    exact ⟨hlt, hauth, howns.step hstep hkeeps⟩

/-- Attempt `n` goes on: the others see a step that loses no delivery, and what the invariant says
of `n` is to be shown of its new phase. -/
theorem DispatchInv.goTo (h : DispatchInv secret s) {n : Nat} {request : WebhookRequest}
    {phase : Phase} {world : World X} (hmoves : s.Moves Attempt.Ok (some n) world)
    (howns : ∀ m request, OwnsDelivery m request s.world.db → OwnsDelivery m request world.db)
    (hok : Attempt.Ok n ⟨request, phase⟩ world)
    (hauth : request.Authentic secret ∨ (phase.Harmless ∧ Idle (.call n) world.db))
    (hnext : n < s.next) (hwait : ∀ p, phase = .receiving p → ∀ d ∈ s.dispatched, d.1 ≠ n) :
    DispatchInv secret { s.goTo n request phase with world } := by
  refine ⟨h.sound.goTo hmoves hok hnext, fun m attempt hm => ?_, fun d hd => ?_,
    fun m request' p hm => ?_, h.nodup⟩
  · rcases Receiver.goTo_eq_some hm with ⟨rfl, rfl⟩ | ⟨hne, hold⟩
    · exact hauth
    · have hsome : some m ≠ some n := fun heq => hne (Option.some.inj heq)
      exact (h.authentic m attempt hold).imp id fun hh => ⟨hh.1, hmoves.idle m hsome hh.2⟩
  · obtain ⟨hlt, hauthd, hold⟩ := h.dispatched d hd
    exact ⟨hlt, hauthd, howns _ _ hold⟩
  · rcases Receiver.goTo_eq_some hm with ⟨rfl, heq⟩ | ⟨_, hold⟩
    · exact hwait p (congrArg Attempt.phase heq).symm
    · exact h.waiting m request' p hold

/-- Attempt `n` goes on without a request. -/
theorem DispatchInv.control (h : DispatchInv secret s) {n : Nat} {request : WebhookRequest}
    {old phase : Phase} (hn : s.attempts n = some ⟨request, old⟩)
    (hok : Attempt.Ok n ⟨request, phase⟩ s.world)
    (hauth : request.Authentic secret ∨ (phase.Harmless ∧ Idle (.call n) s.world.db))
    (hphase : ∀ p, phase ≠ .receiving p) : DispatchInv secret (s.goTo n request phase) :=
  h.goTo (h.sound.stays _) (fun _ _ howns => howns) hok hauth (h.sound.lt_next hn)
    fun p hp => absurd hp (hphase p)

/-- The session of an attempt is closed, whatever its outcome. -/
theorem DispatchInv.closing (h : DispatchInv secret s) {n : Nat} {request : WebhookRequest}
    {phase : Phase} (hn : s.attempts n = some ⟨request, phase⟩) (r : Except PyError Bool) :
    DispatchInv secret (s.goTo n request (.closing r Py.rollback)) := by
  have hok : Attempt.Ok n ⟨request, .closing r Py.rollback⟩ s.world :=
    Phase.ok_closing (K := keepingContract) (C := fun _ => True) (Setting.stable_const _)
      (fun _ _ => trivial) trivial trivial r
  have hauth := (h.authentic n _ hn).imp id fun hh => And.intro (harmless_closing r) hh.2
  exact h.control hn hok hauth nofun

end Steps

variable [UnicodeDb] [ConfigLibrary] {handler : OrchestrationHandler}

/-- The attempt that calls the handler has recorded its delivery, so nobody has called it for that
delivery before. -/
theorem DispatchInv.dispatch {s : Receiver X} (h : DispatchInv secret s) {n : Nat}
    {request : WebhookRequest} {event : WebhookEvent}
    (hn : s.attempts n = some ⟨request, .receiving (.ret (some event))⟩) :
    DispatchInv secret
      { s.goTo n request (.handling (Webhook.dispatch handler.eventHandler event)) with
        dispatched := (n, request) :: s.dispatched } := by
  -- it has got past the check of the signature
  have hauth : request.Authentic secret := by
    rcases h.authentic n _ hn with hauth | ⟨⟨x, hraise⟩, _⟩
    · exact hauth
    · cases hraise
  obtain ⟨_, _, howns⟩ := Safe.ok (h.sound.attempts n _ hn) _ rfl
  -- whoever was dispatched for this delivery has recorded it too, and only one can have
  have hnew : ∀ d ∈ s.dispatched, d.2.deliveryId ≠ request.deliveryId := by
    intro d hd heq
    obtain ⟨_, _, deliveryId, _, _, hid, _⟩ := hauth
    have hold := (h.dispatched d hd).2.2 deliveryId (heq.trans hid)
    have hsame : Actor.call d.1 = Actor.call n := hold.unique (howns rfl deliveryId hid)
    exact h.waiting n request _ hn d hd (Actor.call.inj hsame)
  have hok : Attempt.Ok n
      ⟨request, .handling (Webhook.dispatch handler.eventHandler event)⟩ s.world :=
    Phase.ok_handling keepingContract_enqueued (h.sound.attempts n _ hn)
  have hgo := h.control hn hok (Or.inl hauth) nofun
  refine ⟨hgo.sound.transport rfl rfl rfl fun _ _ hok => hok, hgo.authentic, fun d hd => ?_,
    fun m request' p hm d hd => ?_, ?_⟩
  · rcases List.mem_cons.mp hd with rfl | hold
    · exact ⟨h.sound.lt_next hn, hauth, howns rfl⟩
    · exact hgo.dispatched d hold
  · rcases List.mem_cons.mp hd with rfl | hold
    · -- the attempt itself is in the handler now
      rintro rfl
      simp only [Receiver.goTo, Function.update_self] at hm
      cases hm
    · exact hgo.waiting m request' p hm d hold
  · -- so its delivery is not among those dispatched before
    rw [List.map_cons, List.nodup_cons]
    refine ⟨fun hmem => ?_, h.nodup⟩
    obtain ⟨d, hd, heq⟩ := List.mem_map.mp hmem
    exact hnew d hd heq

omit [UnicodeDb] [ConfigLibrary] in
/-- A request comes in. If it is not authentic, the very start of its attempt is a refusal. -/
theorem DispatchInv.arrive {s : Receiver X} (h : DispatchInv secret s)
    (request : WebhookRequest) :
    DispatchInv secret
      { s.goTo s.next request (Phase.start secret request) with next := s.next + 1 } := by
  have hidle : Idle (.call s.next) s.world.db := h.sound.free _ (h.sound.fresh _ (Nat.le_refl _))
  have hok : Attempt.Ok s.next ⟨request, Phase.start secret request⟩ s.world :=
    Phase.ok_start (fun id _ => keepingContract_recorded id) (fun _ _ _ _ _ _ _ => trivial)
      stable_ownsDelivery establishes_ownsDelivery trivial hidle (fun _ _ _ => trivial) trivial
  refine ⟨h.sound.arrive hok, fun m attempt hm => ?_, fun d hd => ?_,
    fun m request' p hm d hd => ?_, h.nodup⟩
  · rcases Receiver.goTo_eq_some hm with ⟨rfl, rfl⟩ | ⟨_, hold⟩
    · by_cases hreq : request.Authentic secret
      · exact Or.inl hreq
      · exact Or.inr ⟨harmless_start hreq, hidle⟩
    · exact h.authentic m attempt hold
  · exact ⟨Nat.lt_succ_of_lt (h.dispatched d hd).1, (h.dispatched d hd).2⟩
  · rcases Receiver.goTo_eq_some hm with ⟨rfl, _⟩ | ⟨_, hold⟩
    · -- its number is a new one
      exact Nat.ne_of_lt (h.dispatched d hd).1
    · exact h.waiting m request' p hold d hd

omit [UnicodeDb] [ConfigLibrary] in
/-- A request of attempt `n` is answered. What it commits loses no delivery; and an attempt that is
not authentic asks for nothing but the end of its session. -/
theorem DispatchInv.called {s : Receiver X} (h : DispatchInv secret s) {n : Nat}
    {request : WebhookRequest} {phase : Phase} {e : Req} {next : Except PyError e.Resp → Phase}
    {r : Except PyError e.Resp} {world : World X} (hn : s.attempts n = some ⟨request, phase⟩)
    (hasks : phase.Asks e next) (hsem : sem X (.call n) e s.world r world) :
    DispatchInv secret { s.goTo n request (next r) with world } := by
  obtain ⟨hkeeps, hok⟩ := (h.sound.attempts n _ hn).asks (r := r) hasks hsem
  have hstep : ActorStep (.call n) s.world.db world.db := actorStep_of_sem hsem
  have hmoves : s.Moves Attempt.Ok (some n) world :=
    h.sound.moves_keeping (by simpa using fun m hne heq => hne heq.symm) hstep hkeeps
      (h.sound.worker.env (by simp) hstep)
  refine h.goTo hmoves (fun m request howns => howns.step hstep hkeeps) hok ?_
    (h.sound.lt_next hn) ?_
  · refine (h.authentic n _ hn).imp id fun hh => ?_
    obtain ⟨heq, hnext⟩ := hh.1.asks hasks
    exact ⟨hnext r, rollback_idle heq hsem⟩
  · intro p hp d hd
    cases hasks with
    -- it is still on its way to the handler
    | receiving k => exact h.waiting n request _ hn d hd
    | handling k => cases hp
    | closing r' k => cases hp

/-- Every step keeps the invariant. An attempt that goes on without a request only changes its
phase; the invariant is at stake where the handler is called. -/
theorem dispatchInv_step {s s' : Receiver X} {ev : Receiver.Event} (h : DispatchInv secret s)
    (hs : Receiver.Step secret handler s ev s') : DispatchInv secret s' := by
  cases hs with
  | external hmove => exact h.moved .same (fun _ hhas => hhas) h.sound.worker
  -- the worker touches no delivery
  | @worker e r world he hsem =>
    obtain ⟨hdeliveries, hspares⟩ := worker_deliveries he hsem h.sound.worker
    refine h.moved (actorStep_of_sem hsem) (fun deliveryId hhas => ?_) hspares
    rw [Db.HasDelivery, hdeliveries]
    exact hhas
  | arrive request => exact h.arrive request
  | call hn hasks hsem => exact h.called hn hasks hsem
  | dispatch hn => exact h.dispatch hn
  | duplicate hn => exact h.closing hn _
  -- the handler is over: the delivery goes to those that were handled
  | complete hn =>
    have hclose := h.closing hn (.ok true)
    exact ⟨hclose.sound.transport rfl rfl rfl fun _ _ hok => hok, hclose.authentic,
      hclose.dispatched, hclose.waiting, hclose.nodup⟩
  | refuse hn => exact h.closing hn _
  | fail hn => exact h.closing hn _
  -- the session is closed, so no transaction of the attempt is left
  | @close n request r hn =>
    have hdone := Safe.ok (h.sound.attempts n _ hn)
    exact h.control hn hdone (Or.inr ⟨trivial, hdone.1⟩) fun p hp => by cases hp
  -- the attempt is gone, and the others are as they were
  | @answer n request r hn =>
    exact ⟨h.sound.drop (h.sound.attempts n _ hn).1,
      fun m attempt hm => h.authentic m attempt (Receiver.drop_eq_some hm).2, h.dispatched,
      fun m request' p hm => h.waiting m request' p (Receiver.drop_eq_some hm).2, h.nodup⟩
  -- no attempt survives, and a transaction that is lost owned nothing that counts
  | crash =>
    refine ⟨.crash, fun n attempt hn => ?_, h.dispatched, fun n request p hn => ?_, h.nodup⟩
    · cases hn
    · cases hn

/-- The invariant holds along every run, under any condition on its steps, so in the careful runs
too. -/
theorem dispatchInv_reachable {P : Receiver X → Receiver.Event → Prop} {s : Receiver X}
    (h : Receiver.ReachableIf secret handler P s) : DispatchInv secret s := by
  induction h with
  | initial ext => exact dispatchInv_initial ext
  | step _ hs _ ih => exact dispatchInv_step ih hs

/-! ## The results of the receiver -/

/-- The only step on the store of an attempt that is not authentic is closing its session, and that
has no transaction to take back. So the store is as it was, and the handler is not called. -/
theorem DispatchInv.unchanged {s s' : Receiver X} {ev : Receiver.Event} {n : Nat}
    {attempt : Attempt} (h : DispatchInv secret s) (hs : Receiver.Step secret handler s ev s')
    (hev : ev.attempt = some n) (hn : s.attempts n = some attempt)
    (hauth : ¬ attempt.request.Authentic secret) :
    s'.world.db = s.world.db ∧ ∀ event, ev ≠ .dispatch n event := by
  obtain ⟨hharmless, hidle⟩ := (h.authentic n attempt hn).resolve_left hauth
  cases hs with
  | external _ => cases hev
  | worker _ _ => cases hev
  | arrive _ => cases hev
  | crash => cases hev
  | @call m request phase e next r world hm hasks hsem =>
    cases hev
    cases hn.symm.trans hm
    obtain ⟨rfl, _⟩ := hharmless.asks hasks
    -- closing a session without a transaction
    have hroll : world.db = s.world.db.rollback (.call n) := hsem.1.2
    refine ⟨?_, nofun⟩
    rcases s.world.db.rollback_cases (.call n) with ⟨work, htx, _⟩ | ⟨_, hsame⟩
    · exact absurd ⟨work, htx⟩ hidle
    · exact hroll.trans hsame
  | dispatch hm =>
    cases hev
    cases hn.symm.trans hm
    obtain ⟨x, hraise⟩ := hharmless
    cases hraise
  | duplicate _ => exact ⟨rfl, nofun⟩
  | complete _ => exact ⟨rfl, nofun⟩
  | refuse _ => exact ⟨rfl, nofun⟩
  | fail _ => exact ⟨rfl, nofun⟩
  | close _ => exact ⟨rfl, nofun⟩
  | answer _ => exact ⟨rfl, nofun⟩

/-- A request changes the store or reaches the handler only if it is authentic, and the handler
is called at most once for a delivery over the whole run. -/
theorem authentic_and_once {s : Receiver X} (h : Receiver.Reachable secret handler s) :
    (∀ ev s' n attempt, Receiver.Step secret handler s ev s' → ev.attempt = some n →
      s.attempts n = some attempt →
      s'.world.db ≠ s.world.db ∨ (∃ event, ev = .dispatch n event) →
      attempt.request.Authentic secret) ∧
    (∀ d ∈ s.dispatched, d.2.Authentic secret) ∧
    (s.dispatched.map (·.2.deliveryId)).Nodup := by
  have hinv : DispatchInv secret s := dispatchInv_reachable h
  refine ⟨fun ev s' n attempt hs hev hn hdone => ?_, fun d hd => (hinv.dispatched d hd).2.1,
    hinv.nodup⟩
  by_contra hauth
  obtain ⟨hsame, hno⟩ := hinv.unchanged hs hev hn hauth
  rcases hdone with hchanged | ⟨event, hdispatch⟩
  · exact hchanged hsame
  · exact hno event hdispatch

end Invariant

section Example

attribute [local instance] asciiDb exampleLibrary exampleWebhooks

/-- A delivery comes in twice at the same time, and both attempts read the clock before either
writes: the handler is called once. -/
theorem authentic_and_once_twins :
    ∃ s : Receiver outage, s.dispatched.length = 1 ∧
      (∀ d ∈ s.dispatched, d.2.Authentic "secret") ∧
      (s.dispatched.map (·.2.deliveryId)).Nodup := by
  obtain ⟨s, hs, htest⟩ := Receiver.exists_of_schedule "secret" exampleHandler
    outageResponder (fun _ _ => true) (fun _ _ _ _ => trivial) (0 : Nat)
    ([.arrive (exampleDelivery "ping"), .arrive (exampleDelivery "ping"), .attempt 0, .attempt 1] ++
      List.replicate 7 (.attempt 1) ++ List.replicate 5 (.attempt 0))
    (fun s => decide (s.dispatched.length = 1)) (by decide +kernel)
  have hmain := authentic_and_once hs
  exact ⟨s, by simpa using htest, hmain.2.1, hmain.2.2⟩

end Example

end VidiPr
