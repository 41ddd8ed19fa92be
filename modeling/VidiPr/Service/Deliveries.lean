import VidiPr.Service.Dispatch

/-!
# Which deliveries are dropped

* **`Receiver.Careful`** — the condition on a run: nothing goes wrong once the row that marks a
  delivery as seen has been committed and before the handler has returned, and a delivery is not
  sent again while it is being handled.
* **`HandledInv`** — the invariant of a careful run: a marked delivery has been handled, or an
  attempt of it is in progress.
* **`handled_of_dropped`** — in a careful run only deliveries that were handled are dropped.
-/

namespace VidiPr

open Effect Prog Text
open Webhook (Phase)

variable {X : External}

/-- The row of the attempt's delivery has been committed, and no attempt of it has been dispatched
to completion. -/
def Attempt.Marked (attempt : Attempt) (s : Receiver X) : Prop :=
  ∃ deliveryId, attempt.request.deliveryId = some deliveryId ∧ ¬ s.Handled deliveryId ∧
    s.world.db.committed.HasDelivery deliveryId

/-- Nothing goes wrong while a delivery is marked, and it is not sent again meanwhile. -/
def Receiver.Careful (s : Receiver X) : Receiver.Event → Prop
  | .arrive request => ∀ n attempt, s.attempts n = some attempt →
      attempt.request.deliveryId ≠ request.deliveryId
  | .fail n => ∀ attempt, s.attempts n = some attempt → ¬ attempt.Marked s
  | .crash => ∀ n attempt, s.attempts n = some attempt → ¬ attempt.Marked s
  | _ => True

/-- The attempt's delivery has been dispatched to completion. -/
def Attempt.Done (attempt : Attempt) (s : Receiver X) : Prop :=
  ∃ deliveryId, attempt.request.deliveryId = some deliveryId ∧ s.Handled deliveryId

/-! ## The contract of an attempt -/

/-- Nobody but the attempt records its delivery, and it records no other. -/
def soleContract (deliveryId : Option String) : StoreContract where
  inv _ := True
  guar db db' := ∀ other, deliveryId ≠ some other → (db'.HasDelivery other ↔ db.HasDelivery other)
  refl _ _ _ := Iff.rfl
  rely db db' := ∀ own, deliveryId = some own → (db'.HasDelivery own ↔ db.HasDelivery own)

theorem soleContract_enqueued (deliveryId : Option String) (args : EnqueueArgs) :
    (soleContract deliveryId).Allows (Enqueued args) := by
  rintro db db' - ⟨job, lock, h⟩
  refine ⟨trivial, fun other _ => ?_⟩
  rw [Db.HasDelivery, Db.HasDelivery, h.deliveries]

theorem soleContract_recorded {request : WebhookRequest} {deliveryId : String}
    (hid : request.deliveryId = some deliveryId) :
    (soleContract request.deliveryId).Allows (DeliveryRecorded deliveryId) := by
  intro db db' _ h
  refine ⟨trivial, fun other hne => h.others other fun heq => hne ?_⟩
  rw [hid, heq]

theorem soleContract_keeps {request : WebhookRequest} {deliveryId : String} {P : Prop}
    (hid : request.deliveryId = some deliveryId) :
    (soleContract request.deliveryId).Keeps P deliveryId :=
  fun _ _ hrely hknown hhas => hknown ((hrely deliveryId hid).mp hhas)

/-- Where the delivery is marked, `P` holds. -/
def Known (request : WebhookRequest) (P : Prop) (s : Sqlite) : Prop :=
  ∀ deliveryId, request.deliveryId = some deliveryId → KnownIf P deliveryId s

theorem stable_known {request : WebhookRequest} {P : Prop} {n : Nat} :
    (callSetting X n (soleContract request.deliveryId)).Stable (onDb (Known request P)) := by
  rintro w w' h _ ⟨_, hrely⟩ _ deliveryId hid hhas
  exact h deliveryId hid ((hrely deliveryId hid).mp hhas)

theorem known_rollback {request : WebhookRequest} {P : Prop} {s : Sqlite} {a : Actor}
    (h : Known request P s) : Known request P (s.rollback a) := by
  intro deliveryId hid hhas
  rw [Sqlite.rollback_committed] at hhas
  exact h deliveryId hid hhas

/-! ## The invariant -/

/-- The attempt drops its delivery only where `P` holds, and `P` says that it was handled. -/
def Attempt.Keeps (s : Receiver X) (n : Nat) (attempt : Attempt) (w : World X) : Prop :=
  ∃ P : Prop, (P → attempt.Done s) ∧
    attempt.phase.Ok X n (soleContract attempt.request.deliveryId) P (fun _ => True)
      (Known attempt.request P) w

/-- The attempt will be answered with 202. -/
def Webhook.Phase.Dropped : Phase → Prop
  | .closing r _ => r = .ok false
  | .answered r => r = .ok 202
  | _ => False

theorem Webhook.Phase.start_not_dropped [WebhookLibrary] (secret : String)
    (request : WebhookRequest) : ¬ (Phase.start secret request).Dropped := by
  unfold Phase.start
  split
  · rename_i status hstatus
    exact fun h => Webhook.refusal_ne hstatus (Except.ok.inj h)
  · exact id

/-- The invariant of a careful run. -/
structure HandledInv (s : Receiver X) : Prop where
  sound : s.Sound (Attempt.Keeps s)
  dropped : ∀ n attempt, s.attempts n = some attempt → attempt.phase.Dropped → attempt.Done s
  /-- attempts in progress are of different deliveries -/
  distinct : ∀ n m attempt attempt', s.attempts n = some attempt → s.attempts m = some attempt' →
    attempt.request.deliveryId = attempt'.request.deliveryId → n = m
  marked : ∀ deliveryId, s.world.db.committed.HasDelivery deliveryId → s.Handled deliveryId ∨
    ∃ n attempt, s.attempts n = some attempt ∧ attempt.request.deliveryId = some deliveryId

theorem handledInv_initial (ext : X.State) : HandledInv (Receiver.initial ext : Receiver X) where
  sound := .initial ext
  dropped n attempt h := by cases h
  distinct n m attempt attempt' h := by cases h
  marked deliveryId h := by
    obtain ⟨delivery, hmem, _⟩ := h
    exact absurd hmem (Relational.Table.not_mem_empty delivery)

section Steps

variable {s : Receiver X}

/-- An actor makes a step that marks at most the delivery of attempt `n`. -/
theorem HandledInv.moves (h : HandledInv s) {a : Actor} {n : Option Nat} {world : World X}
    (ha : ∀ m, some m ≠ n → a ≠ .call m) (hstep : ActorStep a s.world.db world.db)
    (hsole : ∀ m attempt, some m ≠ n → s.attempts m = some attempt →
      ∀ own, attempt.request.deliveryId = some own →
        (world.db.committed.HasDelivery own ↔ s.world.db.committed.HasDelivery own))
    (hworker : WorkerSpares world.db) : s.Moves (Attempt.Keeps s) n world := by
  refine ⟨fun m attempt hne hm => ?_, fun m hne hidle => hstep.not_owns (ha m hne) hidle, hworker⟩
  obtain ⟨P, hP, hok⟩ := h.sound.attempts m attempt hm
  have hrely : (callSetting X m (soleContract attempt.request.deliveryId)).rely s.world world :=
    ⟨⟨a, ha m hne, hstep⟩, hsole m attempt hne hm⟩
  exact ⟨P, hP, hok.env stable_known trivial hrely trivial⟩

/-- The world moves on its own, or by a step of the worker. -/
theorem HandledInv.moved (h : HandledInv s) {world : World X}
    (hstep : ActorStep .worker s.world.db world.db)
    (hsame : world.db.committed.webhookDeliveries = s.world.db.committed.webhookDeliveries)
    (hworker : WorkerSpares world.db) : HandledInv { s with world } := by
  have hiff : ∀ own, world.db.committed.HasDelivery own ↔ s.world.db.committed.HasDelivery own := by
    intro own
    rw [Db.HasDelivery, Db.HasDelivery, hsame]
  have hmoves := h.moves (n := none) (by simp) hstep (fun _ _ _ _ own _ => hiff own) hworker
  exact ⟨(h.sound.moved hmoves).transport rfl rfl rfl fun _ _ hok => hok, h.dropped, h.distinct,
    fun deliveryId hhas => h.marked deliveryId ((hiff deliveryId).mp hhas)⟩

/-- Attempt `n` goes on: the rows of other deliveries are as they were, and the attempt may only
come to drop its delivery if that has been handled. -/
theorem HandledInv.goTo (h : HandledInv s) {n : Nat} {request : WebhookRequest}
    {old phase : Phase} {world : World X} (hn : s.attempts n = some ⟨request, old⟩)
    (hmoves : s.Moves (Attempt.Keeps s) (some n) world)
    (hsole : ∀ other, request.deliveryId ≠ some other →
      (world.db.committed.HasDelivery other ↔ s.world.db.committed.HasDelivery other))
    (hok : Attempt.Keeps s n ⟨request, phase⟩ world)
    (hdropped : phase.Dropped → Attempt.Done ⟨request, old⟩ s) :
    HandledInv { s.goTo n request phase with world } := by
  -- the attempt keeps its request
  have hrequest : ∀ {m attempt}, (s.goTo n request phase).attempts m = some attempt →
      ∃ attempt', s.attempts m = some attempt' ∧
        attempt'.request.deliveryId = attempt.request.deliveryId := by
    intro m attempt hm
    rcases Receiver.goTo_eq_some hm with ⟨rfl, rfl⟩ | ⟨_, hold⟩
    · exact ⟨_, hn, rfl⟩
    · exact ⟨attempt, hold, rfl⟩
  have hsound := h.sound.goTo hmoves hok (h.sound.lt_next hn)
  refine ⟨hsound.transport rfl rfl rfl fun _ _ hok => hok, fun m attempt hm hdrop => ?_,
    fun m m' attempt attempt' hm hm' heq => ?_, fun deliveryId hhas => ?_⟩
  · rcases Receiver.goTo_eq_some hm with ⟨rfl, rfl⟩ | ⟨_, hold⟩
    · exact hdropped hdrop
    · exact h.dropped m attempt hold hdrop
  · obtain ⟨a, ha, haid⟩ := hrequest hm
    obtain ⟨a', ha', haid'⟩ := hrequest hm'
    exact h.distinct m m' a a' ha ha' (by rw [haid, haid', heq])
  · by_cases hown : request.deliveryId = some deliveryId
    · exact Or.inr ⟨n, ⟨request, phase⟩, s.goTo_self n request phase, hown⟩
    · rcases h.marked deliveryId ((hsole deliveryId hown).mp hhas) with hhandled | ⟨m, a, hm, hid⟩
      · exact Or.inl hhandled
      · have hne : m ≠ n := by
          rintro rfl
          cases hn.symm.trans hm
          exact hown hid
        exact Or.inr ⟨m, a, (s.goTo_other hne request phase).trans hm, hid⟩

/-- Attempt `n` goes on without a request. -/
theorem HandledInv.control (h : HandledInv s) {n : Nat} {request : WebhookRequest}
    {old phase : Phase} (hn : s.attempts n = some ⟨request, old⟩)
    (hok : Attempt.Keeps s n ⟨request, phase⟩ s.world)
    (hdropped : phase.Dropped → Attempt.Done ⟨request, old⟩ s) :
    HandledInv (s.goTo n request phase) :=
  h.goTo hn (h.sound.stays _) (fun _ _ => Iff.rfl) hok hdropped

/-- The session of an attempt is closed. Its delivery has been handled, if it is marked. -/
theorem HandledInv.closing (h : HandledInv s) {n : Nat} {request : WebhookRequest} {phase : Phase}
    (hn : s.attempts n = some ⟨request, phase⟩) (r : Except PyError Bool)
    (hknown : ∀ deliveryId, request.deliveryId = some deliveryId →
      s.world.db.committed.HasDelivery deliveryId → s.Handled deliveryId)
    (hdropped : r = .ok false → Attempt.Done ⟨request, phase⟩ s) :
    HandledInv (s.goTo n request (.closing r Py.rollback)) := by
  have hP : Known request (Attempt.Done ⟨request, phase⟩ s) s.world.db :=
    fun deliveryId hid hhas => ⟨deliveryId, hid, hknown deliveryId hid hhas⟩
  refine h.control hn ⟨_, id, ?_⟩ hdropped
  exact Phase.ok_closing stable_known (fun _ hs => known_rollback hs) trivial hP r

/-- An attempt fails, and its delivery is not marked. -/
theorem HandledInv.failed (h : HandledInv s) {n : Nat} {request : WebhookRequest} {phase : Phase}
    (hn : s.attempts n = some ⟨request, phase⟩) (hcareful : ¬ Attempt.Marked ⟨request, phase⟩ s)
    (x : PyError) : HandledInv (s.goTo n request (.closing (.error x) Py.rollback)) := by
  refine h.closing hn (.error x) (fun deliveryId hid hhas => ?_) nofun
  by_contra hno
  exact hcareful ⟨deliveryId, hid, hno, hhas⟩

/-- One more request has been handled. -/
theorem HandledInv.handled (h : HandledInv s) (request : WebhookRequest) :
    HandledInv { s with handled := request :: s.handled } := by
  have hmore : ∀ {deliveryId}, s.Handled deliveryId →
      Receiver.Handled { s with handled := request :: s.handled } deliveryId :=
    fun ⟨old, hold, hid⟩ => ⟨old, List.mem_cons_of_mem _ hold, hid⟩
  have hdone : ∀ {attempt : Attempt}, attempt.Done s →
      attempt.Done { s with handled := request :: s.handled } :=
    fun ⟨deliveryId, hid, hhandled⟩ => ⟨deliveryId, hid, hmore hhandled⟩
  refine ⟨h.sound.transport rfl rfl rfl ?_,
    fun n attempt hn hdrop => hdone (h.dropped n attempt hn hdrop), h.distinct,
    fun deliveryId hhas => (h.marked deliveryId hhas).imp hmore id⟩
  rintro n attempt ⟨P, hP, hok⟩
  exact ⟨P, fun hp => hdone (hP hp), hok⟩

/-- The attempt is answered and gone. If its delivery is marked, it closed its session knowing that
the delivery has been handled, so that nobody has to be in progress for it any more. -/
theorem HandledInv.answered (h : HandledInv s) {n : Nat} {request : WebhookRequest}
    {r : Except PyError Nat} (hn : s.attempts n = some ⟨request, .answered r⟩) :
    HandledInv (s.drop n) := by
  obtain ⟨P, hP, hphase⟩ := h.sound.attempts n _ hn
  refine ⟨(h.sound.drop hphase.1).transport rfl rfl rfl fun _ _ hok => hok,
    fun m a hm => h.dropped m a (Receiver.drop_eq_some hm).2,
    fun m m' a a' hm hm' => h.distinct m m' a a' (Receiver.drop_eq_some hm).2
      (Receiver.drop_eq_some hm').2, fun deliveryId hhas => ?_⟩
  rcases h.marked deliveryId hhas with hhandled | ⟨m, a, hm, hid⟩
  · exact Or.inl hhandled
  by_cases heq : m = n
  · -- it was in progress for the delivery itself
    rw [heq, hn] at hm
    cases hm
    obtain ⟨other, hother, hhandled⟩ := hP (hphase.2 deliveryId hid hhas)
    cases hid.symm.trans hother
    exact Or.inl hhandled
  · refine Or.inr ⟨m, a, ?_, hid⟩
    show Function.update s.attempts n none m = _
    rw [Function.update_of_ne heq]
    exact hm

/-- The attempt makes a request. Whatever it writes is the row of its own delivery, and no other
attempt in progress is of that delivery. -/
theorem HandledInv.called (h : HandledInv s) {n : Nat} {request : WebhookRequest} {phase : Phase}
    {e : Req} {next : Except PyError e.Resp → Phase} {r : Except PyError e.Resp} {world : World X}
    (hn : s.attempts n = some ⟨request, phase⟩) (hasks : phase.Asks e next)
    (hsem : sem X (.call n) e s.world r world) :
    HandledInv { s.goTo n request (next r) with world } := by
  obtain ⟨P, hP, hphase⟩ := h.sound.attempts n _ hn
  obtain ⟨hsole, hok⟩ := hphase.asks (r := r) hasks hsem
  have hstep : ActorStep (.call n) s.world.db world.db := actorStep_of_sem hsem
  have hothers : ∀ m attempt, some m ≠ some n → s.attempts m = some attempt →
      ∀ own, attempt.request.deliveryId = some own →
        (world.db.committed.HasDelivery own ↔ s.world.db.committed.HasDelivery own) := by
    intro m attempt hne hm own hown
    refine hsole own fun hsame => hne ?_
    rw [h.distinct m n attempt _ hm hn (hown.trans hsame.symm)]
  have hmoves := h.moves (n := some n) (by simpa using fun m hne heq => hne heq.symm) hstep
    hothers (h.sound.worker.env (by simp) hstep)
  refine h.goTo hn hmoves hsole ⟨P, hP, hok⟩ fun hdrop => ?_
  -- an attempt that is answered asks for nothing, and one that is closing was dropped before
  cases hasks with
  | receiving k => exact hdrop.elim
  | handling k => exact hdrop.elim
  | closing r' k => exact h.dropped n _ hn hdrop

/-- A request comes in, and no attempt of its delivery is in progress. Then a marked delivery has
been handled, which is what the new attempt may conclude from finding the row. -/
theorem HandledInv.arrive [WebhookLibrary] (h : HandledInv s) (secret : String)
    {request : WebhookRequest} (hcareful : s.Careful (.arrive request)) :
    HandledInv { s.goTo s.next request (Phase.start secret request) with next := s.next + 1 } := by
  have hidle : Idle (.call s.next) s.world.db :=
    h.sound.free _ (h.sound.fresh _ (Nat.le_refl _))
  set attempt : Attempt := ⟨request, Phase.start secret request⟩ with hattempt
  -- if the row is there, the delivery has been handled: nobody else is at it
  have hknown : Known request (attempt.Done s) s.world.db := by
    intro deliveryId hid hhas
    rcases h.marked deliveryId hhas with hhandled | ⟨m, a, hm, ha⟩
    · exact ⟨deliveryId, hid, hhandled⟩
    · exact absurd (ha.trans hid.symm) (hcareful m a hm)
  have hok : Attempt.Keeps s s.next attempt s.world := by
    refine ⟨attempt.Done s, id, ?_⟩
    exact Phase.ok_start (fun _ hid => soleContract_recorded hid)
      (fun _ hid => soleContract_keeps hid) (Setting.stable_const _)
      (fun _ _ _ _ _ => trivial) trivial hidle hknown hknown
  refine ⟨(h.sound.arrive hok).transport rfl rfl rfl fun _ _ hok => hok, fun m a hm hdrop => ?_,
    fun m m' a a' hm hm' heq => ?_, fun deliveryId hhas => ?_⟩
  · -- the new attempt has dropped nothing
    rcases Receiver.goTo_eq_some hm with ⟨rfl, rfl⟩ | ⟨_, hold⟩
    · exact absurd hdrop (Phase.start_not_dropped secret request)
    · exact h.dropped m a hold hdrop
  · -- the new attempt is the only one of its delivery
    rcases Receiver.goTo_eq_some hm with ⟨rfl, rfl⟩ | ⟨_, hold⟩
    · rcases Receiver.goTo_eq_some hm' with ⟨rfl, rfl⟩ | ⟨_, hold'⟩
      · rfl
      · exact absurd heq.symm (hcareful m' a' hold')
    · rcases Receiver.goTo_eq_some hm' with ⟨rfl, rfl⟩ | ⟨_, hold'⟩
      · exact absurd heq (hcareful m a hold)
      · exact h.distinct m m' a a' hold hold' heq
  · rcases h.marked deliveryId hhas with hhandled | ⟨m, a, hm, hid⟩
    · exact Or.inl hhandled
    · have hne : m ≠ s.next := Nat.ne_of_lt (h.sound.lt_next hm)
      exact Or.inr ⟨m, a, (s.goTo_other hne _ _).trans hm, hid⟩

end Steps

section Runs

variable [UnicodeDb] [ConfigLibrary] [WebhookLibrary] {secret : String}
  {handler : OrchestrationHandler}

/-- Every step of a careful run keeps the invariant. -/
theorem handledInv_step {s s' : Receiver X} {ev : Receiver.Event} (h : HandledInv s)
    (hs : Receiver.Step secret handler s ev s') (hcareful : s.Careful ev) : HandledInv s' := by
  cases hs with
  | external hmove => exact h.moved .same rfl h.sound.worker
  | worker he hsem =>
    -- the worker writes, but not to the table of deliveries
    obtain ⟨hdeliveries, hspares⟩ := worker_deliveries he hsem h.sound.worker
    exact h.moved (actorStep_of_sem hsem) hdeliveries hspares
  | arrive request => exact h.arrive secret hcareful
  | call hn hasks hsem => exact h.called hn hasks hsem
  | @dispatch n request event hn =>
    obtain ⟨P, hP, hphase⟩ := h.sound.attempts n _ hn
    have hok : Attempt.Keeps s n
        ⟨request, .handling (Webhook.dispatch handler.eventHandler event)⟩ s.world :=
      ⟨P, hP, Phase.ok_handling (soleContract_enqueued _) hphase⟩
    have hgo := h.control hn hok nofun
    exact ⟨hgo.sound.transport rfl rfl rfl fun _ _ hok => hok, hgo.dropped, hgo.distinct,
      hgo.marked⟩
  | @duplicate n request hn =>
    -- the row was there, so the attempt knows that the delivery has been handled
    obtain ⟨P, hP, hphase⟩ := h.sound.attempts n _ hn
    have hdone : Attempt.Done ⟨request, .receiving (.ret none)⟩ s :=
      hP ((Safe.ok hphase none rfl).2.1 rfl)
    refine h.closing hn (.ok false) (fun deliveryId hid _ => ?_) fun _ => hdone
    obtain ⟨other, hother, hhandled⟩ := hdone
    cases hid.symm.trans hother
    exact hhandled
  | @complete n request hn =>
    refine (h.handled request).closing hn (.ok true) (fun deliveryId hid _ => ?_) nofun
    exact ⟨request, List.mem_cons_self, hid⟩
  -- the two ways to fail: before the handler was called, and in it
  | refuse hn => exact h.failed hn (hcareful _ hn) _
  | fail hn => exact h.failed hn (hcareful _ hn) _
  | @close n request r hn =>
    obtain ⟨P, hP, hphase⟩ := h.sound.attempts n _ hn
    refine h.control hn ⟨P, hP, Safe.ok hphase⟩ fun hdrop => ?_
    exact h.dropped n _ hn (Webhook.answer_eq_202 hdrop)
  | answer hn => exact h.answered hn
  | crash =>
    -- no attempt is left, and a careful run crashes only while nothing is marked
    refine ⟨.crash, fun n attempt hn => ?_, fun n m attempt attempt' hn => ?_,
      fun deliveryId hhas => Or.inl ?_⟩
    · cases hn
    · cases hn
    · rcases h.marked deliveryId hhas with hhandled | ⟨n, attempt, hn, hid⟩
      · exact hhandled
      · by_contra hno
        exact hcareful n attempt hn ⟨deliveryId, hid, hno, hhas⟩

/-- The run lemma: the condition on each step is what the step lemma asks for, and a process starts
with an empty table of deliveries. -/
theorem handledInv_reachable {s : Receiver X}
    (h : Receiver.ReachableIf secret handler Receiver.Careful s) : HandledInv s := by
  induction h with
  | initial ext => exact handledInv_initial ext
  | step _ hs hcareful ih => exact handledInv_step ih hs hcareful

/-- A delivery is dropped, and answered as a duplicate, only if it was dispatched to completion
before. -/
theorem handled_of_dropped {s s' : Receiver X} {ev : Receiver.Event} {n : Nat}
    (h : Receiver.ReachableIf secret handler Receiver.Careful s)
    (hs : Receiver.Step secret handler s ev s')
    (hev : ev = .duplicate n ∨ ev = .answer n (.ok 202)) :
    ∃ attempt deliveryId, s.attempts n = some attempt ∧
      attempt.request.deliveryId = some deliveryId ∧ s.Handled deliveryId := by
  have hinv : HandledInv s := handledInv_reachable h
  rcases hev with rfl | rfl
  · cases hs with
    | duplicate hn =>
      obtain ⟨P, hP, hphase⟩ := hinv.sound.attempts n _ hn
      obtain ⟨deliveryId, hid, hhandled⟩ := hP ((Safe.ok hphase none rfl).2.1 rfl)
      exact ⟨_, deliveryId, hn, hid, hhandled⟩
  · cases hs with
    | answer hn =>
      obtain ⟨deliveryId, hid, hhandled⟩ := hinv.dropped n _ hn rfl
      exact ⟨_, deliveryId, hn, hid, hhandled⟩

end Runs

end VidiPr
