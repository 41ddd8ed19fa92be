import VidiPr.Service.Deliveries

/-!
# Deliveries that are sent again

What becomes of a delivery that comes in, for the first time or again, while nobody has handled it.

* **`Receiver.Reading`** — what a step can do to an attempt that has not called the handler yet: one
  constructor for each way on.
* **`Receiver.Attended`** — what the receiver owes to such an attempt over the rest of the run.
* **`no_lost_delivery`** — in a careful run only deliveries that were handled are dropped, and
  every other one is attended to.
* **`dropped_after_failure`** — without care, a delivery that nobody handled is dropped.
-/

namespace VidiPr

open Effect Prog Text
open Webhook (Phase)

variable {X : External}

section Runs

variable [UnicodeDb] [ConfigLibrary] [WebhookLibrary] {secret : String}
  {handler : OrchestrationHandler}

/-! ## A request that can be dispatched -/

/-- The request is small enough and authentic, and its payload parses as `event`. -/
structure WebhookRequest.Carries (secret : String) (request : WebhookRequest)
    (event : WebhookEvent) : Prop where
  accepted : Webhook.refusal request = none
  authentic : request.Authentic secret
  parses : ∀ eventType, request.eventType = some eventType →
    Webhook.event eventType request.body = .ok event

/-- The answer is no exception. -/
abbrev NoException (e : Req) (r : Except PyError e.Resp) : Prop := r.isOk = true

omit [UnicodeDb] [ConfigLibrary] in
/-- As long as nothing that it asks for fails, `process_webhook` finds the row of the delivery or
comes to call the handler with the event of the payload. -/
theorem receive_yields {request : WebhookRequest} {event : WebhookEvent}
    (h : request.Carries secret event) :
    (Webhook.receive secret request).Yields NoException fun r =>
      r = .ok none ∨ r = .ok (some event) := by
  obtain ⟨signature, eventType, deliveryId, hsignature, htype, hid, hverify⟩ := h.authentic
  unfold Webhook.receive
  rw [hsignature, htype, hid]
  dsimp only
  rw [if_neg (by simp [hverify])]
  -- the clock, the row, the commit
  rintro (x | now) hnow
  · cases hnow
  rintro (x | isNew) hisNew
  · cases hisNew
  rintro (x | u) hu
  · cases hu
  cases isNew with
  | false => exact Or.inl rfl
  | true =>
    show ((Py.ofExcept (Webhook.event eventType request.body)).bind fun event =>
      .ret (some event) : Py (Option WebhookEvent)).Yields NoException _
    rw [h.parses eventType htype]
    exact Or.inr rfl

/-! ## The steps of an attempt before the handler -/

namespace Receiver

variable {s s' : Receiver X} {ev : Event} {n : Nat} {request : WebhookRequest}

/-- What a step does to an attempt that has not called the handler yet, where `p` is what is left of
`process_webhook` up to that call. -/
inductive Reading (s' : Receiver X) (n : Nat) (request : WebhookRequest) :
    Py (Option WebhookEvent) → Event → Prop where
  | other {p : Py (Option WebhookEvent)} {ev : Event} (hev : ev.attempt ≠ some n)
      (hcrash : ev ≠ .crash) (h : s'.attempts n = some ⟨request, .receiving p⟩) :
      Reading s' n request p ev
  | call {e : Req} {k : Except PyError e.Resp → Py (Option WebhookEvent)}
      (r : Except PyError e.Resp) (h : s'.attempts n = some ⟨request, .receiving (k r)⟩) :
      Reading s' n request (.call e k) (.call n (!r.isOk))
  | dispatch {event : WebhookEvent} {p : Py Unit}
      (h : s'.attempts n = some ⟨request, .handling p⟩) :
      Reading s' n request (.ret (some event)) (.dispatch n event)
  | duplicate : Reading s' n request (.ret none) (.duplicate n)
  | refuse {x : PyError} {r : Except PyError Bool} {p : Py Unit}
      (h : s'.attempts n = some ⟨request, .closing r p⟩) :
      Reading s' n request (.raise x) (.fail n)
  | crash {p : Py (Option WebhookEvent)} (h : s'.attempts n = none) :
      Reading s' n request p .crash

/-- The step lemma: every step is one of these. -/
theorem reading_of_step (hs : Step secret handler s ev s') {p : Py (Option WebhookEvent)}
    (hn : s.attempts n = some ⟨request, .receiving p⟩) (hlt : n < s.next) :
    Reading s' n request p ev := by
  -- a step of attempt `m`, which is not this one
  have hother : ∀ {m : Nat} {request' : WebhookRequest} {phase : Phase}, m ≠ n →
      (s.goTo m request' phase).attempts n = some ⟨request, .receiving p⟩ :=
    fun hne => (goTo_other s hne.symm _ _).trans hn
  have hnot : ∀ {m : Nat}, m ≠ n → some m ≠ some n := fun hne heq => hne (Option.some.inj heq)
  cases hs with
  | external => exact .other nofun nofun hn
  | worker => exact .other nofun nofun hn
  | arrive => exact .other nofun nofun (hother hlt.ne')
  | @call m request' phase e next r world hm hasks =>
    by_cases hmn : m = n
    · subst hmn
      cases hn.symm.trans hm
      cases hasks with
      | receiving k => exact .call r (goTo_self s m _ _)
    · exact .other (hnot hmn) nofun (hother hmn)
  | @dispatch m request' event hm =>
    by_cases hmn : m = n
    · subst hmn
      cases hn.symm.trans hm
      exact .dispatch (goTo_self s m _ _)
    · exact .other (hnot hmn) nofun (hother hmn)
  | @duplicate m request' hm =>
    by_cases hmn : m = n
    · subst hmn
      cases hn.symm.trans hm
      exact .duplicate
    · exact .other (hnot hmn) nofun (hother hmn)
  | @refuse m request' x hm =>
    by_cases hmn : m = n
    · subst hmn
      cases hn.symm.trans hm
      exact .refuse (goTo_self s m _ _)
    · exact .other (hnot hmn) nofun (hother hmn)
  | @complete m request' hm | @fail m request' x hm | @close m request' r hm =>
    -- attempts in these phases have called the handler, or never will
    have hmn : m ≠ n := fun heq => by cases hn.symm.trans (heq ▸ hm)
    exact .other (hnot hmn) nofun (hother hmn)
  | @answer m request' r hm =>
    have hmn : m ≠ n := fun heq => by cases hn.symm.trans (heq ▸ hm)
    exact .other (hnot hmn) nofun ((Function.update_of_ne hmn.symm _ s.attempts).trans hn)
  | crash => exact .crash rfl

/-- The attempt has called the handler, or never will. -/
def Past (s : Receiver X) (n : Nat) : Prop :=
  ∀ request p, s.attempts n ≠ some ⟨request, .receiving p⟩

omit [UnicodeDb] [ConfigLibrary] [WebhookLibrary] in
theorem past_of_eq {attempt : Option Attempt} (hn : s.attempts n = attempt)
    (h : ∀ request p, attempt ≠ some ⟨request, .receiving p⟩) : s.Past n :=
  fun request p heq => h request p (hn.symm.trans heq)

/-- No attempt comes back to the time before the handler: a new one gets a new number. -/
theorem past_of_step (hs : Step secret handler s ev s') (hpast : s.Past n) (hlt : n < s.next) :
    s'.Past n ∧ ev ≠ .duplicate n := by
  -- the attempt that moves is another one, or comes to a later phase
  have hother : ∀ {m : Nat} {request : WebhookRequest} {phase : Phase},
      (∀ p, phase ≠ .receiving p) ∨ m ≠ n → (s.goTo m request phase).Past n := by
    intro m request phase hcase request' p heq
    rcases goTo_eq_some heq with ⟨rfl, hattempt⟩ | ⟨_, hold⟩
    · exact hcase.elim (fun hphase => hphase p (congrArg Attempt.phase hattempt).symm)
        fun hne => hne rfl
    · exact hpast request' p hold
  cases hs with
  | external => exact ⟨hpast, nofun⟩
  | worker => exact ⟨hpast, nofun⟩
  | arrive => exact ⟨hother (Or.inr hlt.ne'), nofun⟩
  | @call m request' phase e next r world hm hasks =>
    refine ⟨hother ?_, nofun⟩
    cases hasks with
    -- a request of the receiving phase, so it is of another attempt
    | receiving k => exact Or.inr fun heq => hpast _ _ (heq ▸ hm)
    | handling k => exact Or.inl fun p => nofun
    | closing r' k => exact Or.inl fun p => nofun
  | @duplicate m request' hm =>
    refine ⟨hother (Or.inl fun p => nofun), fun heq => ?_⟩
    cases heq
    exact hpast _ _ hm
  | dispatch | complete | refuse | fail | close => exact ⟨hother (Or.inl fun p => nofun), nofun⟩
  | answer => exact ⟨fun request p heq => hpast request p (drop_eq_some heq).2, nofun⟩
  | crash => exact ⟨fun request p heq => (by cases heq), nofun⟩

/-- Numbers in use stay below the next one. -/
theorem next_of_step (hs : Step secret handler s ev s') : s.next ≤ s'.next := by
  cases hs with
  | arrive => exact Nat.le_succ _
  | _ => exact Nat.le_refl _

/-- A delivery is handled by the return of the handler for it, and in no other way. -/
theorem handled_of_step (hs : Step secret handler s ev s') {deliveryId : String}
    (h : s'.Handled deliveryId) : s.Handled deliveryId ∨
      ∃ m request, s.attempts m = some ⟨request, .handling (.ret ())⟩ ∧
        request.deliveryId = some deliveryId := by
  cases hs with
  | @complete m request hm =>
    obtain ⟨request', hmem, hid⟩ := h
    rcases List.mem_cons.mp hmem with rfl | hold
    · exact Or.inr ⟨m, _, hm, hid⟩
    · exact Or.inl ⟨request', hold, hid⟩
  | _ => exact Or.inl h

/-! ## The rest of the run -/

variable (secret handler) in
/-- A careful run from `s`, with its events, newest first. -/
inductive CarefulRun (s : Receiver X) : List Event → Receiver X → Prop where
  | refl : CarefulRun s [] s
  | step {evs : List Event} {s' s'' : Receiver X} {ev : Event} (h : CarefulRun s evs s')
      (hs : Step secret handler s' ev s'') (hcareful : s'.Careful ev) :
      CarefulRun s (ev :: evs) s''

theorem CarefulRun.reachable {evs : List Event} (h : CarefulRun secret handler s evs s')
    (hs : ReachableIf secret handler Careful s) : ReachableIf secret handler Careful s' := by
  induction h with
  | refl => exact hs
  | step _ hstep hcareful ih => exact ih.step hstep hcareful

/-- What the receiver owes to attempt `n` of a delivery that nobody has handled, where the events
after its arrival have led to `s`: it does not drop the delivery, and it calls the handler unless
the attempt fails. If the request carries an event, the attempt does not fail by itself: then the
handler is called with that event, unless something it asks for fails or the process dies. -/
structure Attended (secret : String) (request : WebhookRequest) (n : Nat) (evs : List Event)
    (s : Receiver X) : Prop where
  notDropped : .duplicate n ∉ evs
  dispatched : s.Past n → .fail n ∉ evs → .crash ∉ evs → ∃ event, .dispatch n event ∈ evs
  carried : ∀ event, request.Carries secret event → s.Past n → .call n true ∉ evs →
    .crash ∉ evs → .dispatch n event ∈ evs

/-- The invariant behind it. As long as the attempt is before the handler, nobody has handled the
delivery, and what is left of `process_webhook` yields the event. -/
inductive Served (secret : String) (request : WebhookRequest) (deliveryId : String) (n : Nat)
    (evs : List Event) (s : Receiver X) : Prop where
  | reading {p : Py (Option WebhookEvent)} (h : s.attempts n = some ⟨request, .receiving p⟩)
      (hhandled : ¬ s.Handled deliveryId)
      (hyields : ∀ event, request.Carries secret event → .call n true ∉ evs →
        p.Yields NoException fun r => r = .ok none ∨ r = .ok (some event))
  | past (h : s.Past n) (hend : .fail n ∈ evs ∨ .crash ∈ evs ∨ ∃ event, .dispatch n event ∈ evs)
      (hcarried : ∀ event, request.Carries secret event → .call n true ∉ evs →
        .crash ∉ evs → .dispatch n event ∈ evs)

/-- One step of the run. Before the handler is called the attempt either stays as it is, asks for
something, or comes to an end of its reading; afterwards nothing it owes can be taken back. -/
theorem served_step {evs : List Event} {deliveryId : String}
    (hreach : ReachableIf secret handler Careful s) (hid : request.deliveryId = some deliveryId)
    (hlt : n < s.next) (h : Served secret request deliveryId n evs s)
    (hs : Step secret handler s ev s') :
    Served secret request deliveryId n (ev :: evs) s' ∧ ev ≠ .duplicate n := by
  cases h with
  | past hpast hend hcarried =>
    obtain ⟨hpast', hdup⟩ := past_of_step hs hpast hlt
    refine ⟨.past hpast' ?_ fun event hcarries hcalls hcrash => ?_, hdup⟩
    · exact hend.imp (List.mem_cons_of_mem _) fun hrest => hrest.imp (List.mem_cons_of_mem _)
        fun ⟨event, hmem⟩ => ⟨event, List.mem_cons_of_mem _ hmem⟩
    · exact List.mem_cons_of_mem _ (hcarried event hcarries
        (fun hmem => hcalls (List.mem_cons_of_mem _ hmem))
        fun hmem => hcrash (List.mem_cons_of_mem _ hmem))
  | @reading p hn hhandled hyields =>
    -- the handler returned for nobody, since the attempt is the only one of its delivery
    have hhandled' : ¬ s'.Handled deliveryId := by
      intro hnow
      rcases handled_of_step hs hnow with hold | ⟨m, request', hm, hid'⟩
      · exact hhandled hold
      · have hsame := (handledInv_reachable hreach).distinct m n _ _ hm hn (hid'.trans hid.symm)
        cases hn.symm.trans (hsame ▸ hm)
    have hbefore : .call n true ∉ ev :: evs → .call n true ∉ evs :=
      fun hcalls hmem => hcalls (List.mem_cons_of_mem _ hmem)
    cases reading_of_step hs hn hlt with
    | other hev hcrash hnext =>
      exact ⟨.reading hnext hhandled' fun event hcarries hcalls =>
        hyields event hcarries (hbefore hcalls), fun heq => hev (heq ▸ rfl)⟩
    | call r hnext =>
      refine ⟨.reading hnext hhandled' fun event hcarries hcalls => ?_, nofun⟩
      -- an answer that is an exception would be in the events
      refine hyields event hcarries (hbefore hcalls) r ?_
      by_contra hfailed
      refine hcalls (List.mem_cons.mpr (Or.inl ?_))
      rw [Bool.eq_false_of_not_eq_true hfailed]
      rfl
    | @dispatch event p' hnext =>
      refine ⟨.past (past_of_eq hnext fun _ _ => nofun)
        (Or.inr (Or.inr ⟨event, List.mem_cons_self⟩)) fun event' hcarries hcalls _ => ?_, nofun⟩
      rcases hyields event' hcarries (hbefore hcalls) with hnone | hsome
      · cases hnone
      · cases hsome
        exact List.mem_cons_self
    | duplicate =>
      -- it would have been handled
      obtain ⟨attempt, other, hattempt, hother, hdone⟩ := handled_of_dropped hreach hs (Or.inl rfl)
      cases hn.symm.trans hattempt
      cases hid.symm.trans hother
      exact absurd hdone hhandled
    | refuse hnext =>
      refine ⟨.past (past_of_eq hnext fun _ _ => nofun) (Or.inl List.mem_cons_self)
        fun event hcarries hcalls _ => ?_, nofun⟩
      rcases hyields event hcarries (hbefore hcalls) with hnone | hsome
      · cases hnone
      · cases hsome
    | crash hnext =>
      exact ⟨.past (past_of_eq hnext fun _ _ => nofun) (Or.inr (Or.inl List.mem_cons_self))
        fun _ _ _ hcrash => absurd List.mem_cons_self hcrash, nofun⟩

/-- The run lemma, by induction on the steps after the arrival: the attempt is served so far, and
none of the steps has dropped it. -/
theorem served_run {evs : List Event} {deliveryId : String}
    (hreach : ReachableIf secret handler Careful s) (hid : request.deliveryId = some deliveryId)
    (hlt : n < s.next) (h : Served secret request deliveryId n [] s)
    (hrun : CarefulRun secret handler s evs s') :
    Served secret request deliveryId n evs s' ∧ .duplicate n ∉ evs ∧ n < s'.next := by
  induction hrun with
  | refl => exact ⟨h, List.not_mem_nil, hlt⟩
  | step hrun hstep hcareful ih =>
    obtain ⟨hserved, hdup, hlt'⟩ := ih
    obtain ⟨hserved', hne⟩ := served_step (hrun.reachable hreach) hid hlt' hserved hstep
    refine ⟨hserved', fun hmem => ?_, Nat.lt_of_lt_of_le hlt' (next_of_step hstep)⟩
    rcases List.mem_cons.mp hmem with heq | hold
    · exact hne heq.symm
    · exact hdup hold

omit [UnicodeDb] [ConfigLibrary] in
/-- An attempt has just come in: it has made no request, and it is about to run `process_webhook` up
to the call of the handler. -/
theorem served_arrive {deliveryId : String} (hhandled : ¬ s.Handled deliveryId)
    (haccepted : Webhook.refusal request = none) :
    Served secret request deliveryId s.next []
      { s.goTo s.next request (Phase.start secret request) with next := s.next + 1 } := by
  have hstart : Phase.start secret request = .receiving (Webhook.receive secret request) := by
    unfold Phase.start
    rw [haccepted]
  refine .reading (p := Webhook.receive secret request) ?_ hhandled fun event hcarries _ =>
    receive_yields hcarries
  rw [hstart]
  exact goTo_self s s.next _ _

end Receiver

/-- **No lost delivery.** In a careful run a delivery is dropped, or answered as a duplicate, only
if it was dispatched to completion before. And a delivery that nobody has handled, when it comes in,
for the first time or again, is attended to over every careful continuation of the run. -/
theorem no_lost_delivery {s : Receiver X}
    (h : Receiver.ReachableIf secret handler Receiver.Careful s) :
    (∀ s' ev n, Receiver.Step secret handler s ev s' →
      ev = .duplicate n ∨ ev = .answer n (.ok 202) →
      ∃ attempt deliveryId, s.attempts n = some attempt ∧
        attempt.request.deliveryId = some deliveryId ∧ s.Handled deliveryId) ∧
    ∀ request deliveryId s₁ evs s', request.deliveryId = some deliveryId →
      Webhook.refusal request = none → ¬ s.Handled deliveryId → s.Careful (.arrive request) →
      Receiver.Step secret handler s (.arrive request) s₁ →
      Receiver.CarefulRun secret handler s₁ evs s' →
      Receiver.Attended secret request s.next evs s' := by
  refine ⟨fun s' ev n hs hev => handled_of_dropped h hs hev,
    fun request deliveryId s₁ evs s' hid haccepted hhandled hcareful hs hrun => ?_⟩
  have hreach := h.step hs hcareful
  cases hs with
  | arrive =>
    obtain ⟨hserved, hdup, -⟩ := Receiver.served_run hreach hid (Nat.lt_succ_self _)
      (Receiver.served_arrive hhandled haccepted) hrun
    cases hserved with
    -- it is still reading, and nothing is owed yet
    | reading hn => exact ⟨hdup, fun hpast => absurd hn (hpast _ _),
        fun _ _ hpast => absurd hn (hpast _ _)⟩
    -- it is past that: it failed, the process died, or it was dispatched
    | past _ hend hcarried =>
      refine ⟨hdup, fun _ hfail hcrash => ?_, fun event hcarries _ => hcarried event hcarries⟩
      rcases hend with hfailed | hcrashed | hdispatched
      · exact absurd hfailed hfail
      · exact absurd hcrashed hcrash
      · exact hdispatched

/-! ## Schedules of careful runs -/

/-- Commands of a careful run: no attempt fails, the process dies only while no delivery is marked,
and a delivery is not sent again while an attempt of it is in progress. -/
def Receiver.cautious (s : Receiver X) : Receiver.Event → Bool
  | .arrive request => (List.range s.next).all fun n =>
      (s.attempts n).all fun attempt => attempt.request.deliveryId ≠ request.deliveryId
  | .fail _ => false
  | .crash => s.world.db.committed.webhookDeliveries.rows.isEmpty
  | _ => true

theorem careful_of_cautious (s : Receiver X) (ev : Receiver.Event)
    (h : Receiver.ReachableIf secret handler Receiver.Careful s) (hok : s.cautious ev = true) :
    s.Careful ev := by
  cases ev with
  | arrive request =>
    intro n attempt hn
    have hlt : n < s.next := (handledInv_reachable h).sound.lt_next hn
    have hall := List.all_eq_true.mp hok n (List.mem_range.mpr hlt)
    simpa [hn] using hall
  | fail n => cases hok
  | crash =>
    rintro n attempt - ⟨deliveryId, -, -, delivery, hmem, -⟩
    rw [Relational.Table.mem_def, List.isEmpty_iff.mp hok] at hmem
    exact absurd hmem List.not_mem_nil
  | _ => trivial

/-- The commands of the rest of a careful run in which nothing that attempt `n` asks for fails, and
the process does not die. -/
def Receiver.smooth (n : Nat) (s : Receiver X) : Receiver.Event → Bool
  | .call m failed => !(failed && m = n)
  | .crash => false
  | ev => s.cautious ev

theorem Receiver.exists_smooth_run (n : Nat) (answers : Responder X) {s : Receiver X}
    (hs : Receiver.ReachableIf secret handler Receiver.Careful s) (commands : List Receiver.Command)
    (test : Receiver X → Bool)
    (h : (Schedule.execute (Receiver.perform secret handler answers) (Receiver.smooth n) commands
      s).any test = true) :
    ∃ evs s', Receiver.CarefulRun secret handler s evs s' ∧ .call n true ∉ evs ∧ .crash ∉ evs ∧
      test s' = true := by
  have hrun := Schedule.exists_of_execute (R := fun s' => ∃ evs,
    Receiver.CarefulRun secret handler s evs s' ∧ .call n true ∉ evs ∧ .crash ∉ evs)
    (fun t command _ ev t' hprev hperf hok => ?_)
    ⟨[], .refl, List.not_mem_nil, List.not_mem_nil⟩ h
  · obtain ⟨s', ⟨evs, hevs, hcall, hcrash⟩, htest⟩ := hrun
    exact ⟨evs, s', hevs, hcall, hcrash, htest⟩
  obtain ⟨evs, hevs, hcall, hcrash⟩ := hprev
  have hcareful : t.Careful ev := by
    cases ev with
    | call m failed => trivial
    | crash => cases hok
    | _ => exact careful_of_cautious t _ (hevs.reachable hs) hok
  refine ⟨ev :: evs, hevs.step (Receiver.perform_sound hperf) hcareful, fun hmem => ?_,
    fun hmem => ?_⟩
  · rcases List.mem_cons.mp hmem with rfl | hold
    · simp [Receiver.smooth] at hok
    · exact hcall hold
  · rcases List.mem_cons.mp hmem with rfl | hold
    · cases hok
    · exact hcrash hold

end Runs

section Example

attribute [local instance] asciiDb exampleLibrary exampleWebhooks

theorem carries_ping : (exampleDelivery "ping").Carries "secret" .other where
  accepted := by rfl
  authentic := ⟨_, _, _, rfl, rfl, rfl, by decide +kernel⟩
  parses eventType h := by
    cases h
    rfl

/-- The process dies before an attempt has recorded its delivery, a ping. When it is sent again the
handler is called; and when it is sent once more it is dropped, since it was handled. -/
theorem no_lost_delivery_ping :
    (∃ (s s₁ s' : Receiver outage) (evs : List Receiver.Event), s.next = 1 ∧
      Receiver.Step "secret" exampleHandler s (.arrive (exampleDelivery "ping")) s₁ ∧
      Receiver.CarefulRun "secret" exampleHandler s₁ evs s' ∧
      .dispatch 1 .other ∈ evs ∧ .duplicate 1 ∉ evs) ∧
    ∃ (s : Receiver outage) (attempt : Attempt), s.attempts 1 = some attempt ∧
      ∃ deliveryId, attempt.request.deliveryId = some deliveryId ∧ s.Handled deliveryId := by
  constructor
  · obtain ⟨s, hs, htest⟩ := Receiver.exists_of_schedule "secret" exampleHandler
      outageResponder Receiver.cautious careful_of_cautious (0 : Nat)
      [.arrive (exampleDelivery "ping"), .attempt 0, .attempt 0, .crash]
      (fun s => decide (s.next = 1) && s.handled.isEmpty &&
        s.cautious (.arrive (exampleDelivery "ping")) &&
        (Schedule.execute (Receiver.perform "secret" exampleHandler outageResponder)
          (Receiver.smooth 1) (List.replicate 8 (.attempt 1))
          { s.goTo s.next (exampleDelivery "ping")
              (Phase.start "secret" (exampleDelivery "ping")) with
            next := s.next + 1 }).any fun s' => (s'.attempts 1).isNone) (by decide +kernel)
    simp only [Bool.and_eq_true, decide_eq_true_eq] at htest
    obtain ⟨⟨⟨hnext, hempty⟩, hcautious⟩, hrest⟩ := htest
    have hcareful := careful_of_cautious s _ hs hcautious
    have harrive : Receiver.Step "secret" exampleHandler s (.arrive (exampleDelivery "ping")) _ :=
      .arrive _
    obtain ⟨evs, s', hrun, hcall, hcrash, hgone⟩ :=
      Receiver.exists_smooth_run 1 outageResponder (hs.step harrive hcareful) _ _ hrest
    have hunhandled : ¬ s.Handled "d1" := by
      rintro ⟨request, hmem, -⟩
      rw [List.isEmpty_iff.mp hempty] at hmem
      exact absurd hmem List.not_mem_nil
    have hattended := (no_lost_delivery hs).2 (exampleDelivery "ping") "d1" _ evs s' rfl rfl
      hunhandled hcareful harrive hrun
    rw [hnext] at hattended
    have hpast : s'.Past 1 :=
      Receiver.past_of_eq (Option.isNone_iff_eq_none.mp hgone) fun _ _ => nofun
    exact ⟨s, _, s', evs, hnext, harrive, hrun,
      hattended.carried .other carries_ping hpast hcall hcrash, hattended.notDropped⟩
  · obtain ⟨s, hs, htest⟩ := Receiver.exists_of_schedule "secret" exampleHandler
      outageResponder Receiver.cautious careful_of_cautious (0 : Nat)
      ([.arrive (exampleDelivery "ping")] ++ List.replicate 8 (.attempt 0) ++
        [.arrive (exampleDelivery "ping")] ++ List.replicate 6 (.attempt 1))
      (Receiver.dropping 1) (by decide +kernel)
    obtain ⟨request, hn⟩ := Receiver.dropping_eq_true htest
    obtain ⟨attempt, deliveryId, hattempt, hid, hhandled⟩ :=
      (no_lost_delivery hs).1 _ _ _ (.answer hn) (Or.inr rfl)
    exact ⟨s, attempt, hattempt, deliveryId, hid, hhandled⟩

/-- An `issue_comment` whose payload does not parse is refused, after the row that marks it as seen
was committed. When it is sent again it is dropped, and nobody has ever handled it. -/
theorem dropped_after_failure :
    ¬ ∀ (s s' : Receiver outage) (n : Nat), Receiver.Reachable "secret" exampleHandler s →
      Receiver.Step "secret" exampleHandler s (.answer n (.ok 202)) s' →
      ∃ attempt deliveryId, s.attempts n = some attempt ∧
        attempt.request.deliveryId = some deliveryId ∧ s.Handled deliveryId := by
  intro hclaim
  obtain ⟨s, hs, htest⟩ := Receiver.exists_of_schedule "secret" exampleHandler
    outageResponder (fun _ _ => true) (fun _ _ _ _ => trivial) (0 : Nat)
    ([.arrive (exampleDelivery "issue_comment")] ++ List.replicate 7 (.attempt 0) ++
      [.arrive (exampleDelivery "issue_comment")] ++ List.replicate 6 (.attempt 1))
    (fun s => s.dropping 1 && s.handled.isEmpty) (by decide +kernel)
  obtain ⟨hdrop, hempty⟩ := Bool.and_eq_true_iff.mp htest
  obtain ⟨request, hn⟩ := Receiver.dropping_eq_true hdrop
  obtain ⟨_, deliveryId, _, _, handled, hmem, _⟩ := hclaim s _ 1 hs (.answer hn)
  rw [List.isEmpty_iff.mp hempty] at hmem
  exact absurd hmem List.not_mem_nil

end Example

end VidiPr
