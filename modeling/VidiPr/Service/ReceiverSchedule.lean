import VidiPr.Lib.Schedule
import VidiPr.Service.Receiver
import VidiPr.Service.Responder

/-!
# Schedules of the receiver

Which attempt moves next, with a `Responder` for the outside: a run of the receiver that can be
computed.

* **`Receiver.perform_sound`** — every command is a step.
-/

namespace VidiPr

open Effect Prog Text
open Webhook (Phase)

/-- githubkit on a few deliveries that are signed with the secret `secret`: an empty payload of a
`ping` parses, one of an `issue_comment` does not. -/
@[reducible] def exampleWebhooks : WebhookLibrary where
  verify secret body signature :=
    secret = "secret" ∧ body = [123, 125] ∧
      signature = "sha256=77325902caca812dc259733aacd046b73817372c777b8d95b402647474516e13"
  parsePullRequest _ := .error "validation error"
  parseIssueComment _ := .error "validation error"
  parseOther eventType _ := if eventType = "ping" then .ok () else .error "validation error"

/-- A delivery of `\x7b\x7d`, signed. -/
def exampleDelivery (eventType : String) : WebhookRequest where
  body := [123, 125]
  eventType := some eventType
  deliveryId := some "d1"
  signature := some "sha256=77325902caca812dc259733aacd046b73817372c777b8d95b402647474516e13"

namespace Receiver

variable {X : External} [UnicodeDb] [ConfigLibrary] [WebhookLibrary]

/-- What a schedule can ask for. -/
inductive Command where
  /-- a request comes in -/
  | arrive (request : WebhookRequest)
  /-- attempt `n` makes its next request, or goes on without one -/
  | attempt (n : Nat)
  | crash

/-- The next step of attempt `n`. -/
def turn (handler : OrchestrationHandler) (answers : Responder X) (n : Nat) (s : Receiver X) :
    Option (Event × Receiver X) :=
  match s.attempts n with
  | some ⟨request, .receiving (.call e k)⟩ =>
    (respond answers (.call n) false s.world e).map fun (r, world) =>
      (.call n (!r.isOk), { s.goTo n request (.receiving (k r)) with world })
  | some ⟨request, .receiving (.ret (some event))⟩ =>
    some (.dispatch n event,
      { s.goTo n request (.handling (Webhook.dispatch handler.eventHandler event)) with
        dispatched := (n, request) :: s.dispatched })
  | some ⟨request, .receiving (.ret none)⟩ =>
    some (.duplicate n, s.goTo n request (.closing (.ok false) Py.rollback))
  | some ⟨request, .receiving (.raise x)⟩ =>
    some (.fail n, s.goTo n request (.closing (.error x) Py.rollback))
  | some ⟨request, .handling (.call e k)⟩ =>
    (respond answers (.call n) false s.world e).map fun (r, world) =>
      (.call n (!r.isOk), { s.goTo n request (.handling (k r)) with world })
  | some ⟨request, .handling (.ret ())⟩ =>
    some (.complete n, { s.goTo n request (.closing (.ok true) Py.rollback) with
      handled := request :: s.handled })
  | some ⟨request, .handling (.raise x)⟩ =>
    some (.fail n, s.goTo n request (.closing (.error x) Py.rollback))
  | some ⟨request, .closing r (.call e k)⟩ =>
    (respond answers (.call n) false s.world e).map fun (r', world) =>
      (.call n (!r'.isOk), { s.goTo n request (.closing r (k r')) with world })
  | some ⟨request, .closing r (.ret ())⟩ =>
    some (.close n, s.goTo n request (.answered (Webhook.answer r)))
  | some ⟨_, .answered r⟩ => some (.answer n r, s.drop n)
  | _ => none

/-- What a command does. -/
def perform (secret : String) (handler : OrchestrationHandler) (answers : Responder X)
    (s : Receiver X) : Command → Option (Event × Receiver X)
  | .arrive request => some (.arrive request,
      { s.goTo s.next request (Phase.start secret request) with next := s.next + 1 })
  | .attempt n => turn handler answers n s
  | .crash => some (.crash, { s with
      world := { s.world with db := s.world.db.crash }
      attempts := fun _ => none })

variable {secret : String} {handler : OrchestrationHandler} {answers : Responder X}

theorem call_sound {s s' : Receiver X} {ev : Event} {n : Nat} {request : WebhookRequest}
    {phase : Phase} {e : Req} {next : Except PyError e.Resp → Phase}
    (hn : s.attempts n = some ⟨request, phase⟩) (hasks : phase.Asks e next)
    (h : ((respond answers (.call n) false s.world e).map fun (r, world) =>
      (Event.call n (!r.isOk), { s.goTo n request (next r) with world })) = some (ev, s')) :
    Step secret handler s ev s' := by
  obtain ⟨⟨r, world⟩, hresp, heq⟩ := Option.map_eq_some_iff.mp h
  obtain ⟨rfl, rfl⟩ := Prod.mk.inj heq
  exact .call hn hasks (respond_sound hresp)

theorem turn_sound {s s' : Receiver X} {ev : Event} {n : Nat}
    (h : turn handler answers n s = some (ev, s')) : Step secret handler s ev s' := by
  unfold turn at h
  split at h
  · -- one case a phase, in the order of the source
    rename_i request e k hn
    exact call_sound hn (.receiving k) h
  · rename_i request event hn
    obtain ⟨rfl, rfl⟩ := Prod.mk.inj (Option.some.inj h)
    exact .dispatch hn
  · rename_i request hn
    obtain ⟨rfl, rfl⟩ := Prod.mk.inj (Option.some.inj h)
    exact .duplicate hn
  · rename_i request x hn
    obtain ⟨rfl, rfl⟩ := Prod.mk.inj (Option.some.inj h)
    exact .refuse hn
  · rename_i request e k hn
    exact call_sound hn (.handling k) h
  · rename_i request hn
    obtain ⟨rfl, rfl⟩ := Prod.mk.inj (Option.some.inj h)
    exact .complete hn
  · rename_i request x hn
    obtain ⟨rfl, rfl⟩ := Prod.mk.inj (Option.some.inj h)
    exact .fail hn
  · rename_i request r e k hn
    exact call_sound hn (.closing r k) h
  · rename_i request r hn
    obtain ⟨rfl, rfl⟩ := Prod.mk.inj (Option.some.inj h)
    exact .close hn
  · rename_i request r hn
    obtain ⟨rfl, rfl⟩ := Prod.mk.inj (Option.some.inj h)
    exact .answer hn
  · cases h

theorem perform_sound {command : Command} {s s' : Receiver X} {ev : Event}
    (h : perform secret handler answers s command = some (ev, s')) :
    Step secret handler s ev s' := by
  cases command with
  | arrive request =>
    obtain ⟨rfl, rfl⟩ := Prod.mk.inj (Option.some.inj h)
    exact .arrive request
  | attempt n => exact turn_sound h
  | crash =>
    obtain ⟨rfl, rfl⟩ := Prod.mk.inj (Option.some.inj h)
    exact .crash

variable (secret handler) in
/-- A schedule, a test of the state it leads to, and what they show. -/
theorem exists_of_schedule (answers : Responder X) (allowed : Receiver X → Event → Bool)
    {P : Receiver X → Event → Prop}
    (hallowed : ∀ s ev, ReachableIf secret handler P s → allowed s ev = true → P s ev)
    (ext : X.State) (commands : List Command) (test : Receiver X → Bool)
    (h : (Schedule.execute (perform secret handler answers) allowed commands
      (Receiver.initial ext)).any test = true) :
    ∃ s, ReachableIf secret handler P s ∧ test s = true := by
  refine Schedule.exists_of_execute (fun s command _ ev s' hs hperf hok => ?_)
    (ReachableIf.initial ext) h
  exact hs.step (perform_sound hperf) (hallowed s ev hs hok)

/-- Attempt `n` is about to be answered with 202. -/
def dropping (n : Nat) (s : Receiver X) : Bool :=
  match s.attempts n with
  | some ⟨_, .answered (.ok 202)⟩ => true
  | _ => false

omit [UnicodeDb] [ConfigLibrary] [WebhookLibrary] in
theorem dropping_eq_true {n : Nat} {s : Receiver X} (h : dropping n s = true) :
    ∃ request, s.attempts n = some ⟨request, .answered (.ok 202)⟩ := by
  unfold dropping at h
  split at h
  · rename_i request hn
    exact ⟨request, hn⟩
  · cases h

end Receiver

end VidiPr
