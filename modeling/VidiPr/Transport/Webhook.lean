import VidiPr.Orchestration.Handlers

/-!
# The webhook endpoint

`transport/webhook.py` and the `/webhook` route of `transport/server.py`. The signature check and
the payload parsers are githubkit's.
-/

namespace VidiPr

open Effect

/-- `MAX_BODY_BYTES` -/
def maxBodyBytes : Nat := 25 * 1024 * 1024

/-- What githubkit makes of a payload: one of the two events the service has a handler for, or
another, whose content does not matter. -/
inductive WebhookEvent where
  | pullRequest (event : PullRequestEvent)
  | issueComment (event : IssueCommentEvent)
  | other

class WebhookLibrary where
  /-- `verify_signature(secret, body, signature)` -/
  verify : (secret : String) → (body : List UInt8) → (signature : String) → Bool
  /-- `parse_webhook`, for each type of event -/
  parsePullRequest : List UInt8 → Except String PullRequestEvent
  parseIssueComment : List UInt8 → Except String IssueCommentEvent
  parseOther : (eventType : String) → List UInt8 → Except String Unit

/-- A request to `/webhook`. The declared length is absent, not an integer, or an integer. -/
structure WebhookRequest where
  contentLength : Option (Option Int) := none
  body : List UInt8
  eventType : Option String
  deliveryId : Option String
  signature : Option String
deriving DecidableEq

/-- The `EventHandler` protocol: what the endpoint calls for the two types of event, each in the
task of the request. -/
structure EventHandler where
  onPullRequest : PullRequestEvent → Py Unit
  onIssueComment : IssueCommentEvent → Py Unit

def OrchestrationHandler.eventHandler [Text.UnicodeDb] [ConfigLibrary]
    (handler : OrchestrationHandler) : EventHandler where
  onPullRequest := onPullRequest
  onIssueComment := handler.onIssueComment

namespace Webhook

/-- `_dispatch`: the two types of event that have a handler go to it, and every other type is
accepted without one. -/
def dispatch (handler : EventHandler) : WebhookEvent → Py Unit
  | .pullRequest event => handler.onPullRequest event
  | .issueComment event => handler.onIssueComment event
  | .other => return

variable [WebhookLibrary]

/-- `parse_webhook(event_type, body)` -/
def parse (eventType : String) (body : List UInt8) : Except String WebhookEvent :=
  if eventType = "pull_request" then
    (WebhookLibrary.parsePullRequest body).map .pullRequest
  else if eventType = "issue_comment" then
    (WebhookLibrary.parseIssueComment body).map .issueComment
  else (WebhookLibrary.parseOther eventType body).map fun _ => .other

/-- The event of a request; a payload that does not parse is a bad request. -/
def event (eventType : String) (body : List UInt8) : Except PyError WebhookEvent :=
  match parse eventType body with
  | .ok event => .ok event
  | .error exc => .error (.webhookBadRequest ("could not parse " ++ eventType ++ ": " ++ exc))

variable (secret : String) (handler : EventHandler) (request : WebhookRequest)

/-- `process_webhook` after its checks. The row of the delivery is inserted and committed; where it
was there already nothing more is done, and otherwise the payload is parsed and dispatched. -/
def processDelivery (eventType deliveryId : String) : Py Bool := do
  let isNew ← recordDelivery deliveryId
  Py.commit
  if ¬ isNew then return false
  else do
    let event ← Py.ofExcept (event eventType request.body)
    dispatch handler event
    return true

/-- `process_webhook`: the three headers, the signature, and then the row of the delivery, which is
committed before the payload is looked at. -/
def processWebhook : Py Bool :=
  match request.signature, request.eventType, request.deliveryId with
  | none, _, _ => Py.throw (.webhookAuthError "X-Hub-Signature-256 missing")
  | some _, none, _ => Py.throw (.webhookBadRequest "X-GitHub-Event missing")
  | some _, some _, none => Py.throw (.webhookBadRequest "X-GitHub-Delivery missing")
  | some signature, some eventType, some deliveryId =>
    if ¬ WebhookLibrary.verify secret request.body signature then
      Py.throw (.webhookAuthError "invalid signature")
    else processDelivery handler request eventType deliveryId

/-- The route; its result is the status of the response. -/
def webhook : Py Nat :=
  if request.contentLength = some none then return 400
  else if request.contentLength.any (·.any fun declared => (maxBodyBytes : Int) < declared) then
    return 413
  else if maxBodyBytes < request.body.length then return 413
  else (Py.withSession (processWebhook secret handler request)).andThen fun
    | .ok isNew => return if isNew then 200 else 202
    | .error (.webhookAuthError _) => return 401
    | .error (.webhookBadRequest _) => return 400
    | .error x => Py.throw x

/-! ## Before and after the handler

`process_webhook` in two parts: up to the call of the handler, and from there on. -/

/-- The event to dispatch, or `none` for a duplicate, after the checks. -/
def acceptDelivery (eventType deliveryId : String) : Py (Option WebhookEvent) := do
  let isNew ← recordDelivery deliveryId
  Py.commit
  if ¬ isNew then return none
  else do
    let event ← Py.ofExcept (event eventType request.body)
    return some event

/-- `process_webhook` up to the call of the handler: the event to call it with, or `none` for a
delivery that was seen before. -/
def receive : Py (Option WebhookEvent) :=
  match request.signature, request.eventType, request.deliveryId with
  | none, _, _ => Py.throw (.webhookAuthError "X-Hub-Signature-256 missing")
  | some _, none, _ => Py.throw (.webhookBadRequest "X-GitHub-Event missing")
  | some _, some _, none => Py.throw (.webhookBadRequest "X-GitHub-Delivery missing")
  | some signature, some eventType, some deliveryId =>
    if ¬ WebhookLibrary.verify secret request.body signature then
      Py.throw (.webhookAuthError "invalid signature")
    else acceptDelivery request eventType deliveryId

/-- `process_webhook` from the call of the handler on. It is called at most once, and not at all for
a duplicate. -/
def handle : Option WebhookEvent → Py Bool
  | none => return false
  | some event => (dispatch handler event).bind fun _ => .ret true

/-- The response to what became of `process_webhook`: 200 or 202 by whether the delivery was new,
401 and 400 for what it refuses. Any other exception gets out, and the server answers 500. -/
def answer : Except PyError Bool → Except PyError Nat
  | .ok isNew => .ok (if isNew then 200 else 202)
  | .error (.webhookAuthError _) => .ok 401
  | .error (.webhookBadRequest _) => .ok 400
  | .error x => .error x

/-- The checks of the route that come before it opens a session. -/
def refusal : Option Nat :=
  if request.contentLength = some none then some 400
  else if request.contentLength.any (·.any fun declared => (maxBodyBytes : Int) < declared) then
    some 413
  else if maxBodyBytes < request.body.length then some 413
  else none

variable {secret handler request}

theorem processDelivery_eq (eventType deliveryId : String) :
    processDelivery handler request eventType deliveryId =
      (acceptDelivery request eventType deliveryId).bind (handle handler) := by
  have hrest : ∀ isNew : Bool,
      ((if ¬ isNew then .ret none
        else (Py.ofExcept (event eventType request.body)).bind fun event => .ret (some event) :
          Py (Option WebhookEvent)).bind (handle handler)) =
      if ¬ isNew then .ret false
      else (Py.ofExcept (event eventType request.body)).bind fun event =>
        (dispatch handler event).bind fun _ => .ret true := by
    intro isNew
    cases isNew with
    | false => rfl
    | true =>
      rw [if_neg (by simp), if_neg (by simp), Prog.bind_assoc]
      rfl
  unfold processDelivery acceptDelivery
  simp only [Prog.bind_eq, Prog.pure_eq, Prog.bind_assoc, hrest]

theorem processWebhook_eq :
    processWebhook secret handler request = (receive secret request).bind (handle handler) := by
  unfold processWebhook receive
  split
  · rfl
  · rfl
  · rfl
  · split
    · rfl
    · exact processDelivery_eq _ _

theorem webhook_eq : webhook secret handler request =
    match refusal request with
    | some status => .ret status
    | none => (Py.withSession (processWebhook secret handler request)).andThen fun r =>
        Prog.ofExcept (answer r) := by
  unfold webhook refusal
  split_ifs
  · rfl
  · rfl
  · rfl
  · dsimp only
    congr 1
    funext r
    cases r with
    | ok isNew => rfl
    | error x => cases x <;> rfl

omit [WebhookLibrary] in
theorem refusal_ne {status : Nat} (h : refusal request = some status) : status ≠ 202 := by
  unfold refusal at h
  split_ifs at h <;> cases h <;> decide

omit [WebhookLibrary] in
/-- 202 is the answer to a duplicate. -/
theorem answer_eq_202 {r : Except PyError Bool} (h : answer r = .ok 202) : r = .ok false := by
  unfold answer at h
  split at h
  · rename_i isNew
    cases isNew with
    | false => rfl
    | true => cases h
  · cases h
  · cases h
  · cases h

end Webhook

end VidiPr
