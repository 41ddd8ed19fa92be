import Mathlib.Algebra.Ring.Int.Defs
import VidiPr.Errors
import VidiPr.Lib.Json
import VidiPr.Models.Review

/-!
# The language model client

`llm/client.py`: what `chat` and `list_models` make of the HTTP outcomes they get, and the startup
probe. A reply is any decoded JSON text, of any shape.

* **`parseResponse_typed`**, **`models_typed`** — the shapes of a reply from which no exception
  but an `LLMError` comes.
* **`llm_errors_typed`** — `chat`, `list_models` and the probe over every sequence of outcomes.
-/

namespace VidiPr

open Text

/-- What pydantic makes of a string where it wants an `int`. -/
class PydanticLibrary where
  intOfStr : String → Option Int

/-- An exception of `response.json()`: `ValueError` for a text that is not JSON, `RecursionError`
for one that nests too deep. -/
inductive JsonError where
  | valueError (message : String)
  | recursionError (message : String)
deriving DecidableEq, Repr

/-- A response, with what `response.json()` gives. -/
structure HttpResponse where
  statusCode : Nat
  text : String
  json : Except JsonError Json

/-- How a request to the endpoint ends: `httpx.TimeoutException`, another `httpx.RequestError`, or
a response. -/
inductive HttpOutcome where
  | timeout (message : String)
  | requestError (message : String)
  | response (r : HttpResponse)

namespace OpenAICompatClient

/-- An `AttributeError`, `TypeError`, `KeyError` or `IndexError`. -/
def pythonError {α : Type} (r : Except String α) : Except PyError α := r.mapError .other

/-! ## Replies -/

/-- The texts by which `list_models` and `_execute` name what they report on. -/
structure Labels where
  request : String
  endpoint : String
  response : String

/-- A request up to its decoded reply: `list_models` and `_execute` share these branches. -/
def decoded (labels : Labels) : HttpOutcome → Except PyError Json
  | .timeout exc => .error (.llmTransientError (labels.request ++ " timed out: " ++ exc))
  | .requestError exc => .error (.llmTransientError (labels.request ++ " failed: " ++ exc))
  | .response response =>
    let returned := labels.endpoint ++ " returned " ++ toString response.statusCode ++ ": "
      ++ response.text
    if 500 ≤ response.statusCode ∧ response.statusCode < 600 then
      .error (.llmTransientError returned)
    else if 400 ≤ response.statusCode ∧ response.statusCode < 500 then
      .error (.llmPermanentError returned)
    else match response.json with
      | .ok payload => .ok payload
      | .error (.valueError exc) =>
        .error (.llmError (labels.response ++ " was not valid JSON: " ++ exc))
      | .error (.recursionError exc) => .error (.other exc)

section Client

variable [UnicodeDb]

/-- `str(entry["id"]) for entry in data if isinstance(entry, dict) and "id" in entry` -/
def modelId : Json → Option String
  | .obj entry => (Json.lookup entry "id").map Json.toStr
  | _ => none

/-- `list_models` on its decoded reply. -/
def modelIds (payload : Json) : Except PyError (List String) := do
  let data ← pythonError (payload.get "data" .null)
  let entries ← pythonError (data.orElse (.arr [])).elements
  return entries.filterMap modelId

/-- `list_models`, on the outcome of its one request: the ids of the entries that have one, in the
order of the reply. -/
def listModels (outcome : HttpOutcome) : Except PyError (List String) := do
  let payload ← decoded {
    request := "LLM /models request"
    endpoint := "LLM /models"
    response := "LLM /models response" } outcome
  modelIds payload

/-- What pydantic accepts for an `int`: a float has to be integral and in the range of an `i64`. -/
def intField [PydanticLibrary] : Json → Option Int
  | .int n => some n
  | .bool b => some (if b then 1 else 0)
  | .float x => x.integral.filter fun n => -(2 ^ 63) < n ∧ n < 2 ^ 63
  | .str s => PydanticLibrary.intOfStr s
  | _ => none

/-- A field of `TokenUsage`, `0` where it is absent. -/
def tokenCount [PydanticLibrary] (items : List (String × Json)) (field : String) : Option Int :=
  match Json.lookup items field with
  | some x => intField x
  | none => some 0

/-- `TokenUsage.model_validate`: pydantic's checks of the three counts. What fails is a
`ValidationError`, which is a `ValueError` and not an `LLMError`. -/
def validateUsage [PydanticLibrary] (payload : Json) : Except PyError TokenUsage :=
  let fails : PyError := .valueError ("validation error for TokenUsage: " ++ payload.repr)
  match payload with
  | .obj items =>
    match tokenCount items "prompt_tokens", tokenCount items "completion_tokens",
      tokenCount items "total_tokens" with
    | some promptTokens, some completionTokens, some totalTokens =>
      .ok { promptTokens, completionTokens, totalTokens }
    | _, _, _ => .error fails
  | _ => .error fails

variable [PydanticLibrary]

/-- `_parse_response` from the message's content on. -/
def responseOf (payload choice message content : Json) : Except PyError ChatResponse := do
  let reasoning ← pythonError (message.get "reasoning_content" .null)
  let finishReason ← pythonError (choice.get "finish_reason" .null)
  let usagePayload ← pythonError (payload.get "usage" .null)
  let model ← pythonError (payload.get "model" (.str ""))
  let usage ← validateUsage (usagePayload.orElse (.obj []))
  return {
    content := content.toStr
    model := model.toStr
    usage
    reasoningContent := (reasoning.orElse (.str "")).toStr
    finishReason := match finishReason with
      | .null => none
      | reason => some reason.toStr }

/-- `_parse_response` from the message on. -/
def messageOf (payload choice message : Json) : Except PyError ChatResponse := do
  let content ← pythonError (message.get "content" .null)
  match content with
  | .null => .error (.llmError "LLM response had no message content")
  | content => responseOf payload choice message content

/-- `_parse_response`: the first choice, its message, and then the content. What is missing or
counts as false on the way is an `LLMError` or read as empty; what has another type raises what
Python raises. -/
def parseResponse (payload : Json) : Except PyError ChatResponse := do
  let choices ← pythonError (payload.get "choices" .null)
  let choices := choices.orElse (.arr [])
  if ¬ choices.truthy then .error (.llmError "LLM response contained no choices")
  else do
    let choice ← pythonError choices.first
    let message ← pythonError (choice.get "message" .null)
    messageOf payload choice (message.orElse (.obj []))

/-- `_execute`: one request of `chat`. An outcome that may be better the next time is an
`LLMTransientError`, and that is all that `chat` tries again. -/
def execute (outcome : HttpOutcome) : Except PyError ChatResponse := do
  let payload ← decoded {
    request := "LLM request"
    endpoint := "LLM endpoint"
    response := "LLM response" } outcome
  parseResponse payload

/-- The retry loop of `chat`, with `retries` attempts left after the next: an
`LLMTransientError` is retried, and the last one is raised as it is. -/
def attempts : Nat → (Nat → HttpOutcome) → Except PyError ChatResponse
  | 0, outcomes => execute (outcomes 0)
  | retries + 1, outcomes =>
    match execute (outcomes 0) with
    | .error (.llmTransientError _) => attempts retries fun n => outcomes (n + 1)
    | r => r

/-- `chat`: the outcomes of its requests, one after the other. -/
def chat (maxAttempts : Nat) (outcomes : Nat → HttpOutcome) : Except PyError ChatResponse :=
  attempts (maxAttempts - 1) outcomes

omit [PydanticLibrary] in
/-- `_probe_llm`: it only logs. -/
def probeLlm (outcome : HttpOutcome) : Except PyError Unit :=
  match listModels outcome with
  | .ok _ => .ok ()
  | .error x => if x.isLLMError then .ok () else .error x

/-! ## The shapes of a reply -/

/-- What escapes is an `LLMError`. -/
def Typed {α : Type} (r : Except PyError α) : Prop := ∀ x, r = .error x → x.isLLMError = true

/-- The value of a field, `null` where it is absent. -/
def field (items : List (String × Json)) (key : String) : Json :=
  (Json.lookup items key).getD .null

/-- An object whose `data`, where it counts as true, can be iterated over. -/
def ModelsShaped : Json → Prop
  | .obj items => ∃ entries, ((field items "data").orElse (.arr [])).elements = .ok entries
  | _ => False

/-- Where `usage` counts as true it is an object, and each of its counts is an `int` or absent. -/
def UsageShaped (items : List (String × Json)) : Prop :=
  (field items "usage").truthy = true → ∃ usage, field items "usage" = .obj usage ∧
    ∀ count ∈ ["prompt_tokens", "completion_tokens", "total_tokens"],
      (tokenCount usage count).isSome = true

/-- A choice: its `message`, where it counts as true, is an object, and the usage is well shaped
where there is a content. -/
def ChoiceShaped (items choice : List (String × Json)) : Prop :=
  (field choice "message").truthy = true → ∃ message, field choice "message" = .obj message ∧
    (field message "content" ≠ .null → UsageShaped items)

/-- An object whose `choices`, where they count as true, are a list that begins with a choice. -/
def ChatShaped : Json → Prop
  | .obj items => (field items "choices").truthy = true → ∃ choice rest,
      field items "choices" = .arr (.obj choice :: rest) ∧ ChoiceShaped items choice
  | _ => False

section Typed

variable {α β : Type}

omit [UnicodeDb] [PydanticLibrary]

@[simp] theorem typed_ok (a : α) : Typed (.ok a : Except PyError α) := nofun

theorem typed_error {x : PyError} : Typed (.error x : Except PyError α) ↔ x.isLLMError = true :=
  ⟨fun h => h x rfl, fun h _ hy => Except.error.inj hy ▸ h⟩

/-- An exception of Python's own is not one of the client's. -/
theorem not_typed_pythonError {m : String} {f : α → Except PyError β} :
    ¬ Typed (pythonError (.error m) >>= f) :=
  fun h => Bool.noConfusion (typed_error.mp h)

/-- `x.get(key)` of a dictionary, and what follows it. -/
theorem get_obj_bind (items : List (String × Json)) (key : String)
    (f : Json → Except PyError β) :
    (pythonError (Json.get (.obj items) key .null) >>= f) = f (field items key) := rfl

theorem exists_obj_of_typed {x : Json} {key : String} {default : Json}
    {f : Json → Except PyError β} (h : Typed (pythonError (x.get key default) >>= f)) :
    ∃ items, x = .obj items := by
  cases x with
  | obj items => exact ⟨items, rfl⟩
  | _ => exact absurd h not_typed_pythonError

end Typed

omit [PydanticLibrary] in
theorem models_typed (payload : Json) : Typed (modelIds payload) ↔ ModelsShaped payload := by
  unfold modelIds
  cases payload with
  | obj items =>
    rw [get_obj_bind]
    cases helements : ((field items "data").orElse (.arr [])).elements with
    | ok entries => exact iff_of_true (typed_ok _) ⟨entries, helements⟩
    | error m =>
      refine iff_of_false not_typed_pythonError fun h => ?_
      obtain ⟨entries, hentries⟩ := h
      cases helements.symm.trans hentries
  | _ => exact iff_of_false not_typed_pythonError id

theorem validateUsage_typed (payload : Json) :
    Typed (validateUsage payload) ↔ ∃ usage, payload = .obj usage ∧
      ∀ count ∈ ["prompt_tokens", "completion_tokens", "total_tokens"],
        (tokenCount usage count).isSome = true := by
  cases payload with
  | obj items =>
    cases hprompt : tokenCount items "prompt_tokens" <;>
      cases hcompletion : tokenCount items "completion_tokens" <;>
      cases htotal : tokenCount items "total_tokens" <;>
      simp [validateUsage, Typed, PyError.isLLMError, hprompt, hcompletion, htotal]
  | _ => simp [validateUsage, Typed, PyError.isLLMError]

/-- What follows a validated usage raises nothing. -/
theorem usage_bind_typed {α : Type} (items : List (String × Json)) (f : TokenUsage → α) :
    Typed (validateUsage ((field items "usage").orElse (.obj [])) >>= fun usage => .ok (f usage)) ↔
      UsageShaped items := by
  have hbind : ∀ r : Except PyError TokenUsage,
      Typed (r >>= fun usage => .ok (f usage)) ↔ Typed r := by
    intro r
    cases r with
    | ok usage => exact iff_of_true (typed_ok _) (typed_ok _)
    | error x => exact typed_error.trans typed_error.symm
  rw [hbind, validateUsage_typed]
  cases htruthy : (field items "usage").truthy with
  | true =>
    rw [Json.orElse_of_truthy htruthy]
    exact ⟨fun h _ => h, fun h => h htruthy⟩
  | false =>
    rw [Json.orElse_of_falsy htruthy]
    refine iff_of_true ⟨[], rfl, fun count _ => rfl⟩ fun h => ?_
    rw [htruthy] at h
    cases h

/-- With a content, it is the usage that can still be wrong. -/
theorem responseOf_typed (items choice message : List (String × Json)) (content : Json) :
    Typed (responseOf (.obj items) (.obj choice) (.obj message) content) ↔ UsageShaped items := by
  unfold responseOf
  rw [get_obj_bind, get_obj_bind, get_obj_bind]
  exact usage_bind_typed items _

/-- A message that counts as true has to be a dictionary. -/
theorem message_typed (items choice : List (String × Json)) :
    Typed (messageOf (.obj items) (.obj choice) ((field choice "message").orElse (.obj []))) ↔
      ChoiceShaped items choice := by
  unfold messageOf
  cases htruthy : (field choice "message").truthy with
  | false =>
    -- no message, so no content
    rw [Json.orElse_of_falsy htruthy]
    refine iff_of_true (typed_error.mpr rfl) fun h => ?_
    rw [htruthy] at h
    cases h
  | true =>
    rw [Json.orElse_of_truthy htruthy]
    constructor
    · intro h _
      obtain ⟨message, hmessage⟩ := exists_obj_of_typed h
      refine ⟨message, hmessage, fun hcontent => ?_⟩
      rw [hmessage, get_obj_bind] at h
      split at h
      · rename_i hnull
        exact absurd hnull hcontent
      · exact (responseOf_typed items choice message _).mp h
    · intro h
      obtain ⟨message, hmessage, husage⟩ := h htruthy
      rw [hmessage, get_obj_bind]
      split
      · exact typed_error.mpr rfl
      · rename_i hcontent
        exact (responseOf_typed items choice message _).mpr (husage hcontent)

omit [UnicodeDb] [PydanticLibrary] in
/-- Where the first element has `.get`, it is one of a list, and a dictionary. -/
theorem first_typed {α : Type} {choices : Json} {key : String} {f : Json → Json → Except PyError α}
    (h : Typed (pythonError choices.first >>= fun choice =>
      pythonError (choice.get key .null) >>= f choice)) :
    ∃ choice rest, choices = .arr (.obj choice :: rest) := by
  cases hfirst : choices.first with
  | error m =>
    rw [hfirst] at h
    exact absurd h not_typed_pythonError
  | ok choice =>
    rw [hfirst] at h
    obtain ⟨items, rfl⟩ := exists_obj_of_typed h
    cases choices with
    -- a list: its first element has the `.get`
    | arr xs =>
      cases xs with
      | nil => cases hfirst
      | cons x rest =>
        cases hfirst
        exact ⟨items, rest, rfl⟩
    -- a string has a first element, but no character has `.get`
    | str s =>
      simp only [Json.first] at hfirst
      split at hfirst
      · cases hfirst
      · cases hfirst
    | _ => cases hfirst

theorem parseResponse_typed (payload : Json) :
    Typed (parseResponse payload) ↔ ChatShaped payload := by
  unfold parseResponse
  cases payload with
  | obj items =>
    rw [get_obj_bind]
    dsimp only [ChatShaped]
    cases htruthy : (field items "choices").truthy with
    | false =>
      rw [Json.orElse_of_falsy htruthy]
      exact iff_of_true (typed_error.mpr rfl) nofun
    | true =>
      rw [Json.orElse_of_truthy htruthy, if_neg fun h => h htruthy]
      constructor
      · intro h _
        obtain ⟨choice, rest, hchoices⟩ := first_typed h
        rw [hchoices] at h
        exact ⟨choice, rest, hchoices, (message_typed items choice).mp h⟩
      · intro h
        obtain ⟨choice, rest, hchoices, hshaped⟩ := h rfl
        rw [hchoices]
        exact (message_typed items choice).mpr hshaped
  | _ => exact iff_of_false not_typed_pythonError id

/-! ## Every outcome -/

/-- A reply that is read has to decode, to one that is `Shaped`; a 4xx or 5xx is not read. -/
def Readable (Shaped : Json → Prop) : HttpOutcome → Prop
  | .response response =>
    400 ≤ response.statusCode ∧ response.statusCode < 600 ∨
      match response.json with
      | .ok payload => Shaped payload
      | .error (.valueError _) => True
      | .error (.recursionError _) => False
  | _ => True

/-- An outcome that `chat` retries: a timeout, a connection that failed, or a 5xx. -/
def Retried : HttpOutcome → Prop
  | .response response => 500 ≤ response.statusCode ∧ response.statusCode < 600
  | _ => True

section Decoded

variable {α : Type} (labels : Labels) (f : Json → Except PyError α)

omit [UnicodeDb] [PydanticLibrary]

theorem decoded_typed (outcome : HttpOutcome) :
    Typed (decoded labels outcome >>= f) ↔ Readable (fun payload => Typed (f payload)) outcome := by
  cases outcome with
  | timeout exc => exact iff_of_true (typed_error.mpr rfl) trivial
  | requestError exc => exact iff_of_true (typed_error.mpr rfl) trivial
  | response response =>
    simp only [decoded, Readable]
    by_cases hserver : 500 ≤ response.statusCode ∧ response.statusCode < 600
    · rw [if_pos hserver]
      exact iff_of_true (typed_error.mpr rfl) (Or.inl (by omega))
    · rw [if_neg hserver]
      by_cases hclient : 400 ≤ response.statusCode ∧ response.statusCode < 500
      · rw [if_pos hclient]
        exact iff_of_true (typed_error.mpr rfl) (Or.inl (by omega))
      · have hread : ¬ (400 ≤ response.statusCode ∧ response.statusCode < 600) := by omega
        rw [if_neg hclient, or_iff_right hread]
        cases response.json with
        | ok payload => exact Iff.rfl
        | error x =>
          cases x with
          | valueError exc => exact iff_of_true (typed_error.mpr rfl) trivial
          | recursionError exc =>
            exact iff_of_false (fun h => Bool.noConfusion (typed_error.mp h)) id

/-- An outcome that is retried is reported as transient. -/
theorem decoded_of_retried {outcome : HttpOutcome} (h : Retried outcome) :
    ∃ m, (decoded labels outcome >>= f) = .error (.llmTransientError m) := by
  cases outcome with
  | timeout exc => exact ⟨_, rfl⟩
  | requestError exc => exact ⟨_, rfl⟩
  | response response =>
    simp only [decoded, if_pos (show 500 ≤ response.statusCode ∧ _ from h)]
    exact ⟨_, rfl⟩

/-- Nothing else is, where reading a reply reports nothing as transient. -/
theorem retried_of_decoded (hf : ∀ payload m, f payload ≠ .error (.llmTransientError m))
    {outcome : HttpOutcome} {m : String}
    (h : (decoded labels outcome >>= f) = .error (.llmTransientError m)) : Retried outcome := by
  cases outcome with
  | timeout exc => trivial
  | requestError exc => trivial
  | response response =>
    by_cases hserver : 500 ≤ response.statusCode ∧ response.statusCode < 600
    · exact hserver
    · simp only [decoded, if_neg hserver] at h
      by_cases hclient : 400 ≤ response.statusCode ∧ response.statusCode < 500
      · rw [if_pos hclient] at h
        cases h
      · rw [if_neg hclient] at h
        cases hjson : response.json with
        | ok payload =>
          rw [hjson] at h
          exact absurd h (hf payload m)
        | error x =>
          rw [hjson] at h
          cases x <;> cases h

end Decoded

/-! Reading a reply reports nothing as transient. -/

/-- It is not reported as transient, so `chat` makes no further attempt. -/
def Settled {α : Type} (r : Except PyError α) : Prop := ∀ m, r ≠ .error (.llmTransientError m)

section Settled

variable {α β : Type}

omit [UnicodeDb] [PydanticLibrary]

theorem settled_pythonError_bind {r : Except String α} {f : α → Except PyError β}
    (hf : ∀ a, Settled (f a)) : Settled (pythonError r >>= f) := by
  cases r with
  | ok a => exact hf a
  | error exc => exact nofun

end Settled

theorem settled_validateUsage (payload : Json) : Settled (validateUsage payload) := by
  unfold validateUsage
  dsimp only
  split
  · split <;> exact nofun
  · exact nofun

theorem settled_parseResponse (payload : Json) : Settled (parseResponse payload) := by
  unfold parseResponse
  refine settled_pythonError_bind fun choices => ?_
  dsimp only
  split
  · exact nofun
  · refine settled_pythonError_bind fun choice => settled_pythonError_bind fun message => ?_
    unfold messageOf
    refine settled_pythonError_bind fun content => ?_
    split
    · exact nofun
    · unfold responseOf
      refine settled_pythonError_bind fun reasoning => settled_pythonError_bind fun finish =>
        settled_pythonError_bind fun usagePayload => settled_pythonError_bind fun model => ?_
      cases husage : validateUsage (usagePayload.orElse (.obj [])) with
      | ok usage => exact nofun
      | error x =>
        intro m h
        cases h
        exact settled_validateUsage _ m husage

theorem execute_typed (outcome : HttpOutcome) :
    Typed (execute outcome) ↔ Readable ChatShaped outcome := by
  refine (decoded_typed _ parseResponse outcome).trans ?_
  cases outcome with
  | response response =>
    refine or_congr_right ?_
    cases response.json with
    | ok payload => exact parseResponse_typed payload
    | error x => cases x <;> exact Iff.rfl
  | _ => exact Iff.rfl

/-- `chat` ends with the first outcome that is not retried, or with the last it may ask for. So its
errors are typed exactly if that outcome can be read, whatever comes before it. -/
theorem attempts_typed (retries : Nat) (outcomes : Nat → HttpOutcome) :
    Typed (attempts retries outcomes) ↔
      ∀ n, n ≤ retries → (∀ i, i < n → Retried (outcomes i)) →
        Readable ChatShaped (outcomes n) := by
  induction retries generalizing outcomes with
  | zero =>
    refine (execute_typed (outcomes 0)).trans
      ⟨fun h n hn _ => ?_, fun h => h 0 (Nat.le_refl 0) nofun⟩
    rw [Nat.le_zero.mp hn]
    exact h
  | succ retries ih =>
    by_cases hretried : Retried (outcomes 0)
    · -- the first outcome is retried, and the loop goes on with the others
      obtain ⟨m, hm⟩ := decoded_of_retried {
        request := "LLM request"
        endpoint := "LLM endpoint"
        response := "LLM response" } parseResponse hretried
      have hnext :
          attempts (retries + 1) outcomes = attempts retries fun n => outcomes (n + 1) := by
        rw [attempts]
        unfold execute
        rw [hm]
      have hread : Readable ChatShaped (outcomes 0) := by
        refine (execute_typed (outcomes 0)).mp ?_
        unfold execute
        rw [hm]
        exact typed_error.mpr rfl
      rw [hnext, ih]
      constructor
      · intro h n hn hbefore
        cases n with
        | zero => exact hread
        | succ n => exact h n (by omega) fun i hi => hbefore (i + 1) (by omega)
      · intro h n hn hbefore
        refine h (n + 1) (by omega) fun i hi => ?_
        cases i with
        | zero => exact hretried
        | succ i => exact hbefore i (by omega)
    · -- it is not, so it is the last
      have hlast : attempts (retries + 1) outcomes = execute (outcomes 0) := by
        rw [attempts]
        split
        · rename_i m hm
          exact absurd
            (retried_of_decoded _ _ (fun payload m => settled_parseResponse payload m) hm)
            hretried
        · rfl
      rw [hlast, execute_typed]
      constructor
      · intro h n hn hbefore
        cases n with
        | zero => exact h
        | succ n => exact absurd (hbefore 0 (by omega)) hretried
      · exact fun h => h 0 (by omega) fun i hi => absurd hi (Nat.not_lt_zero i)

omit [PydanticLibrary] in
theorem listModels_typed (outcome : HttpOutcome) :
    Typed (listModels outcome) ↔ Readable ModelsShaped outcome := by
  refine (decoded_typed _ modelIds outcome).trans ?_
  cases outcome with
  | response response =>
    refine or_congr_right ?_
    cases response.json with
    | ok payload => exact models_typed payload
    | error x => cases x <;> exact Iff.rfl
  | _ => exact Iff.rfl

omit [PydanticLibrary] in
/-- The probe swallows what `list_models` types. -/
theorem probeLlm_typed (outcome : HttpOutcome) :
    probeLlm outcome = .ok () ↔ Typed (listModels outcome) := by
  unfold probeLlm
  cases listModels outcome with
  | ok models => exact iff_of_true rfl (typed_ok _)
  | error x =>
    rw [typed_error]
    cases hx : x.isLLMError with
    | true => exact iff_of_true (if_pos hx) rfl
    | false => simp [hx]

/-- `chat`, `list_models` and the startup probe, over every sequence of outcomes. -/
theorem llm_errors_typed (maxAttempts : Nat) (outcomes : Nat → HttpOutcome) (models : HttpOutcome) :
    ((∀ x, chat maxAttempts outcomes = .error x → x.isLLMError = true) ↔
      ∀ n, n ≤ maxAttempts - 1 → (∀ i, i < n → Retried (outcomes i)) →
        Readable ChatShaped (outcomes n)) ∧
    ((∀ x, listModels models = .error x → x.isLLMError = true) ↔ Readable ModelsShaped models) ∧
    (probeLlm models = .ok () ↔ Readable ModelsShaped models) :=
  ⟨attempts_typed (maxAttempts - 1) outcomes, listModels_typed models,
    (probeLlm_typed models).trans (listModels_typed models)⟩

end Client

section Shapes

/-- A pydantic that takes a plain number. -/
@[reducible] def examplePydantic : PydanticLibrary where
  intOfStr s := s.toInt?

attribute [local instance] asciiDb examplePydantic

/-- A reply of status 200. -/
def reply (text : String) (json : Json) : HttpOutcome :=
  .response { statusCode := 200, text, json := .ok json }

/-- A `null` count is refused by the validation, outside every `try`. -/
def nullUsage : HttpOutcome :=
  reply ("\x7b\"choices\": [\x7b\"message\": \x7b\"content\": \"LGTM\"\x7d\x7d], "
      ++ "\"usage\": \x7b\"prompt_tokens\": null\x7d\x7d")
    (.obj [("choices", .arr [.obj [("message", .obj [("content", .str "LGTM")])]]),
      ("usage", .obj [("prompt_tokens", .null)])])

/-- A list at top level stops the probe, and a `null` count the review. -/
theorem bad_replies_escape :
    listModels (reply "[]" (.arr [])) = .error (.other "'list' object has no attribute 'get'") ∧
    probeLlm (reply "[]" (.arr [])) = .error (.other "'list' object has no attribute 'get'") ∧
    ¬ (∀ x, chat 3 (fun _ => nullUsage) = .error x → x.isLLMError = true) := by
  refine ⟨rfl, rfl, fun h => ?_⟩
  cases h _ rfl

end Shapes

end OpenAICompatClient

end VidiPr
