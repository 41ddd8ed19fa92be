/-!
# Exceptions

The exceptions the service raises and catches, one constructor for each class its `except`
clauses can tell apart. `cancelled` is `asyncio.CancelledError`: it is thrown into a task at one
of its awaits by `asyncio.wait_for` and is not an `Exception`, so `except Exception` lets it
through. Everything a library may raise beside these (a database error, a `UnicodeDecodeError`,
pydantic's `ValidationError`, an `OverflowError`, …) is `other`, with its text.
-/

namespace VidiPr

/-- githubkit's `RequestFailed`: an HTTP error status, its body, and whether the subclass is
`RateLimitExceeded`. -/
structure RequestFailed where
  statusCode : Nat
  text : String
  rateLimitExceeded : Bool := false
deriving DecidableEq, Repr

inductive PyError where
  /-- `asyncio.CancelledError`. -/
  | cancelled
  | timeoutError
  | requestFailed (exc : RequestFailed)
  /-- githubkit's `RequestError`: a connection failure or a timeout. -/
  | requestError (message : String)
  /-- `transport/errors.py`. `gitHubError` is the base class raised as such. -/
  | gitHubError (message : String)
  | gitHubAuthError (message : String)
  | gitHubNotFound (message : String)
  | gitHubTransientError (message : String)
  | gitHubPermanentError (message : String)
  | webhookAuthError (message : String)
  | webhookBadRequest (message : String)
  /-- `llm/errors.py`. -/
  | llmError (message : String)
  | llmTransientError (message : String)
  | llmPermanentError (message : String)
  | repoConfigError (message : String)
  | templateError (message : String)
  | valueError (message : String)
  | other (message : String)
deriving DecidableEq, Repr

namespace PyError

/-- `str(exc)`. -/
def str : PyError → String
  | cancelled => ""
  | timeoutError => ""
  | requestFailed exc => exc.text
  | requestError m => m
  | gitHubError m | gitHubAuthError m | gitHubNotFound m | gitHubTransientError m
  | gitHubPermanentError m | webhookAuthError m | webhookBadRequest m | llmError m
  | llmTransientError m | llmPermanentError m | repoConfigError m | templateError m
  | valueError m | other m => m

/-- Caught by `except GitHubError`. -/
def isGitHubError : PyError → Bool
  | gitHubError _ | gitHubAuthError _ | gitHubNotFound _ | gitHubTransientError _
  | gitHubPermanentError _ => true
  | _ => false

/-- Caught by `except LLMError`. -/
def isLLMError : PyError → Bool
  | llmError _ | llmTransientError _ | llmPermanentError _ => true
  | _ => false

end PyError

end VidiPr
