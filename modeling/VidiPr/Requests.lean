import VidiPr.Errors
import VidiPr.Lib.Prog
import VidiPr.Models.Review
import VidiPr.Storage.Statements

/-!
# What the service asks of its surroundings

Every `await` of the service and every read of a clock or of process memory is a request. A
request goes to the SQLite session of the running task or to something outside the database:
GitHub, the language model, a clock, a timer, or the two mutable dictionaries of the process.
Any of them but the dictionaries and the clocks may answer with an exception.

GitHub is addressed one githubkit call at a time, with the client object that carries the call,
so that the credential retry of `GitHubClient` is code of the model and not of its surroundings.
-/

namespace VidiPr

open Effect

/-! ## SQLite -/

/-- One statement of a session. `rollback` is also what closing a session does. -/
inductive Sql where
  | query (q : Query)
  | dml (d : Dml)
  | commit
  | rollback

def Sql.Resp : Sql → Type
  | .query q => q.Resp
  | .dml d => d.Resp
  | .commit => Unit
  | .rollback => Unit

/-! ## GitHub -/

structure PullData where
  number : Nat
  title : String
  body : Option String
  headSha : String
  baseRef : String
  userLogin : Option String
  draft : Option Bool
deriving DecidableEq, Repr

structure FileData where
  filename : String
  status : String
  additions : Nat
  deletions : Nat
  patch : Option String
deriving DecidableEq, Repr

structure UserData where
  login : String
  type : String
deriving DecidableEq, Repr

structure CommentData where
  user : Option UserData
  body : Option String
  createdAt : DateTime
deriving DecidableEq, Repr

structure RepoData where
  fullName : String
  defaultBranch : String
  isPrivate : Bool
deriving DecidableEq, Repr

/-- The parsed body of a contents answer: a directory listing, an object without `content` or
`encoding`, or a file. -/
inductive ContentBody where
  | listing
  | noContent
  | file (encoding content : String)
deriving DecidableEq, Repr

structure ContentData where
  statusCode : Nat
  etag : Option String
  parsedData : ContentBody
deriving DecidableEq, Repr

inductive ReactionKind where
  | minusOne
  | eyes
deriving DecidableEq, Repr

/-- One githubkit call. -/
inductive GhOp where
  | pullsGet (owner repo : String) (pullNumber : Nat)
  | pullsListFiles (owner repo : String) (pullNumber : Nat)
  | issuesListComments (owner repo : String) (issueNumber : Nat)
  | reposGet (owner repo : String)
  | pullsCreateReview (owner repo : String) (pullNumber : Nat) (body : String)
  | issuesCreateComment (owner repo : String) (issueNumber : Nat) (body : String)
  | reactionsCreateForIssueComment (owner repo : String) (commentId : Nat)
      (content : ReactionKind)
  | reposGetContent (owner repo path ref : String) (ifNoneMatch : Option String)
deriving DecidableEq, Repr

def GhOp.Resp : GhOp → Type
  | .pullsGet .. => PullData
  | .pullsListFiles .. => List FileData
  | .issuesListComments .. => List CommentData
  | .reposGet .. => RepoData
  | .pullsCreateReview .. => Nat
  | .issuesCreateComment .. => Nat
  | .reactionsCreateForIssueComment .. => Unit
  | .reposGetContent .. => ContentData

/-! ## Process memory -/

/-- The key of the config cache: `(repo, ref, path)`. -/
abbrev CacheKey : Type := String × String × String

/-- `_CacheEntry`. -/
structure CacheEntry where
  etag : Option String
  content : Option String
  fetchedAt : Nat
deriving DecidableEq, Repr

/-- An access to the dictionary of installation clients or to the cache of a config loader.
Entries of the cache are objects, updated in place, so they are addressed by reference. -/
inductive MemOp where
  /-- `_gh`: the cached client of an installation, or a new one. -/
  | installationClient (installationId : Nat)
  /-- `_drop_cached` -/
  | dropCached (installationId : Nat)
  /-- a new `RepoConfigLoader`, with its own empty cache -/
  | newLoader
  | cacheGet (loader : Nat) (key : CacheKey)
  | cachePut (loader : Nat) (key : CacheKey) (entry : CacheEntry)
  | cacheTouch (entryRef : Nat) (fetchedAt : Nat)
deriving DecidableEq, Repr

def MemOp.Resp : MemOp → Type
  | .installationClient _ => Nat
  | .dropCached _ => Unit
  | .newLoader => Nat
  | .cacheGet _ _ => Option (Nat × CacheEntry)
  | .cachePut .. => Unit
  | .cacheTouch .. => Unit

/-! ## Requests -/

/-- A request that does not go to the database. -/
inductive ExtReq where
  /-- one githubkit call on a client object -/
  | github (client : Nat) (op : GhOp)
  /-- `LLMClient.chat` -/
  | chat (messages : List Message) (temperature : Rat) (maxTokens : Nat)
  | mem (op : MemOp)
  /-- `datetime.now(UTC)`, in microseconds -/
  | utcnow
  /-- `time.perf_counter()`, in nanoseconds -/
  | perfCounter
  /-- the pause between two attempts of a retry loop -/
  | sleep

def ExtReq.Resp : ExtReq → Type
  | .github _ op => op.Resp
  | .chat .. => ChatResponse
  | .mem op => op.Resp
  | .utcnow => Nat
  | .perfCounter => Nat
  | .sleep => Unit

inductive Req where
  | sql (statement : Sql)
  | ext (request : ExtReq)

def Req.Resp : Req → Type
  | .sql statement => statement.Resp
  | .ext request => request.Resp

/-- A request that does not go to the database. -/
def Req.IsExt : Req → Prop
  | .ext _ => True
  | .sql _ => False

/-- Which answers a request may get. The clocks and the dictionaries always answer; a comment is
posted outside every `wait_for`, so it is not cancelled. -/
def ExtReq.Possible : (e : ExtReq) → Except PyError e.Resp → Prop
  | .mem _, r => ∃ v, r = .ok v
  | .utcnow, r => ∃ v, r = .ok v
  | .perfCounter, r => ∃ v, r = .ok v
  | .github _ (.issuesCreateComment ..), r => r ≠ .error .cancelled
  | _, _ => True

/-- Of a statement that fails it is only known that it fails with an ordinary exception. -/
def Req.Possible : (e : Req) → Except PyError e.Resp → Prop
  | .ext e, r => e.Possible r
  | .sql _, r => r ≠ .error .cancelled

/-- A coroutine of the service. -/
abbrev Py (α : Type) : Type := Prog Req Req.Resp PyError α

namespace Py

variable {α β : Type}

/-- Raise. -/
def throw (x : PyError) : Py α := .raise x

def query (q : Query) : Py q.Resp := Prog.perform (Req.sql (.query q))

def execute (d : Dml) : Py d.Resp := Prog.perform (Req.sql (.dml d))

def commit : Py Unit := Prog.perform (Req.sql .commit)

def rollback : Py Unit := Prog.perform (Req.sql .rollback)

def github (client : Nat) (op : GhOp) : Py op.Resp := Prog.perform (Req.ext (.github client op))

def mem (op : MemOp) : Py op.Resp := Prog.perform (Req.ext (.mem op))

def utcnow : Py Nat := Prog.perform (Req.ext .utcnow)

def perfCounter : Py Nat := Prog.perform (Req.ext .perfCounter)

def sleep : Py Unit := Prog.perform (Req.ext .sleep)

/-- A plain result that may be an exception. -/
def ofExcept (r : Except PyError α) : Py α := Prog.ofExcept r

/-- `async with sessionmaker() as session`: however the body ends, the session is closed, which
rolls back what it has not committed. -/
def withSession (body : Py α) : Py α := body.finally' rollback

/-- `asyncio.wait_for`: a task that is cancelled at its deadline ends in `TimeoutError`. -/
def waitFor (body : Py α) : Py α :=
  body.tryCatch fun
    | .cancelled => throw .timeoutError
    | x => throw x

end Py

end VidiPr
