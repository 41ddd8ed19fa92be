import VidiPr.Config.Cache
import VidiPr.Transport.Traces

/-!
# The remote operations, answered by a server

The eight operations of `GitHubClient` as one family, and a server that answers their githubkit
calls from a script. A paginated call is answered page by page, so a failure can come after any
number of pages that arrived; while a call is in flight, other tasks of the process go on using
its memory.

* **`RemoteOperation.run_eq`** — each operation resolves its repository, makes its githubkit
  call in one of two ways, with `withAuthRetry` or with `paginate`, and finishes without asking
  for anything else.
* **`RemoteOperation.execute`** — what an operation does under a script: its calls, and how it
  ends.
-/

namespace VidiPr

open Effect Prog Text

-- the resolution of a repository name is not looked into
attribute [local irreducible] GitHubClient.splitRepo

namespace GitHubClient

/-! ## The family -/

/-- An operation of the client, on the repository and with the arguments it is called with. -/
inductive RemoteOperation where
  | getPr (repo : String) (prNumber : Nat)
  | getPrFiles (repo : String) (prNumber : Nat)
  | getPrComments (repo : String) (prNumber : Nat)
  | getRepo (repo : String)
  | createReview (repo : String) (prNumber : Nat) (body : String)
  | createComment (repo : String) (issueNumber : Nat) (body : String)
  | reactToComment (repo : String) (commentId : Nat) (reaction : ReactionKind)
  | fetchText (repo ref path : String) (etag : Option String)
deriving DecidableEq, Repr

namespace RemoteOperation

def Resp : RemoteOperation → Type
  | getPr .. => PRInfo
  | getPrFiles .. => List ChangedFile
  | getPrComments .. => List ConversationComment
  | getRepo .. => RepoInfo
  | createReview .. => Nat
  | createComment .. => Nat
  | reactToComment .. => Unit
  | fetchText .. => FetchResult

def run [UnicodeDb] (id : Nat) : (o : RemoteOperation) → Py o.Resp
  | getPr repo prNumber => GitHubClient.getPr id repo prNumber
  | getPrFiles repo prNumber => GitHubClient.getPrFiles id repo prNumber
  | getPrComments repo prNumber => GitHubClient.getPrComments id repo prNumber
  | getRepo repo => GitHubClient.getRepo id repo
  | createReview repo prNumber body => GitHubClient.createReview id repo prNumber body
  | createComment repo issueNumber body => GitHubClient.createComment id repo issueNumber body
  | reactToComment repo commentId reaction =>
    GitHubClient.reactToComment id repo commentId reaction
  | fetchText repo ref path etag => GitHubClient.fetchText id repo ref path etag

/-- The repository it is called with. -/
def repo : RemoteOperation → String
  | getPr repo _ | getPrFiles repo _ | getPrComments repo _ | getRepo repo
  | createReview repo _ _ | createComment repo _ _ | reactToComment repo _ _
  | fetchText repo _ _ _ => repo

/-- The githubkit call it makes, once the repository is resolved. -/
def call (names : String × String) : RemoteOperation → GhOp
  | getPr _ prNumber => .pullsGet names.1 names.2 prNumber
  | getPrFiles _ prNumber => .pullsListFiles names.1 names.2 prNumber
  | getPrComments _ prNumber => .issuesListComments names.1 names.2 prNumber
  | getRepo _ => .reposGet names.1 names.2
  | createReview _ prNumber body => .pullsCreateReview names.1 names.2 prNumber body
  | createComment _ issueNumber body => .issuesCreateComment names.1 names.2 issueNumber body
  | reactToComment _ commentId reaction =>
    .reactionsCreateForIssueComment names.1 names.2 commentId reaction
  | fetchText _ ref path etag => .reposGetContent names.1 names.2 path ref etag

/-- Whether it reads page by page, by githubkit's `paginate`, which the client does not put under
its retry. -/
def Paginated : RemoteOperation → Prop
  | getPrFiles .. | getPrComments .. => True
  | _ => False

instance : DecidablePred Paginated := fun o => by
  cases o <;> unfold Paginated <;> infer_instance

end RemoteOperation

/-- The text of a contents answer can be decoded, if it is sent as base64. -/
def Decodes (response : ContentData) : Prop :=
  response.statusCode ≠ 304 → ∀ content, response.parsedData = .file "base64" content →
    ∃ bytes text, b64decode content = .ok bytes ∧ decodeUtf8 bytes = .ok text

namespace RemoteOperation

/-- What an operation returns can be decoded; only `fetch_text` decodes anything. -/
def Decodable (names : String × String) : (o : RemoteOperation) → (o.call names).Resp → Prop
  | fetchText .., response => Decodes response
  | getPr .., _ | getPrFiles .., _ | getPrComments .., _ | getRepo .., _ | createReview .., _
  | createComment .., _ | reactToComment .., _ => True

/-- The part of an operation that talks to GitHub. -/
def request (id : Nat) (names : String × String) (o : RemoteOperation) :
    Py (o.call names).Resp :=
  if o.Paginated then paginate id (o.call names) else withAuthRetry id (o.call names)

/-- How an operation ends on the outcome of its request: `fetch_text` takes a 404 for an answer,
every other exception is passed on; a value is returned, or is no text. -/
structure Finishes (o : RemoteOperation) (names : String × String)
    (finish : Except PyError (o.call names).Resp → Except PyError o.Resp) : Prop where
  raises : ∀ x, (∀ m, x ≠ .gitHubNotFound m) → finish (.error x) = .error x
  notFound : ∀ m, finish (.error (.gitHubNotFound m)) = .error (.gitHubNotFound m) ∨
    ∃ v, finish (.error (.gitHubNotFound m)) = .ok v
  decodes : ∀ v, o.Decodable names v →
    (∃ a, finish (.ok v) = .ok a) ∨ ∃ m, finish (.ok v) = .error (.gitHubError m)
  undecodable : ∀ v, ¬ o.Decodable names v → ∃ m, finish (.ok v) = .error (.valueError m)

theorem finishes_map {o : RemoteOperation} {names : String × String}
    (f : (o.call names).Resp → o.Resp) (h : ∀ v, o.Decodable names v) :
    o.Finishes names (Except.map f) where
  raises _ _ := rfl
  notFound _ := Or.inl rfl
  decodes v _ := Or.inl ⟨f v, rfl⟩
  undecodable v hv := absurd (h v) hv

variable [UnicodeDb]

theorem decodeContent_of_decodes {repo ref path : String} {response : ContentData}
    (h : Decodes response) :
    (∃ result, decodeContent repo ref path response = .ok result) ∨
      ∃ m, decodeContent repo ref path response = .error (.gitHubError m) := by
  unfold decodeContent
  by_cases hstatus : response.statusCode = 304
  · exact Or.inl ⟨_, if_pos hstatus⟩
  · rw [if_neg hstatus]
    dsimp only
    split
    · exact Or.inr ⟨_, rfl⟩
    · exact Or.inr ⟨_, rfl⟩
    · rename_i encoding content hdata
      by_cases hbase : encoding = "base64"
      · rw [if_neg (not_not.mpr hbase)]
        obtain ⟨bytes, text, hbytes, htext⟩ := h hstatus content (hbase ▸ hdata)
        rw [hbytes]
        dsimp only
        rw [htext]
        exact Or.inl ⟨_, rfl⟩
      · rw [if_pos hbase]
        exact Or.inr ⟨_, rfl⟩

theorem decodeContent_of_not_decodes {repo ref path : String} {response : ContentData}
    (h : ¬ Decodes response) :
    ∃ m, decodeContent repo ref path response = .error (.valueError m) := by
  unfold Decodes at h
  push Not at h
  obtain ⟨hstatus, content, hdata, hfail⟩ := h
  unfold decodeContent
  rw [if_neg hstatus, hdata]
  dsimp only
  rw [if_neg (not_not.mpr rfl)]
  cases hbytes : b64decode content with
  | error exc => exact ⟨exc, rfl⟩
  | ok bytes =>
    cases htext : decodeUtf8 bytes with
    | error exc => exact ⟨exc, by simp only [htext]⟩
    | ok text => exact absurd htext (hfail bytes text hbytes)

/-- Every operation resolves its repository, talks to GitHub and finishes. -/
def Shape (id : Nat) (o : RemoteOperation) : Prop :=
  ∃ finish : (names : String × String) → Except PyError (o.call names).Resp → Except PyError o.Resp,
    (∀ names, o.Finishes names (finish names)) ∧
    o.run id = (Py.ofExcept (splitRepo o.repo)).bind fun names =>
      (o.request id names).andThen fun r => Prog.ofExcept (finish names r)

/-- An operation that returns a view of what it is answered. -/
theorem shape_of_view {id : Nat} {o : RemoteOperation} {p : String × String → Py o.Resp}
    (f : (names : String × String) → (o.call names).Resp → o.Resp)
    (h : ∀ names v, o.Decodable names v)
    (hrun : o.run id = (Py.ofExcept (splitRepo o.repo)).bind p)
    (hp : ∀ names, p names = (o.request id names).bind fun v => .ret (f names v)) :
    o.Shape id := by
  refine ⟨fun names => Except.map (f names), fun names => finishes_map (f names) (h names), ?_⟩
  rw [hrun]
  exact congrArg (Prog.bind _) (funext fun names => (hp names).trans (bind_ret_eq _ (f names)))

/-- What `fetch_text` makes of an answer: a 404 is one, and a file still has to be decoded. -/
def fetched (repo ref path : String) : Except PyError ContentData → Except PyError FetchResult
  | .error (.gitHubNotFound _) => .ok .ofNotFound
  | .error x => .error x
  | .ok response => decodeContent repo ref path response

theorem run_shape (id : Nat) (o : RemoteOperation) : o.Shape id := by
  cases o with
  | getPr repo prNumber => exact shape_of_view _ (fun _ _ => trivial) rfl fun _ => rfl
  | getPrFiles repo prNumber => exact shape_of_view _ (fun _ _ => trivial) rfl fun _ => rfl
  | getPrComments repo prNumber => exact shape_of_view _ (fun _ _ => trivial) rfl fun _ => rfl
  | getRepo repo => exact shape_of_view _ (fun _ _ => trivial) rfl fun _ => rfl
  | createReview repo prNumber body =>
    exact shape_of_view (fun _ v => v) (fun _ _ => trivial) rfl fun _ => (Prog.bind_ret _).symm
  | createComment repo issueNumber body =>
    exact shape_of_view (fun _ v => v) (fun _ _ => trivial) rfl fun _ => (Prog.bind_ret _).symm
  | reactToComment repo commentId reaction =>
    exact shape_of_view (fun _ v => v) (fun _ _ => trivial) rfl fun _ => (Prog.bind_ret _).symm
  | fetchText repo ref path etag =>
    refine ⟨fun _ => fetched repo ref path, fun names => ?_, ?_⟩
    · refine ⟨fun x hx => ?_, fun m => Or.inr ⟨_, rfl⟩, fun v => decodeContent_of_decodes,
        fun v => decodeContent_of_not_decodes⟩
      cases x with
      | gitHubNotFound m => exact absurd rfl (hx m)
      | _ => rfl
    · refine congrArg (Prog.bind _) (funext fun names => congrArg (andThen _) (funext fun r => ?_))
      cases r with
      | ok response => rfl
      | error x => cases x <;> rfl

end RemoteOperation

/-! ## A server -/

/-- The pages of a paginated call: those that arrived, and what stopped the iteration. -/
structure Pages (α : Type) where
  arrived : List (List α)
  failure : Option PyError

def Pages.answer {α : Type} (pages : Pages α) : Except PyError (List α) :=
  match pages.failure with
  | none => .ok pages.arrived.flatten
  | some x => .error x

/-- How a githubkit call is served: page by page, or with one answer. -/
def Served : GhOp → Type
  | .pullsListFiles .. => Pages FileData
  | .issuesListComments .. => Pages CommentData
  | op => Except PyError op.Resp

def Served.answer : {op : GhOp} → Served op → Except PyError op.Resp
  | .pullsListFiles .., pages => Pages.answer pages
  | .issuesListComments .., pages => Pages.answer pages
  | .pullsGet .., r => r
  | .reposGet .., r => r
  | .pullsCreateReview .., r => r
  | .issuesCreateComment .., r => r
  | .reactionsCreateForIssueComment .., r => r
  | .reposGetContent .., r => r

/-- A paginated call served with a single page, any other with its answer. -/
def Served.ofAnswer : (op : GhOp) → Except PyError op.Resp → Served op
  | .pullsListFiles .., .ok entries => { arrived := [entries], failure := none }
  | .pullsListFiles .., .error x => { arrived := [], failure := some x }
  | .issuesListComments .., .ok comments => { arrived := [comments], failure := none }
  | .issuesListComments .., .error x => { arrived := [], failure := some x }
  | .pullsGet .., r => r
  | .reposGet .., r => r
  | .pullsCreateReview .., r => r
  | .issuesCreateComment .., r => r
  | .reactionsCreateForIssueComment .., r => r
  | .reposGetContent .., r => r

theorem Served.answer_ofAnswer (op : GhOp) (r : Except PyError op.Resp) :
    (Served.ofAnswer op r).answer = r := by
  cases op with
  | pullsListFiles owner repo pullNumber =>
    cases r with
    | ok entries => exact congrArg Except.ok (List.append_nil entries)
    | error x => rfl
  | issuesListComments owner repo issueNumber =>
    cases r with
    | ok comments => exact congrArg Except.ok (List.append_nil comments)
    | error x => rfl
  | _ => rfl

/-- The answers of GitHub, call by call, and what the other tasks of the process do to its memory
while a call is in flight. -/
structure Script where
  served : Nat → (op : GhOp) → Served op
  meanwhile : Nat → List MemOp

/-- One githubkit call as it happened: the client it was made on, what was asked, what was answered,
and the memory around it. -/
structure Exchange where
  client : Nat
  op : GhOp
  served : Served op
  /-- the memory when the call was made -/
  sent : Memory
  /-- the memory when it was answered -/
  answered : Memory

/-- The memory of the process, and the calls the operation has made. -/
structure Wire where
  memory : Memory
  exchanges : List Exchange

end GitHubClient

namespace Memory

/-- A memory after some accesses. -/
def after (m : Memory) (ops : List MemOp) : Memory := ops.foldl (fun m op => (op.exec m).2) m

/-- The cached client of an installation. -/
def client (m : Memory) (id : Nat) : Option Nat := m.installations.lookup id

end Memory

namespace GitHubClient

/-- A githubkit call on `client`. -/
def Wire.exchange (script : Script) (client : Nat) (op : GhOp) (w : Wire) : Wire :=
  let answered := w.memory.after (script.meanwhile w.exchanges.length)
  { memory := answered
    exchanges := w.exchanges ++ [{
      client
      op
      served := script.served w.exchanges.length op
      sent := w.memory
      answered }] }

/-- The answers an operation gets. It asks for nothing but clients and githubkit calls. -/
def Script.answer (script : Script) : (e : Req) → Wire → Except PyError e.Resp × Wire
  | .ext (.mem op), w => (.ok (op.exec w.memory).1, { w with memory := (op.exec w.memory).2 })
  | .ext (.github client op), w =>
    ((script.served w.exchanges.length op).answer, w.exchange script client op)
  | _, w => (.error (.other "not served"), w)

/-- What an operation does: the calls it makes, and how it ends. -/
structure Execution (α : Type) where
  exchanges : List Exchange
  outcome : Except PyError α

def RemoteOperation.execute [UnicodeDb] (o : RemoteOperation) (script : Script) (id : Nat)
    (memory : Memory) : Execution o.Resp :=
  let (_, outcome, w) := (o.run id).eval script.answer { memory, exchanges := [] }
  { exchanges := w.exchanges, outcome }

/-! ## What the client makes of an answer -/

/-- An HTTP answer 401. -/
def unauthorized {α : Type} : Except PyError α → Bool
  | .error (.requestFailed exc) => exc.statusCode = 401
  | _ => false

/-- A refused call under the client's own exceptions, a 401 under the one given. -/
def mapped {α : Type} (unauthorized : RequestFailed → PyError) :
    Except PyError α → Except PyError α
  | .error (.requestFailed exc) =>
    .error (if exc.statusCode = 401 then unauthorized exc else mapError exc)
  | r => r

namespace Wire

/-- `_gh`: a client of the installation, and the memory that holds it. -/
def gh (id : Nat) (w : Wire) : Nat × Wire :=
  let (client, memory) := (MemOp.installationClient id).exec w.memory
  (client, { w with memory })

/-- `op(self._gh(installation_id))` -/
def call (script : Script) (id : Nat) (op : GhOp) (w : Wire) : Wire :=
  (w.gh id).2.exchange script (w.gh id).1 op

/-- `_drop_cached` -/
def drop (id : Nat) (w : Wire) : Wire :=
  { w with memory := ((MemOp.dropCached id).exec w.memory).2 }

end Wire

variable (script : Script) (id : Nat) (op : GhOp) (w : Wire)

theorem eval_gh {α : Type} (p : Nat → Py α) :
    (((Py.mem (.installationClient id)).bind p).eval script.answer w).2 =
      ((p (w.gh id).1).eval script.answer (w.gh id).2).2 := rfl

theorem eval_drop {α : Type} (p : Py α) :
    (((Py.mem (.dropCached id)).bind fun _ => p).eval script.answer w).2 =
      (p.eval script.answer (w.drop id)).2 := rfl

theorem eval_github (client : Nat) :
    ((Py.github client op).eval script.answer w).2 =
      ((script.served w.exchanges.length op).answer, w.exchange script client op) :=
  eval_perform _ _ _

theorem eval_callOnce :
    ((callOnce id op).eval script.answer w).2 =
      ((script.served w.exchanges.length op).answer, w.call script id op) :=
  (eval_gh script id w _).trans (eval_github script op _ _)

theorem eval_paginate :
    ((paginate id op).eval script.answer w).2 =
      (mapped mapError (script.served w.exchanges.length op).answer, w.call script id op) := by
  refine (eval_gh script id w _).trans ((eval_tryCatch _ _ _ _).trans ?_)
  rw [eval_github script op (w.gh id).2 (w.gh id).1]
  show _ = (mapped mapError (script.served (w.gh id).2.exchanges.length op).answer, _)
  cases (script.served (w.gh id).2.exchanges.length op).answer with
  | ok v => rfl
  | error x =>
    cases x with
    | requestFailed exc => simp only [mapped, ite_self]; rfl
    | _ => rfl

/-- One attempt under `except RequestFailed`: a 401 goes on to `retry`. -/
theorem eval_catching (retry : RequestFailed → Py op.Resp) :
    ((catching (callOnce id op) retry).eval script.answer w).2 =
      match (script.served w.exchanges.length op).answer with
      | .error (.requestFailed exc) =>
        if exc.statusCode = 401 then ((retry exc).eval script.answer (w.call script id op)).2
        else (.error (mapError exc), w.call script id op)
      | r => (r, w.call script id op) := by
  refine (eval_tryCatch _ _ _ _).trans ?_
  rw [eval_callOnce]
  cases hanswer : (script.served w.exchanges.length op).answer with
  | ok v => rfl
  | error x =>
    cases x with
    | requestFailed exc =>
      dsimp only
      by_cases h : exc.statusCode = 401
      · rw [if_pos h, if_pos h]
      · rw [if_neg h, if_neg h]
        rfl
    | _ => rfl

/-- The second attempt, on whatever client the dictionary then gives. -/
def Wire.again : Wire := ((w.call script id op).drop id).call script id op

theorem eval_withAuthRetry :
    ((withAuthRetry id op).eval script.answer w).2 =
      if unauthorized (script.served w.exchanges.length op).answer then
        (mapped (fun second => .gitHubAuthError (message second))
          (script.served (w.exchanges.length + 1) op).answer, w.again script id op)
      else (mapped mapError (script.served w.exchanges.length op).answer, w.call script id op) := by
  refine (eval_catching script id op w _).trans ?_
  -- the second attempt, whatever became of the first
  have hsecond : ((catching (callOnce id op) fun second =>
      Py.throw (.gitHubAuthError (message second))).eval script.answer
        ((w.call script id op).drop id)).2 =
      (mapped (fun second => .gitHubAuthError (message second))
        (script.served (w.exchanges.length + 1) op).answer, w.again script id op) := by
    refine (eval_catching script id op _ _).trans ?_
    have hlength : ((w.call script id op).drop id).exchanges.length = w.exchanges.length + 1 :=
      List.length_append
    rw [hlength]
    cases (script.served (w.exchanges.length + 1) op).answer with
    | ok v => rfl
    | error x =>
      cases x with
      | requestFailed exc =>
        by_cases h : exc.statusCode = 401
        · simp only [mapped, h, if_true]
          rfl
        · simp only [mapped, h, if_false]
          rfl
      | _ => rfl
  cases hfirst : (script.served w.exchanges.length op).answer with
  | ok v => rfl
  | error x =>
    cases x with
    | requestFailed exc =>
      by_cases h : exc.statusCode = 401
      · simp only [unauthorized, h, decide_true, if_true]
        rw [← hsecond]
        exact (eval_drop script id _ _)
      · simp only [unauthorized, h, decide_false, if_false, mapped]
        rfl
    | _ => rfl

end GitHubClient

end VidiPr
