import VidiPr.Config.Repo
import VidiPr.Lib.Base64
import VidiPr.Lib.Unicode
import VidiPr.Requests

/-!
# The GitHub client

`transport/github_client.py` in installation mode: every operation is one or two githubkit calls
under `withAuthRetry`, or a paginated read whose `RequestFailed` is mapped to the service's own
errors.

The answer to a call is what `parsed_data` makes of the response, or the exception that one of the
two raises: no `except` clause stands between them, and none but that for `RequestFailed` (and the
`GitHubNotFound` of `fetchText`, which githubkit does not raise) would catch what they raise.
-/

namespace VidiPr

open Effect Text

namespace GitHubClient

/-- `_message`: the status and the text of the response, which is what a `GitHubError` says and what
is stored with a failed job. -/
def message (exc : RequestFailed) : String := toString exc.statusCode ++ ": " ++ exc.text

/-- `_map_error`, in the order of its tests: a rate limit may pass, whatever its status; a 404 has a
class of its own; a 5xx may pass; and everything else is permanent. -/
def mapError (exc : RequestFailed) : PyError :=
  if exc.rateLimitExceeded then .gitHubTransientError ("rate limited: " ++ message exc)
  else if exc.statusCode = 404 then .gitHubNotFound (message exc)
  else if 500 ≤ exc.statusCode ∧ exc.statusCode < 600 then .gitHubTransientError (message exc)
  else .gitHubPermanentError (message exc)

/-- `_map_file_status`: the four statuses the service knows. Any other, `copied` for example, counts
as modified. -/
def mapFileStatus (status : String) : FileStatus :=
  if status = "added" then .added
  else if status = "modified" then .modified
  else if status = "removed" then .removed
  else if status = "renamed" then .renamed
  else .modified

/-- `_split_repo`: the owner is what stands before the first slash, and the name is all the rest.
Both must be there. -/
def splitRepo [UnicodeDb] (repo : String) : Except PyError (String × String) :=
  let (owner, name) := partition '/' repo
  if owner = "" ∨ name = "" then
    .error (.valueError ("repo must be in 'owner/name' form, got " ++ Text.repr repo))
  else .ok (owner, name)

/-- `op(self._gh(installation_id))`: the call is made on the client of the installation, which is
made now if there is none. -/
def callOnce (installationId : Nat) (op : GhOp) : Py op.Resp := do
  let gh ← Py.mem (.installationClient installationId)
  Py.github gh op

/-- `except RequestFailed`: a 401 goes to `unauthorized`, any other status is mapped. -/
def catching {α : Type} (body : Py α) (unauthorized : RequestFailed → Py α) : Py α :=
  body.tryCatch fun
    | .requestFailed exc =>
      if exc.statusCode = 401 then unauthorized exc else Py.throw (mapError exc)
    | x => Py.throw x

/-- `_with_auth_retry`. After a 401 the client of the installation is dropped, and the call is made
a second time on a new one, with a new token; a second 401 is a `GitHubAuthError`. -/
def withAuthRetry (installationId : Nat) (op : GhOp) : Py op.Resp :=
  catching (callOnce installationId op) fun _ => do
    let _ ← Py.mem (.dropCached installationId)
    catching (callOnce installationId op) fun second =>
      Py.throw (.gitHubAuthError (message second))

/-- A paginated read: `RequestFailed` is mapped, and there is no credential retry. -/
def paginate (installationId : Nat) (op : GhOp) : Py op.Resp := do
  let gh ← Py.mem (.installationClient installationId)
  (Py.github gh op).tryCatch fun
    | .requestFailed exc => Py.throw (mapError exc)
    | x => Py.throw x

variable [UnicodeDb]

def getPr (installationId : Nat) (repo : String) (prNumber : Nat) : Py PRInfo := do
  let (owner, name) ← Py.ofExcept (splitRepo repo)
  let pr ← withAuthRetry installationId (.pullsGet owner name prNumber)
  return {
    number := pr.number
    title := pr.title
    body := pr.body
    headSha := pr.headSha
    baseRef := pr.baseRef
    authorLogin := pr.userLogin.getD ""
    draft := pr.draft.getD false }

def getPrFiles (installationId : Nat) (repo : String) (prNumber : Nat) :
    Py (List ChangedFile) := do
  let (owner, name) ← Py.ofExcept (splitRepo repo)
  let entries ← paginate installationId (.pullsListFiles owner name prNumber)
  return entries.map fun (entry : FileData) => {
    filename := entry.filename
    status := mapFileStatus entry.status
    additions := entry.additions
    deletions := entry.deletions
    patch := entry.patch }

def getPrComments (installationId : Nat) (repo : String) (prNumber : Nat) :
    Py (List ConversationComment) := do
  let (owner, name) ← Py.ofExcept (splitRepo repo)
  let comments ← paginate installationId (.issuesListComments owner name prNumber)
  return comments.map fun (comment : CommentData) => {
    authorLogin := (comment.user.map (·.login)).getD ""
    isBot := comment.user.any (·.type = "Bot")
    body := comment.body.getD ""
    createdAt := comment.createdAt }

def getRepo (installationId : Nat) (repo : String) : Py RepoInfo := do
  let (owner, name) ← Py.ofExcept (splitRepo repo)
  let repoData ← withAuthRetry installationId (.reposGet owner name)
  return {
    fullName := repoData.fullName
    defaultBranch := repoData.defaultBranch
    isPrivate := repoData.isPrivate }

def createReview (installationId : Nat) (repo : String) (prNumber : Nat) (body : String) :
    Py Nat := do
  let (owner, name) ← Py.ofExcept (splitRepo repo)
  withAuthRetry installationId (.pullsCreateReview owner name prNumber body)

def createComment (installationId : Nat) (repo : String) (issueNumber : Nat) (body : String) :
    Py Nat := do
  let (owner, name) ← Py.ofExcept (splitRepo repo)
  withAuthRetry installationId (.issuesCreateComment owner name issueNumber body)

def reactToComment (installationId : Nat) (repo : String) (commentId : Nat)
    (reaction : ReactionKind) : Py Unit := do
  let (owner, name) ← Py.ofExcept (splitRepo repo)
  withAuthRetry installationId (.reactionsCreateForIssueComment owner name commentId reaction)

/-- The text of a contents answer. Of what the decoders raise, the kind is the source's, and the
message is without the count or the position that theirs gives. -/
def decodeContent (repo ref path : String) (response : ContentData) : Except PyError FetchResult :=
  if response.statusCode = 304 then .ok .ofNotModified
  else
    let place := "path " ++ Text.repr path ++ " on " ++ repo ++ "@" ++ ref
    match response.parsedData with
    | .listing => .error (.gitHubError (place ++ " is a directory, not a file"))
    | .noContent => .error (.gitHubError (place ++ " is not a regular file"))
    | .file encoding content =>
      if encoding ≠ "base64" then
        .error (.gitHubError ("unexpected content encoding: " ++ encoding))
      else match b64decode content with
        | .error exc => .error (.valueError exc)
        | .ok bytes =>
          match decodeUtf8 bytes with
          | .error exc => .error (.valueError exc)
          | .ok decoded => .ok (.ofFound decoded response.etag)

/-- `fetch_text`. A file that is not there is a result and no exception, and so is one that has not
changed since the etag; every other error gets out. -/
def fetchText (installationId : Nat) (repo ref path : String) (etag : Option String) :
    Py FetchResult := do
  let (owner, name) ← Py.ofExcept (splitRepo repo)
  (withAuthRetry installationId (.reposGetContent owner name path ref etag)).andThen fun
    | .error (.gitHubNotFound _) => return .ofNotFound
    | .error x => Py.throw x
    | .ok response => Py.ofExcept (decodeContent repo ref path response)

end GitHubClient

/-! ## What the client asks

An operation asks for its client and makes its githubkit calls on it; it touches neither the
database nor the caches of config loaders. A comment is never cancelled, so an exception of
`createComment` is one that `except Exception` catches. -/

/-- A request of the client whose githubkit calls satisfy `O`. -/
def Req.Asks (O : GhOp → Prop) : Req → Prop
  | .ext (.github _ op) => O op
  | .ext (.mem (.installationClient _)) => True
  | .ext (.mem (.dropCached _)) => True
  | _ => False

theorem Req.Asks.isExt {O : GhOp → Prop} {e : Req} (h : e.Asks O) : e.IsExt := by
  cases e with
  | ext e => trivial
  | sql q => exact h

theorem Req.Asks.sparesCaches {O : GhOp → Prop} {e : Req} (h : e.Asks O) :
    e.SparesCaches := by
  unfold Req.Asks at h
  split at h
  · trivial
  · trivial
  · trivial
  · exact h.elim

theorem Req.Asks.mono {O O' : GhOp → Prop} (hops : ∀ op, O op → O' op) {e : Req}
    (h : e.Asks O) : e.Asks O' := by
  unfold Req.Asks at h
  split at h
  · exact hops _ h
  · trivial
  · trivial
  · exact h.elim

namespace GitHubClient

variable {O : GhOp → Prop}

theorem callOnce_calls (installationId : Nat) {op : GhOp} (hop : O op) :
    (callOnce installationId op).Calls (Req.Asks O) :=
  (Prog.calls_perform trivial).bind fun _ => Prog.calls_perform hop

theorem catching_calls {α : Type} {P : Req → Prop} {body : Py α}
    {unauthorized : RequestFailed → Py α} (hbody : body.Calls P)
    (hun : ∀ exc, (unauthorized exc).Calls P) : (catching body unauthorized).Calls P := by
  refine hbody.tryCatch fun x => ?_
  cases x with
  | requestFailed exc =>
    dsimp only
    split
    · exact hun exc
    · trivial
  | _ => trivial

theorem withAuthRetry_calls (installationId : Nat) {op : GhOp} (hop : O op) :
    (withAuthRetry installationId op).Calls (Req.Asks O) := by
  refine catching_calls (callOnce_calls installationId hop) fun _ => ?_
  refine (Prog.calls_perform trivial).bind fun _ => ?_
  exact catching_calls (callOnce_calls installationId hop) fun _ => trivial

theorem paginate_calls (installationId : Nat) {op : GhOp} (hop : O op) :
    (paginate installationId op).Calls (Req.Asks O) := by
  refine (Prog.calls_perform trivial).bind fun client => ?_
  have hcall : (Py.github client op).Calls (Req.Asks O) := Prog.calls_perform hop
  refine hcall.tryCatch fun x => ?_
  cases x <;> trivial

theorem mapError_not_cancelled (exc : RequestFailed) : mapError exc ≠ .cancelled := by
  unfold mapError
  split_ifs <;> simp

theorem catching_yields {α : Type} {body : Py α} {unauthorized : RequestFailed → Py α}
    (hbody : body.Yields Req.Possible fun r => r ≠ .error .cancelled)
    (hun : ∀ exc, (unauthorized exc).Yields Req.Possible fun r => r ≠ .error .cancelled) :
    (catching body unauthorized).Yields Req.Possible fun r => r ≠ .error .cancelled := by
  refine Prog.Yields.tryCatch (P := fun x => x ≠ .cancelled) (hbody.mono ?_) ?_
  · rintro (x | v) hr
    · exact fun heq => hr (congrArg Except.error heq)
    · exact hr
  · intro x hx
    cases x with
    | requestFailed exc =>
      dsimp only
      split
      · exact hun exc
      · exact fun heq => mapError_not_cancelled exc (Except.error.inj heq)
    | cancelled => exact absurd rfl hx
    | _ => exact nofun

/-- An operation whose request is never cancelled is never cancelled. -/
theorem withAuthRetry_yields (installationId : Nat) (op : GhOp)
    (hop : ∀ client r, (ExtReq.github client op).Possible r → r ≠ .error .cancelled) :
    (withAuthRetry installationId op).Yields Req.Possible fun r => r ≠ .error .cancelled := by
  have honce : (callOnce installationId op).Yields Req.Possible fun r => r ≠ .error .cancelled := by
    refine Prog.Yields.bind (P := fun _ => True) (Prog.yields_perform ?_)
      fun client _ => Prog.yields_perform (hop client)
    rintro r ⟨client, rfl⟩
    trivial
  refine catching_yields honce fun _ => ?_
  refine Prog.Yields.bind (P := fun _ => True) (Prog.yields_perform ?_)
    fun _ _ => catching_yields honce fun _ => nofun
  rintro r ⟨u, rfl⟩
  trivial

variable [UnicodeDb]

/-- An operation on a repository: what holds of its call under the owner and the name. -/
theorem splitRepo_calls {α : Type} {P : Req → Prop} {repo : String} {f : String × String → Py α}
    (hf : ∀ names, splitRepo repo = .ok names → (f names).Calls P) :
    ((Py.ofExcept (splitRepo repo)).bind f).Calls P := by
  cases h : splitRepo repo with
  | ok names => exact hf names h
  | error x => trivial

/-- Every githubkit call under the names of `repo` satisfies `O`. -/
def OnRepo (O : GhOp → Prop) (repo : String) (op : String → String → GhOp) : Prop :=
  ∀ names, splitRepo repo = .ok names → O (op names.1 names.2)

theorem getPr_calls (installationId : Nat) {repo : String} {prNumber : Nat}
    (h : OnRepo O repo fun owner name => .pullsGet owner name prNumber) :
    (getPr installationId repo prNumber).Calls (Req.Asks O) :=
  splitRepo_calls fun names hnames =>
    (withAuthRetry_calls _ (h names hnames)).bind fun _ => trivial

theorem getPrFiles_calls (installationId : Nat) {repo : String} {prNumber : Nat}
    (h : OnRepo O repo fun owner name => .pullsListFiles owner name prNumber) :
    (getPrFiles installationId repo prNumber).Calls (Req.Asks O) :=
  splitRepo_calls fun names hnames => (paginate_calls _ (h names hnames)).bind fun _ => trivial

theorem getPrComments_calls (installationId : Nat) {repo : String} {prNumber : Nat}
    (h : OnRepo O repo fun owner name => .issuesListComments owner name prNumber) :
    (getPrComments installationId repo prNumber).Calls (Req.Asks O) :=
  splitRepo_calls fun names hnames => (paginate_calls _ (h names hnames)).bind fun _ => trivial

theorem getRepo_calls (installationId : Nat) {repo : String}
    (h : OnRepo O repo fun owner name => .reposGet owner name) :
    (getRepo installationId repo).Calls (Req.Asks O) :=
  splitRepo_calls fun names hnames =>
    (withAuthRetry_calls _ (h names hnames)).bind fun _ => trivial

theorem createReview_calls (installationId : Nat) {repo : String} {prNumber : Nat} {body : String}
    (h : OnRepo O repo fun owner name => .pullsCreateReview owner name prNumber body) :
    (createReview installationId repo prNumber body).Calls (Req.Asks O) :=
  splitRepo_calls fun names hnames => withAuthRetry_calls _ (h names hnames)

theorem createComment_calls (installationId : Nat) {repo : String} {issueNumber : Nat}
    {body : String}
    (h : OnRepo O repo fun owner name => .issuesCreateComment owner name issueNumber body) :
    (createComment installationId repo issueNumber body).Calls (Req.Asks O) :=
  splitRepo_calls fun names hnames => withAuthRetry_calls _ (h names hnames)

theorem reactToComment_calls (installationId : Nat) {repo : String} {commentId : Nat}
    {reaction : ReactionKind}
    (h : OnRepo O repo fun owner name =>
      .reactionsCreateForIssueComment owner name commentId reaction) :
    (reactToComment installationId repo commentId reaction).Calls (Req.Asks O) :=
  splitRepo_calls fun names hnames => withAuthRetry_calls _ (h names hnames)

theorem fetchText_calls (installationId : Nat) {repo ref path : String} {etag : Option String}
    (h : OnRepo O repo fun owner name => .reposGetContent owner name path ref etag) :
    (fetchText installationId repo ref path etag).Calls (Req.Asks O) := by
  refine splitRepo_calls fun names hnames => ?_
  refine (withAuthRetry_calls installationId (h names hnames)).andThen fun r => ?_
  cases r with
  | ok response => exact Prog.calls_ofExcept _
  | error x => cases x <;> trivial

/-- `_InstallationFetcher`: a fetcher for one installation, which is what a `RepoConfigLoader` reads
files through. It adds nothing to `fetch_text`. -/
def forInstallation (installationId : Nat) : RepoConfigFetcher where
  fetchText := fetchText installationId
  spares _ _ _ _ :=
    (fetchText_calls (O := fun _ => True) installationId fun _ _ => trivial).mono
      fun _ => Req.Asks.sparesCaches

theorem splitRepo_not_cancelled (repo : String) : splitRepo repo ≠ .error .cancelled := by
  unfold splitRepo
  dsimp only
  split <;> simp

theorem createComment_yields (installationId : Nat) (repo : String) (issueNumber : Nat)
    (body : String) :
    (createComment installationId repo issueNumber body).Yields Req.Possible
      fun r => r ≠ .error .cancelled := by
  refine Prog.Yields.bind (P := fun _ => True) (Prog.yields_ofExcept ?_) ?_
  · have hsplit := splitRepo_not_cancelled repo
    cases h : splitRepo repo with
    | ok names => trivial
    | error x =>
      intro heq
      rw [h, Except.error.inj heq] at hsplit
      exact hsplit rfl
  · rintro ⟨owner, name⟩ _
    exact withAuthRetry_yields installationId (.issuesCreateComment owner name issueNumber body)
      fun _ _ hr => hr

end GitHubClient

end VidiPr
