import VidiPr.Config.Cache
import VidiPr.Lib.Trace
import VidiPr.Pipeline.Reviewer
import VidiPr.Service.System
import VidiPr.Transport.Traces

/-!
# How a review runs

The parts of `Reviewer.run` and what each may ask for: `gather` reads the pull request, its config
and its content; `askModel` only calls the model; `postWithRetry` only posts. Between them nothing
but the clock is read, and a cancellation ends the run at once, wherever it comes.

* **`Reviewer.run_eq`** — `run` as `gather`, `review` and `post` in a row, each with its requests.
* **`Reviewer.routine`** — the reviewer as the worker relies on it.
* **`Reviewer.ends_postWithRetry`** — a post that is not cut off ends on its last `create_review`.
-/

namespace VidiPr

open Effect Prog Text

/-! ## Requests by part -/

/-- A githubkit call that changes nothing. -/
def GhOp.IsRead : GhOp → Prop
  | .pullsCreateReview .. | .issuesCreateComment .. | .reactionsCreateForIssueComment .. => False
  | _ => True

namespace Req

def IsChat : Req → Prop
  | .ext (.chat ..) => True
  | _ => False

def IsGithub : Req → Prop
  | .ext (.github ..) => True
  | _ => False

/-- `create_review` -/
def IsPost : Req → Prop
  | .ext (.github _ (.pullsCreateReview ..)) => True
  | _ => False

/-- What reading asks for. -/
def Reads : Req → Prop
  | .ext (.github _ op) => op.IsRead
  | .ext (.mem _) | .ext .utcnow | .ext .perfCounter => True
  | _ => False

/-- What posting asks for. -/
def Posts : Req → Prop
  | .ext (.github _ (.pullsCreateReview ..)) | .ext (.mem _) | .ext .sleep => True
  | _ => False

theorem Asks.reads {e : Req} (h : e.Asks GhOp.IsRead) : e.Reads := by
  unfold Asks at h
  split at h
  · exact h
  · trivial
  · trivial
  · exact h.elim

theorem Asks.posts {e : Req} (h : e.Asks fun op => Posts (.ext (.github 0 op))) : e.Posts := by
  unfold Asks at h
  split at h
  · rename_i client op
    cases op with
    | pullsCreateReview => trivial
    | _ => exact h
  · trivial
  · trivial
  · exact h.elim

theorem Reads.isExt {e : Req} (h : e.Reads) : e.IsExt := by
  cases e with
  | ext e => trivial
  | sql q => exact h

theorem IsChat.isExt {e : Req} (h : e.IsChat) : e.IsExt := by
  cases e with
  | ext e => trivial
  | sql q => exact h

theorem IsPost.isGithub {e : Req} (h : e.IsPost) : e.IsGithub := by
  unfold IsPost at h
  split at h
  · trivial
  · exact h.elim

theorem IsChat.not_github {e : Req} (h : e.IsChat) : ¬ e.IsGithub := by
  unfold IsChat at h
  split at h
  · exact id
  · exact h.elim

theorem Posts.isExt {e : Req} (h : e.Posts) : e.IsExt := by
  cases e with
  | ext e => trivial
  | sql q => exact h

end Req

/-! ## A cancellation ends a run -/

-- the resolution of a repository name is not looked into
attribute [local irreducible] GitHubClient.splitRepo

namespace GitHubClient

theorem relays_callOnce (id : Nat) (op : GhOp) : (callOnce id op).Relays PyError.cancelled :=
  (Relays.perform _).bind fun _ => Relays.perform _

theorem relays_catching {α : Type} {body : Py α} {unauthorized : RequestFailed → Py α}
    (hbody : body.Relays PyError.cancelled)
    (hun : ∀ exc, (unauthorized exc).Relays PyError.cancelled) :
    (catching body unauthorized).Relays PyError.cancelled := by
  refine hbody.tryCatch rfl fun x hx => ?_
  cases x with
  | requestFailed exc =>
    dsimp only
    split
    · exact hun exc
    · exact mapError_not_cancelled exc
  | _ => exact hx

theorem relays_withAuthRetry (id : Nat) (op : GhOp) :
    (withAuthRetry id op).Relays PyError.cancelled := by
  refine relays_catching (relays_callOnce id op) fun _ => (Relays.perform _).bind fun _ => ?_
  exact relays_catching (relays_callOnce id op) fun second => PyError.noConfusion

theorem relays_paginate (id : Nat) (op : GhOp) : (paginate id op).Relays PyError.cancelled := by
  refine (Relays.perform _).bind fun client => ?_
  refine (Relays.perform _).tryCatch rfl fun x hx => ?_
  cases x with
  | requestFailed exc => exact mapError_not_cancelled exc
  | _ => exact hx

variable [UnicodeDb]

theorem decodeContent_not_cancelled (repo ref path : String) (response : ContentData) :
    decodeContent repo ref path response ≠ .error .cancelled := by
  unfold decodeContent
  repeat' split
  all_goals nofun

theorem relays_splitRepo {α : Type} {repo : String} {f : String × String → Py α}
    (hf : ∀ names, (f names).Relays PyError.cancelled) :
    ((Py.ofExcept (splitRepo repo)).bind f).Relays PyError.cancelled :=
  (Relays.ofExcept (splitRepo_not_cancelled repo)).bind hf

/-- `_split_repo` raises a `ValueError` or nothing. -/
theorem splitRepo_cases (repo : String) :
    (∃ m, splitRepo repo = .error (.valueError m)) ∨ ∃ names, splitRepo repo = .ok names := by
  unfold splitRepo
  dsimp only
  split
  · exact Or.inl ⟨_, rfl⟩
  · exact Or.inr ⟨_, rfl⟩

theorem relays_fetchText (id : Nat) (repo ref path : String) (etag : Option String) :
    (fetchText id repo ref path etag).Relays PyError.cancelled := by
  refine relays_splitRepo fun names => ?_
  refine (relays_withAuthRetry id _).andThen rfl fun r hr => ?_
  cases r with
  | ok response => exact Relays.ofExcept (decodeContent_not_cancelled repo ref path response)
  | error x =>
    cases x with
    | gitHubNotFound m => trivial
    | cancelled => exact absurd rfl hr
    | _ => exact nofun

end GitHubClient

namespace RepoConfigLoader

variable [ConfigLibrary]

theorem parse_not_cancelled (text : String) : parse text ≠ .error .cancelled := by
  unfold parse
  dsimp only
  repeat' split
  all_goals nofun

variable {loader : RepoConfigLoader}
  (hfetch : ∀ repo ref path etag,
    (loader.fetcher.fetchText repo ref path etag).Relays PyError.cancelled)
include hfetch

omit [ConfigLibrary] in
theorem relays_cachedFetch (repo ref path : String) :
    (loader.cachedFetch repo ref path).Relays PyError.cancelled := by
  have hstore : ∀ key now result,
      (cachedFetch.store loader key now result).Relays PyError.cancelled := by
    intro key now result
    unfold cachedFetch.store
    split
    · exact (Relays.perform _).bind fun _ => trivial
    · exact (Relays.perform _).bind fun _ => trivial
  refine (Relays.perform _).bind fun now => (Relays.perform _).bind fun entry => ?_
  cases entry with
  | none => exact (hfetch ..).bind fun result => hstore _ _ result
  | some entry =>
    dsimp only
    split
    · trivial
    · refine (hfetch ..).bind fun result => ?_
      split
      · exact (Relays.perform _).bind fun _ => trivial
      · exact hstore _ _ result

theorem relays_load (repo baseRef defaultBranch : String) :
    (loader.load repo baseRef defaultBranch).Relays PyError.cancelled := by
  have hcontext : ∀ ref config,
      (loader.resolveProjectContext repo ref config).Relays PyError.cancelled := by
    intro ref config
    unfold resolveProjectContext
    split
    · trivial
    · refine (hfetch ..).bind fun result => ?_
      split
      · trivial
      · split <;> trivial
  have hparse : ∀ text, (Py.ofExcept (parse text)).Relays PyError.cancelled :=
    fun text => Relays.ofExcept (parse_not_cancelled text)
  refine (relays_cachedFetch hfetch ..).bind fun text => ?_
  cases text with
  -- no file on the default branch: its defaults decide
  | none => trivial
  | some text =>
    refine (hparse text).bind fun config => ?_
    split
    · -- the base branch is listed, and is read as well
      refine (relays_cachedFetch hfetch ..).bind fun baseText => ?_
      cases baseText with
      | none => exact hcontext _ _
      | some baseText => exact (hparse baseText).bind fun baseConfig => hcontext _ _
    · exact hcontext _ _

end RepoConfigLoader

namespace Reviewer

variable [UnicodeDb] [ConfigLibrary] [PromptFiles] (reviewer : Reviewer) (job : Job)

/-! ## The parts of `prepare` -/

/-- What the first half of `prepare` finds: a draft, or the config and the content. -/
inductive Gathered where
  | draft (started : Nat)
  | content (started : Nat) (repoConfig : RepoConfig) (content : PRContent)

/-- The first half of `prepare`. -/
def gather (skipDraftCheck : Bool) : Py Gathered := do
  let started ← Py.perfCounter
  let prNow ← GitHubClient.getPr job.installationId job.repo job.prNumber
  if prNow.draft ∧ ¬ skipDraftCheck then return .draft started
  else do
    let repoConfig ← loadRepoConfig reviewer job prNow
    let content ← fetchPrContent job
      (repoConfig.review.includeConversation.getD reviewer.defaults.includeConversation)
      reviewer.botLogin
    return .content started repoConfig content

/-- The second half. -/
def review : Gathered → Py RenderedReview
  | .draft started => endEarly started .draftedAfterEvent
  | .content started repoConfig content => reviewContent reviewer job started repoConfig content

theorem prepare_eq (skipDraftCheck : Bool) :
    prepare reviewer job skipDraftCheck =
      (gather reviewer job skipDraftCheck).bind (review reviewer job) := by
  unfold prepare gather
  simp only [bind_eq, bind_assoc]
  congr 1
  funext started
  congr 1
  funext prNow
  split
  · rfl
  · simp only [bind_assoc]
    rfl

/-- `run` once `prepare` is through. -/
def post : RenderedReview → Py ReviewResult
  | .early result => .ret result
  | .ready prepared => (postWithRetry job prepared.body).andThen (conclude prepared)

theorem run_eq : run reviewer job = (prepare reviewer job false).bind (post job) := by
  unfold run
  refine congrArg (Prog.bind _) (funext fun rendered => ?_)
  cases rendered <;> rfl

/-! ## What each part asks for -/

omit [UnicodeDb] [ConfigLibrary] [PromptFiles] in
/-- A new loader and what is done with it. -/
theorem new_bind {α : Type} (fetcher : RepoConfigFetcher) (defaults : DefaultsConfig)
    (f : RepoConfigLoader → Py α) :
    (RepoConfigLoader.new fetcher defaults).bind f =
      (Py.mem .newLoader).bind fun cache => f { fetcher, defaults, cache } :=
  bind_assoc _ _ _

omit [PromptFiles] in
theorem loadRepoConfig_calls (pr : PRInfo) : (loadRepoConfig reviewer job pr).Calls Req.Reads := by
  have hrepo : (GitHubClient.getRepo job.installationId job.repo).Calls Req.Reads :=
    (GitHubClient.getRepo_calls (O := GhOp.IsRead) _ fun _ _ => trivial).mono fun _ =>
      Req.Asks.reads
  refine hrepo.bind fun repoData => ?_
  rw [bind_eq, new_bind]
  refine (calls_perform trivial).bind fun cache => ?_
  refine RepoConfigLoader.load_calls (fun _ => trivial) (fun repo ref path etag => ?_) trivial _ _ _
  exact (GitHubClient.fetchText_calls (O := GhOp.IsRead) _ fun _ _ => trivial).mono
    fun _ => Req.Asks.reads

omit [ConfigLibrary] [PromptFiles] in
theorem fetchPrContent_calls (includeConversation : Bool) (botLogin : String) :
    (fetchPrContent job includeConversation botLogin).Calls Req.Reads := by
  have hread : ∀ {α : Type} {p : Py α}, p.Calls (Req.Asks GhOp.IsRead) → p.Calls Req.Reads :=
    fun h => h.mono fun _ => Req.Asks.reads
  refine (hread (GitHubClient.getPr_calls _ fun _ _ => trivial)).bind fun pr => ?_
  refine (hread (GitHubClient.getPrFiles_calls _ fun _ _ => trivial)).bind fun files => ?_
  split
  · trivial
  · exact (hread (GitHubClient.getPrComments_calls _ fun _ _ => trivial)).bind fun _ => trivial

omit [PromptFiles] in
theorem gather_calls (skipDraftCheck : Bool) :
    (gather reviewer job skipDraftCheck).Calls Req.Reads := by
  have hpr : (GitHubClient.getPr job.installationId job.repo job.prNumber).Calls Req.Reads :=
    (GitHubClient.getPr_calls (O := GhOp.IsRead) _ fun _ _ => trivial).mono fun _ => Req.Asks.reads
  refine (calls_perform trivial).bind fun started => hpr.bind fun prNow => ?_
  split
  · trivial
  · refine (loadRepoConfig_calls reviewer job prNow).bind fun repoConfig => ?_
    exact (fetchPrContent_calls job _ _).bind fun content => trivial

omit [ConfigLibrary] in
theorem askModel_calls (content : PRContent) (repoConfig : RepoConfig) (chunks : List Chunk) :
    (askModel reviewer job content repoConfig chunks).Calls Req.IsChat := by
  have hchunks : ∀ total chunks index result,
      (reviewChunks reviewer job content repoConfig total chunks index result).Calls
        Req.IsChat := by
    intro total chunks
    induction chunks with
    | nil => exact fun index result => trivial
    | cons chunk rest ih =>
      intro index result
      refine (calls_ofExcept _).bind fun messages => ?_
      exact (calls_perform trivial).bind fun response => ih _ _
  refine (hchunks _ _ _ _).bind fun chunksResult => ?_
  refine Calls.bind ?_ fun synthesis => trivial
  unfold maybeSynthesize
  split
  · trivial
  · exact (calls_ofExcept _).bind fun messages => (calls_perform trivial).bind fun _ => trivial

omit [ConfigLibrary] [PromptFiles] in
theorem postWithRetry_calls (body : String) : (postWithRetry job body).Calls Req.Posts := by
  have hattempts : ∀ retries, (postAttempts job body retries).Calls Req.Posts := by
    have hcreate : (GitHubClient.createReview job.installationId job.repo job.prNumber body).Calls
        Req.Posts := by
      exact (GitHubClient.createReview_calls (O := fun op => Req.Posts (.ext (.github 0 op))) _
        fun _ _ => trivial).mono fun _ => Req.Asks.posts
    intro retries
    induction retries with
    | zero => exact hcreate
    | succ retries ih =>
      refine hcreate.tryCatch fun x => ?_
      split
      · exact (calls_perform trivial).bind fun _ => ih
      · trivial
  exact hattempts 2

/-! ## How each part ends -/

omit [PromptFiles] in
theorem relays_gather (skipDraftCheck : Bool) :
    (gather reviewer job skipDraftCheck).Relays PyError.cancelled := by
  have hpr : (GitHubClient.getPr job.installationId job.repo job.prNumber).Relays
      PyError.cancelled := GitHubClient.relays_splitRepo fun names =>
    (GitHubClient.relays_withAuthRetry _ _).bind fun _ => trivial
  refine (Relays.perform _).bind fun started => hpr.bind fun prNow => ?_
  split
  · -- a draft
    trivial
  · have hconfig : (loadRepoConfig reviewer job prNow).Relays PyError.cancelled := by
      have hrepo : (GitHubClient.getRepo job.installationId job.repo).Relays PyError.cancelled :=
        GitHubClient.relays_splitRepo fun names =>
          (GitHubClient.relays_withAuthRetry _ _).bind fun _ => trivial
      refine hrepo.bind fun repoData => ?_
      rw [bind_eq, new_bind]
      refine (Relays.perform _).bind fun cache => RepoConfigLoader.relays_load ?_ _ _ _
      exact fun repo ref path etag => GitHubClient.relays_fetchText _ repo ref path etag
    -- the config, the pull request, its files, and its comments
    refine hconfig.bind fun repoConfig => Relays.bind ?_ fun content => trivial
    refine hpr.bind fun pr => Relays.bind ?_ fun files => ?_
    · exact GitHubClient.relays_splitRepo fun names =>
        (GitHubClient.relays_paginate _ _).bind fun _ => trivial
    · split
      · trivial
      · refine Relays.bind ?_ fun comments => trivial
        exact GitHubClient.relays_splitRepo fun names =>
          (GitHubClient.relays_paginate _ _).bind fun _ => trivial

omit [ConfigLibrary] in
/-- Neither the model's exceptions nor those of the templates are handled. -/
theorem askModel_unhandled (content : PRContent) (repoConfig : RepoConfig) (chunks : List Chunk) :
    (askModel reviewer job content repoConfig chunks).Unhandled := by
  have hchunks : ∀ total chunks index result,
      (reviewChunks reviewer job content repoConfig total chunks index result).Unhandled := by
    intro total chunks
    induction chunks with
    | nil => exact fun index result => trivial
    | cons chunk rest ih =>
      intro index result
      refine (Unhandled.ofExcept _).bind fun messages => ?_
      exact (Unhandled.perform _).bind fun response => ih _ _
  refine (hchunks _ _ _ _).bind fun chunksResult => Unhandled.bind ?_ fun synthesis => trivial
  unfold maybeSynthesize
  split
  · trivial
  · refine (Unhandled.ofExcept _).bind fun messages => ?_
    exact (Unhandled.perform _).bind fun response => trivial

omit [ConfigLibrary] [PromptFiles] in
theorem relays_postWithRetry (body : String) :
    (postWithRetry job body).Relays PyError.cancelled := by
  have hattempts : ∀ retries, (postAttempts job body retries).Relays PyError.cancelled := by
    have hcreate : (GitHubClient.createReview job.installationId job.repo job.prNumber
        body).Relays PyError.cancelled :=
      GitHubClient.relays_splitRepo fun names => GitHubClient.relays_withAuthRetry _ _
    intro retries
    induction retries with
    | zero => exact hcreate
    | succ retries ih =>
      refine hcreate.tryCatch rfl fun x hx => ?_
      split
      · exact (Relays.perform _).bind fun _ => ih
      · exact hx
  exact hattempts 2

omit [ConfigLibrary] in
theorem relays_askModel (content : PRContent) (repoConfig : RepoConfig) (chunks : List Chunk) :
    (askModel reviewer job content repoConfig chunks).Relays PyError.cancelled := by
  have hchunks : ∀ total chunks index result,
      (reviewChunks reviewer job content repoConfig total chunks index result).Relays
        PyError.cancelled := by
    intro total chunks
    induction chunks with
    | nil => exact fun index result => trivial
    | cons chunk rest ih =>
      intro index result
      refine (Relays.ofExcept fun h => ?_).bind fun messages => ?_
      · obtain ⟨m, hm⟩ := composeReviewPrompt_error h
        cases hm
      · exact (Relays.perform _).bind fun response => ih _ _
  refine (hchunks _ _ _ _).bind fun chunksResult => Relays.bind ?_ fun synthesis => trivial
  unfold maybeSynthesize
  split
  · trivial
  · refine (Relays.ofExcept fun h => ?_).bind fun messages => ?_
    · obtain ⟨m, hm⟩ := composeSynthesisPrompt_error h
      cases hm
    · exact (Relays.perform _).bind fun response => trivial

theorem relays_reviewContent (started : Nat) (repoConfig : RepoConfig) (content : PRContent) :
    (reviewContent reviewer job started repoConfig content).Relays PyError.cancelled := by
  have hearly : ∀ detail, (endEarly started detail).Relays PyError.cancelled :=
    fun detail => (Relays.perform _).bind fun now => trivial
  unfold reviewContent
  dsimp only
  split
  · exact hearly _
  split
  · exact hearly _
  refine (relays_askModel reviewer job content repoConfig _).andThen rfl fun r hr => ?_
  cases r with
  | ok answer => exact (Relays.perform _).bind fun now => trivial
  | error x =>
    dsimp only
    split
    · have hfailure : (failureFrom x started .llmFailure).Relays PyError.cancelled :=
        (Relays.perform _).bind fun now => trivial
      exact hfailure.bind fun result => trivial
    · exact fun hx => hr (congrArg Except.error hx)

/-- A cancelled review raises nothing else. -/
theorem relays_run : (run reviewer job).Relays PyError.cancelled := by
  rw [run_eq, prepare_eq]
  refine ((relays_gather reviewer job false).bind fun gathered => ?_).bind fun rendered => ?_
  · cases gathered with
    | draft started => exact (Relays.perform _).bind fun now => trivial
    | content started repoConfig content => exact relays_reviewContent reviewer job _ _ _
  · cases rendered with
    | early result => trivial
    | ready prepared =>
      refine (relays_postWithRetry job prepared.body).andThen rfl fun r hr => ?_
      cases r with
      | ok reviewId => trivial
      | error x =>
        cases x with
        | cancelled => exact absurd rfl hr
        | _ => first | trivial | exact PyError.noConfusion

/-! ## The reviewer of the worker -/

/-- A review has no session: what it asks for are requests to GitHub and the model, the time, and
pauses. -/
theorem run_calls : (run reviewer job).Calls Req.IsExt := by
  have hgather : (gather reviewer job false).Calls Req.IsExt :=
    (gather_calls reviewer job false).mono fun _ => Req.Reads.isExt
  rw [run_eq, prepare_eq]
  refine (hgather.bind fun gathered => ?_).bind fun rendered => ?_
  · cases gathered with
    -- a draft asks for the time
    | draft started => exact (calls_perform trivial).bind fun _ => trivial
    | content started repoConfig content =>
      have hearly : ∀ detail, (endEarly started detail).Calls Req.IsExt :=
        fun detail => (calls_perform trivial).bind fun _ => trivial
      have hmodel := fun chunks => (askModel_calls reviewer job content repoConfig chunks).mono
        fun _ => Req.IsChat.isExt
      show (reviewContent reviewer job started repoConfig content).Calls Req.IsExt
      unfold reviewContent
      dsimp only
      split
      · exact hearly _
      split
      · exact hearly _
      refine (hmodel _).andThen fun r => ?_
      cases r with
      | ok answer => exact (calls_perform trivial).bind fun _ => trivial
      | error x =>
        dsimp only
        split
        · have hfailure : (failureFrom x started .llmFailure).Calls Req.IsExt :=
            (calls_perform trivial).bind fun _ => trivial
          exact hfailure.bind fun _ => trivial
        · trivial
  · cases rendered with
    -- an early result posts nothing
    | early result => trivial
    | ready prepared =>
      refine ((postWithRetry_calls job prepared.body).mono fun _ => Req.Posts.isExt).andThen
        fun r => ?_
      unfold conclude
      repeat' split
      all_goals trivial

/-- What ends a job early is a finished result. -/
def Terminal : Except PyError RenderedReview → Prop
  | .ok (.early result) => result.status.IsTerminal
  | _ => True

/-- A review that returns has a terminal status, whichever way it ends: done, or failed where the
model or the post failed. -/
theorem run_finished : (run reviewer job).Yields (fun _ _ => True) fun r =>
    ∀ result, r = .ok result → result.status.IsTerminal := by
  -- an early end is done
  have hearly : ∀ started detail,
      (endEarly started detail).Yields (fun _ _ => True) Terminal := by
    refine fun started detail => Yields.after _ fun now => ?_
    cases now with
    | ok now => exact (by decide : JobStatus.done.IsTerminal)
    | error x => trivial
  have hreview : ∀ gathered, (review reviewer job gathered).Yields (fun _ _ => True) Terminal := by
    intro gathered
    cases gathered with
    | draft started => exact hearly _ _
    | content started repoConfig content =>
      show (reviewContent reviewer job started repoConfig content).Yields (fun _ _ => True) Terminal
      unfold reviewContent
      dsimp only
      split
      · exact hearly _ _
      split
      · exact hearly _ _
      refine Yields.after _ fun r => ?_
      cases r with
      -- a rendered review is not finished yet
      | ok answer => exact Yields.after _ fun now => by cases now <;> trivial
      | error x =>
        dsimp only
        split
        · rw [bind_eq, failureFrom, bind_eq, Prog.bind_assoc]
          refine Yields.after _ fun now => ?_
          cases now with
          | ok now => exact (by decide : JobStatus.failed.IsTerminal)
          | error x => trivial
        · trivial
  rw [run_eq, prepare_eq]
  have hprepare : ((gather reviewer job false).bind (review reviewer job)).Yields
      (fun _ _ => True) Terminal := by
    refine Yields.after _ fun gathered => ?_
    cases gathered with
    | ok gathered => exact hreview gathered
    | error x => trivial
  refine Yields.andThen (hprepare.mono fun r hr => ?_)
  cases r with
  | error x =>
    intro result heq
    cases heq
  | ok rendered =>
    cases rendered with
    | early result =>
      intro result' heq
      rw [← Except.ok.inj heq]
      exact hr
    -- the post ends it, done or failed
    | ready prepared =>
      refine Yields.after _ fun r => ?_
      unfold conclude
      repeat' split
      all_goals
        intro result heq
        cases heq
      all_goals simp

/-- The reviewer, as the worker relies on it. -/
def routine : ReviewRoutine where
  run := run reviewer
  calls := run_calls reviewer
  finished := run_finished reviewer

end Reviewer

/-! ## What a last call makes of its answer -/

/-- What an operation raises when its last githubkit call raised `x`. -/
def GitHubClient.surfaced : PyError → PyError
  | .requestFailed exc =>
    if exc.statusCode = 401 then .gitHubAuthError (message exc) else mapError exc
  | x => x

/-- What the surroundings may answer: a pause between two attempts ends, or is cancelled, and
closing a session does not fail. -/
def Req.Genuine : (e : Req) → Except PyError e.Resp → Prop
  | .ext .sleep, r => ∀ x, r = .error x → x = .cancelled
  | .sql .rollback, r => r = .ok ()
  | e, r => e.Possible r

section Genuine

variable {σ : Type} {sem : Sem Req Req.Resp PyError σ} {s s' : σ} {tr : ReqTrace}
  (hsem : ∀ e s r s', sem e s r s' → e.Genuine r)

include hsem

/-- One attempt asks for a client and makes one call on it. -/
theorem GitHubClient.ends_callOnce {id : Nat} {op : GhOp} {r : Except PyError op.Resp}
    (h : Ends sem (callOnce id op) s tr r s') :
    ∃ pre client, tr = pre ++ [⟨.ext (.github client op), r⟩] := by
  obtain ⟨r₁, tr₁, tr₂, s₁, rfl, hmem, hcall⟩ := ends_andThen h
  obtain ⟨-, hmem⟩ := ends_perform hmem
  obtain ⟨client, rfl⟩ : ∃ client, r₁ = .ok client := hsem _ _ _ _ hmem
  obtain ⟨rfl, -⟩ := ends_perform hcall
  exact ⟨tr₁, client, rfl⟩

/-- An attempt ends on its call, unless that is a 401, which `unauthorized` takes over. -/
theorem GitHubClient.ends_attempt {id : Nat} {op : GhOp} {unauthorized : RequestFailed → Py op.Resp}
    {r : Except PyError op.Resp} (h : Ends sem (catching (callOnce id op) unauthorized) s tr r s') :
    ∃ (pre : ReqTrace) (client : Nat) (d : Except PyError op.Resp),
      (tr = pre ++ [⟨.ext (.github client op), d⟩] ∧ r = d.mapError surfaced) ∨
      ∃ exc tr' s₁, exc.statusCode = 401 ∧ d = .error (.requestFailed exc) ∧
        tr = pre ++ [⟨.ext (.github client op), d⟩] ++ tr' ∧
        Ends sem (unauthorized exc) s₁ tr' r s' := by
  rcases ends_tryCatch h with ⟨v, rfl, hrun⟩ | ⟨x, tr₁, tr₂, s₁, rfl, hrun, hrest⟩
  · obtain ⟨pre, client, rfl⟩ := ends_callOnce hsem hrun
    exact ⟨pre, client, _, Or.inl ⟨rfl, rfl⟩⟩
  · obtain ⟨pre, client, rfl⟩ := ends_callOnce hsem hrun
    refine ⟨pre, client, .error x, ?_⟩
    cases x with
    | requestFailed exc =>
      dsimp only at hrest
      split at hrest
      · rename_i hstatus
        -- a 401: the handler goes on
        exact Or.inr ⟨exc, tr₂, s₁, hstatus, rfl, rfl, hrest⟩
      · rename_i hstatus
        obtain ⟨rfl, rfl, _⟩ := ends_raise hrest
        refine Or.inl ⟨List.append_nil _, ?_⟩
        simp only [Except.mapError, surfaced, if_neg hstatus]
    -- what is no refused request is passed on
    | _ =>
      obtain ⟨rfl, rfl, _⟩ := ends_raise hrest
      exact Or.inl ⟨List.append_nil _, rfl⟩

/-- `_with_auth_retry` ends on its last call. -/
theorem GitHubClient.ends_withAuthRetry {id : Nat} {op : GhOp} {r : Except PyError op.Resp}
    (h : Ends sem (withAuthRetry id op) s tr r s') :
    ∃ (pre : ReqTrace) (client : Nat) (d : Except PyError op.Resp),
      tr = pre ++ [⟨.ext (.github client op), d⟩] ∧ r = d.mapError surfaced := by
  obtain ⟨pre, client, d, hlast | ⟨exc, tr', s₁, -, -, rfl, hrest⟩⟩ := ends_attempt hsem h
  · exact ⟨pre, client, d, hlast⟩
  · -- a 401: the client is dropped, and the second call decides
    obtain ⟨r₁, tr₁, tr₂, s₂, rfl, hdrop, hagain⟩ := ends_andThen hrest
    obtain ⟨-, hdrop⟩ := ends_perform hdrop
    obtain ⟨u, rfl⟩ : ∃ u, r₁ = .ok u := hsem _ _ _ _ hdrop
    obtain ⟨pre', client', d', ⟨rfl, hr⟩ | ⟨second, tr', s₃, hstatus, rfl, rfl, hraise⟩⟩ :=
      ends_attempt hsem hagain
    · refine ⟨(pre ++ [⟨.ext (.github client op), d⟩] ++ tr₁) ++ pre', client', d', ?_, hr⟩
      simp only [List.append_assoc]
    · obtain ⟨rfl, rfl, _⟩ := ends_raise hraise
      refine ⟨(pre ++ [⟨.ext (.github client op), d⟩] ++ tr₁) ++ pre', client',
        .error (.requestFailed second), ?_, ?_⟩
      · simp only [List.append_assoc, List.append_nil]
      · simp only [Except.mapError, surfaced, if_pos hstatus]

variable [UnicodeDb] {job : Job} {body : String}

/-- The trace ends in a `create_review`, and `r` is what surfaces of its answer. -/
def EndsOnPost (tr : ReqTrace) (r : Except PyError Nat) : Prop :=
  ∃ (pre : ReqTrace) (client : Nat) (owner name body : String) (prNumber : Nat)
    (d : Except PyError Nat),
    tr = pre ++ [⟨.ext (.github client (.pullsCreateReview owner name prNumber body)), d⟩] ∧
      r = d.mapError GitHubClient.surfaced

omit hsem [UnicodeDb] in
theorem EndsOnPost.prepend {tr' : ReqTrace} {r : Except PyError Nat} (h : EndsOnPost tr' r) :
    EndsOnPost (tr ++ tr') r := by
  obtain ⟨pre, client, owner, name, body, prNumber, d, rfl, hr⟩ := h
  exact ⟨tr ++ pre, client, owner, name, body, prNumber, d, (List.append_assoc ..).symm, hr⟩

theorem GitHubClient.ends_createReview {id : Nat} {repo : String} {prNumber : Nat}
    {r : Except PyError Nat} (h : Ends sem (createReview id repo prNumber body) s tr r s') :
    (tr = [] ∧ ∃ m, splitRepo repo = .error (.valueError m) ∧ r = .error (.valueError m)) ∨
      (∃ names, splitRepo repo = .ok names) ∧ EndsOnPost tr r := by
  obtain ⟨r₁, tr₁, tr₂, s₁, rfl, hsplit, hrest⟩ := ends_andThen h
  obtain ⟨rfl, hr₁, rfl⟩ := run_ofExcept hsplit
  obtain rfl : r₁ = splitRepo repo := ofExcept_inj hr₁
  rcases splitRepo_cases repo with ⟨m, hrepo⟩ | ⟨names, hrepo⟩
  · rw [hrepo] at hrest
    obtain ⟨rfl, rfl, _⟩ := ends_raise hrest
    exact Or.inl ⟨rfl, m, hrepo, rfl⟩
  · rw [hrepo] at hrest
    obtain ⟨pre, client, d, rfl, hr⟩ := ends_withAuthRetry hsem hrest
    exact Or.inr ⟨⟨names, hrepo⟩, pre, client, names.1, names.2, body, prNumber, d, rfl, hr⟩

/-- The post ends on its last `create_review`, where it is not cut off before. Two more attempts are
made after transient errors, with a pause before each; only in a pause it can be cancelled. -/
theorem Reviewer.ends_postWithRetry {r : Except PyError Nat}
    (h : Ends sem (postWithRetry job body) s tr r s') :
    (tr = [] ∧ ∃ m, r = .error (.valueError m)) ∨ r = .error .cancelled ∨ EndsOnPost tr r := by
  -- one attempt
  have hcreate : ∀ {s tr r s'},
      Ends sem (GitHubClient.createReview job.installationId job.repo job.prNumber body) s tr r s' →
      (tr = [] ∧ ∃ m, GitHubClient.splitRepo job.repo = .error (.valueError m) ∧
        r = .error (.valueError m)) ∨ r = .error .cancelled ∨ EndsOnPost tr r :=
    fun h => (GitHubClient.ends_createReview hsem h).imp_right fun hpost => Or.inr hpost.2
  -- and up to two more, by induction on those that are left
  have hattempts : ∀ retries {s tr}, Ends sem (postAttempts job body retries) s tr r s' →
      (tr = [] ∧ ∃ m, GitHubClient.splitRepo job.repo = .error (.valueError m) ∧
        r = .error (.valueError m)) ∨ r = .error .cancelled ∨ EndsOnPost tr r := by
    intro retries
    induction retries with
    | zero => exact hcreate
    | succ retries ih =>
      intro s tr h
      rcases ends_tryCatch h with ⟨v, rfl, hrun⟩ | ⟨x, tr₁, tr₂, s₁, rfl, hrun, hrest⟩
      · exact hcreate hrun
      · split at hrest
        · -- a transient error: the next attempt, after a pause
          obtain ⟨r₁, tr₃, tr₄, s₂, rfl, hsleep, hnext⟩ := ends_andThen hrest
          obtain ⟨-, hsleep⟩ := ends_perform hsleep
          cases r₁ with
          -- a pause ends early only if the review is cancelled
          | error y =>
            obtain rfl : y = .cancelled := hsem _ _ _ _ hsleep y rfl
            obtain ⟨-, rfl, _⟩ := ends_raise hnext
            exact Or.inr (Or.inl rfl)
          | ok u =>
            rcases ih hnext with ⟨rfl, m, hrepo, rfl⟩ | hr | hpost
            · -- the name was well formed a moment ago
              rcases GitHubClient.ends_createReview hsem hrun with
                ⟨_, m', _, hr⟩ | ⟨⟨names, hnames⟩, _⟩
              · cases hr
              · cases hrepo.symm.trans hnames
            · exact Or.inr (Or.inl hr)
            · exact Or.inr (Or.inr hpost.prepend.prepend)
        · -- no transient error: the loop is over
          obtain ⟨rfl, rfl, _⟩ := ends_raise hrest
          rw [List.append_nil]
          exact hcreate hrun
  rcases hattempts 2 h with ⟨htr, m, _, hr⟩ | hr
  · exact Or.inl ⟨htr, m, hr⟩
  · exact Or.inr hr

end Genuine

/-! ## Surroundings that can be computed -/

/-- GitHub and the model answer every request of a kind the same way; the store is empty, the
clocks stand still. -/
structure Replies where
  github : (op : GhOp) → Except PyError op.Resp
  chat : Except PyError ChatResponse

namespace Replies

def answer (replies : Replies) : (e : Req) → Unit → Except PyError e.Resp × Unit
  | .ext (.github _ op), u => (replies.github op, u)
  | .ext (.chat ..), u => (replies.chat, u)
  | .ext (.mem op), u => (.ok (op.exec {}).1, u)
  | .ext .utcnow, u => (.ok (0 : Nat), u)
  | .ext .perfCounter, u => (.ok (0 : Nat), u)
  | .ext .sleep, u => (.ok (), u)
  | .sql (.query q), u => (.ok (q.eval Db.empty), u)
  | .sql (.dml d), u => (.ok (d.apply Db.empty).1, u)
  | .sql .commit, u => (.ok (), u)
  | .sql .rollback, u => (.ok (), u)

/-- The surroundings as a semantics. -/
def sem (replies : Replies) : Sem Req Req.Resp PyError Unit :=
  fun e s r s' => replies.answer e s = (r, s')

theorem ends {α : Type} (replies : Replies) (p : Py α) :
    Ends replies.sem p () (p.eval replies.answer ()).1 (p.eval replies.answer ()).2.1 () :=
  ends_eval (fun _ _ => rfl) p ()

theorem eval_of_ends {α : Type} {replies : Replies} {p : Py α} {tr : ReqTrace}
    {r : Except PyError α} {u : Unit} (h : Ends replies.sem p () tr r u) :
    p.eval replies.answer () = (tr, r, u) :=
  Prog.eval_of_ends (fun _ _ _ _ => id) h

theorem genuine {replies : Replies}
    (hcomment : ∀ owner repo number body,
      replies.github (.issuesCreateComment owner repo number body) ≠ .error .cancelled)
    (e : Req) (s : Unit) (r : Except PyError e.Resp) (s' : Unit) (h : replies.sem e s r s') :
    e.Genuine r := by
  cases e with
  | sql q =>
    cases q with
    | rollback => exact (congrArg Prod.fst h).symm
    | _ =>
      cases h
      exact fun hcancelled => by cases hcancelled
  | ext e =>
    cases e with
    | github client op =>
      cases op <;> first | trivial | skip
      cases h
      exact hcomment _ _ _ _
    | chat => trivial
    | sleep =>
      cases h
      exact nofun
    | _ =>
      cases h
      exact ⟨_, rfl⟩

end Replies

def exampleReviewer : Reviewer where
  defaults := {}
  pipeline := {}
  llm := { model := "m" }
  botLogin := "vidi-pr[bot]"

def exampleOperator : OperatorConfig := { llm := { model := "m" }, webhookSecret := "s" }

/-- A job for the head `aaa` of a pull request. -/
def exampleJob : Job where
  id := 1
  jobType := .review
  installationId := 5
  repo := "o/r"
  prNumber := 7
  headSha := "aaa"
  triggerKind := .auto
  extraContext := none
  status := .running
  statusDetail := none
  attempts := 0
  createdAt := 0
  updatedAt := 0
  error := none

/-- GitHub's answers about a pull request with one changed file, in a repository without a config;
`review` is the answer to a review that is posted. -/
def exampleGithub (review : Except PyError Nat) : (op : GhOp) → Except PyError op.Resp
  | .pullsGet _ _ number => .ok {
      number
      title := "Fix the lock"
      body := none
      headSha := "aaa"
      baseRef := "main"
      userLogin := some "alice"
      draft := some false }
  | .pullsListFiles .. => .ok [{
      filename := "lock.py"
      status := "modified"
      additions := 1
      deletions := 1
      patch := some "@@ -1 +1 @@\n-x\n+y" }]
  | .issuesListComments .. => .ok []
  | .reposGet owner repo => .ok {
      fullName := owner ++ "/" ++ repo
      defaultBranch := "main"
      isPrivate := false }
  | .pullsCreateReview .. => review
  | .issuesCreateComment .. => .ok (1 : Nat)
  | .reactionsCreateForIssueComment .. => .ok ()
  | .reposGetContent .. => .error (.requestFailed { statusCode := 404, text := "Not Found" })

def exampleChat : ChatResponse where
  content := "Looks good."
  model := "m"
  usage := { promptTokens := 1, completionTokens := 1, totalTokens := 2 }
  reasoningContent := ""
  finishReason := some "stop"

end VidiPr
