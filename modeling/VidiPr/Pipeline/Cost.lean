import Mathlib.Algebra.Order.Group.Nat
import VidiPr.Lib.Budget
import VidiPr.Pipeline.Packing
import VidiPr.Pipeline.ReviewRuns
import VidiPr.Service.WorkerSpec

/-!
# What a job can cost

The worst case of one turn of the worker: how often it can call githubkit, the model's client and
the store, whatever they answer. What is counted are the calls, not the HTTP requests they make:
githubkit reads a paginated answer page by page and may send a request again, and so does
`LLMClient.chat`. Each function has its budget, and the budget of a turn is put together from them
the way the turn is.

* **`Req.price`** — every call counts once, under its kind.
* **`turnBudget`** — the worst case of a turn.
* **`Worker.process_spent_le`** — no turn goes over it, finished or cut short.
-/

namespace VidiPr

open Effect Prog Text

/-! ## Kinds of requests -/

/-- What a request is counted as: by what it does outside the process, or to a transaction. -/
inductive Kind where
  /-- a githubkit call that changes nothing, be it paginated or not -/
  | read
  /-- `create_review` -/
  | review
  /-- `create_comment` -/
  | comment
  | reaction
  /-- `LLMClient.chat`, with all its attempts -/
  | chat
  | commit
  /-- a row of `reviews_posted` -/
  | record
  | sleep
deriving DecidableEq, Repr

def GhOp.kind : GhOp → Kind
  | .pullsCreateReview .. => .review
  | .issuesCreateComment .. => .comment
  | .reactionsCreateForIssueComment .. => .reaction
  | _ => .read

/-- Clocks, dictionaries and other statements are not counted. -/
def Req.kind : Req → Option Kind
  | .ext (.github _ op) => some op.kind
  | .ext (.chat ..) => some .chat
  | .ext .sleep => some .sleep
  | .sql .commit => some .commit
  | .sql (.dml (.insertReviewPosted _)) => some .record
  | _ => none

/-- `n` requests of one kind. -/
def times (n : Nat) (kind : Kind) : Kind → Nat := fun k => if k = kind then n else 0

/-- Every call counts once, under its kind, whatever HTTP requests it takes. -/
def Req.price (e : Req) : Kind → Nat := (e.kind.map (times 1)).getD 0

@[simp] theorem times_apply (n : Nat) (kind k : Kind) :
    times n kind k = if k = kind then n else 0 := rfl

theorem times_add (n m : Nat) (kind : Kind) : times n kind + times m kind = times (n + m) kind := by
  funext k
  simp only [Pi.add_apply, times_apply]
  split <;> rfl

theorem times_mono {n m : Nat} (h : n ≤ m) (kind : Kind) : times n kind ≤ times m kind := by
  intro k
  simp only [times_apply]
  split <;> omega

/-- Nothing was spent on a kind that was not asked for. -/
theorem kind_ne_of_spent {tr : ReqTrace} {kind : Kind} (h : spent Req.price tr kind = 0) :
    ∀ c ∈ tr, c.1.kind ≠ some kind := by
  induction tr with
  | nil => exact fun c hc => absurd hc List.not_mem_nil
  | cons c tr ih =>
    obtain ⟨e, r⟩ := c
    rw [spent_cons, Pi.add_apply] at h
    obtain ⟨hfirst, hrest⟩ := Nat.add_eq_zero_iff.mp h
    intro c hc hkind
    rcases List.mem_cons.mp hc with rfl | hc
    · rw [Req.price, hkind] at hfirst
      simp at hfirst
    · exact ih hrest c hc hkind

theorem Req.IsPost.kind {e : Req} (h : e.IsPost) : e.kind = some .review := by
  unfold IsPost at h
  split at h
  · rfl
  · exact h.elim

/-! ## The client -/

-- the resolution of a repository name is not looked into
attribute [local irreducible] GitHubClient.splitRepo

namespace GitHubClient

theorem callOnce_within (id : Nat) (op : GhOp) :
    (callOnce id op).Within Req.price (times 1 op.kind) :=
  .skip (calls_perform rfl) fun client => within_perform (Req.ext (.github client op))

theorem catching_within {α : Type} {c d : Kind → Nat} {body : Py α}
    {unauthorized : RequestFailed → Py α} (hbody : body.Within Req.price c)
    (hun : ∀ exc, (unauthorized exc).Within Req.price d) :
    (catching body unauthorized).Within Req.price (c + d) := by
  refine hbody.tryCatch fun x => ?_
  cases x with
  | requestFailed exc =>
    dsimp only
    split
    · exact hun exc
    · trivial
  | _ => trivial

/-- The credential retry repeats a call once. -/
theorem withAuthRetry_within (id : Nat) (op : GhOp) :
    (withAuthRetry id op).Within Req.price (times 2 op.kind) := by
  have hsecond : ∀ exc : RequestFailed, ((Py.mem (.dropCached id)).bind fun _ =>
      catching (callOnce id op) fun second =>
        Py.throw (.gitHubAuthError (message second))).Within Req.price (times 1 op.kind) := by
    intro exc
    refine .skip (calls_perform rfl) fun _ => ?_
    have honce : (catching (callOnce id op) fun second =>
        Py.throw (.gitHubAuthError (message second))).Within Req.price (times 1 op.kind + 0) :=
      catching_within (callOnce_within id op) fun _ => trivial
    exact honce.mono (add_zero _).le
  exact (catching_within (callOnce_within id op) hsecond).mono (times_add 1 1 op.kind).le

/-- A paginated read is not repeated. -/
theorem paginate_within (id : Nat) (op : GhOp) :
    (paginate id op).Within Req.price (times 1 op.kind) := by
  refine .skip (calls_perform rfl) fun client => ?_
  have hcall : (Py.github client op).Within Req.price (times 1 op.kind) := within_perform _
  refine (hcall.tryCatch (d := 0) fun x => ?_).mono (add_zero _).le
  cases x <;> trivial

variable [UnicodeDb]

theorem splitRepo_within {α : Type} {c : Kind → Nat} {repo : String}
    {f : String × String → Py α} (hf : ∀ names, (f names).Within Req.price c) :
    ((Py.ofExcept (splitRepo repo)).bind f).Within Req.price c :=
  .skip (calls_ofExcept _) hf

theorem getPr_within (id : Nat) (repo : String) (prNumber : Nat) :
    (getPr id repo prNumber).Within Req.price (times 2 .read) :=
  splitRepo_within fun names =>
    (withAuthRetry_within id (.pullsGet names.1 names.2 prNumber)).then_free fun _ => trivial

theorem getRepo_within (id : Nat) (repo : String) :
    (getRepo id repo).Within Req.price (times 2 .read) :=
  splitRepo_within fun names =>
    (withAuthRetry_within id (.reposGet names.1 names.2)).then_free fun _ => trivial

theorem getPrFiles_within (id : Nat) (repo : String) (prNumber : Nat) :
    (getPrFiles id repo prNumber).Within Req.price (times 1 .read) :=
  splitRepo_within fun names =>
    (paginate_within id (.pullsListFiles names.1 names.2 prNumber)).then_free fun _ => trivial

theorem getPrComments_within (id : Nat) (repo : String) (prNumber : Nat) :
    (getPrComments id repo prNumber).Within Req.price (times 1 .read) :=
  splitRepo_within fun names =>
    (paginate_within id (.issuesListComments names.1 names.2 prNumber)).then_free fun _ => trivial

theorem createReview_within (id : Nat) (repo : String) (prNumber : Nat) (body : String) :
    (createReview id repo prNumber body).Within Req.price (times 2 .review) :=
  splitRepo_within fun names =>
    withAuthRetry_within id (.pullsCreateReview names.1 names.2 prNumber body)

theorem createComment_within (id : Nat) (repo : String) (issueNumber : Nat) (body : String) :
    (createComment id repo issueNumber body).Within Req.price (times 2 .comment) :=
  splitRepo_within fun names =>
    withAuthRetry_within id (.issuesCreateComment names.1 names.2 issueNumber body)

theorem fetchText_within (id : Nat) (repo ref path : String) (etag : Option String) :
    (fetchText id repo ref path etag).Within Req.price (times 2 .read) := by
  refine splitRepo_within fun names => ?_
  have hcall := withAuthRetry_within id (.reposGetContent names.1 names.2 path ref etag)
  refine (hcall.andThen (d := 0) fun r => ?_).mono (add_zero _).le
  cases r with
  | ok response => exact within_ofExcept _
  | error x => cases x <;> trivial

end GitHubClient

/-! ## Loading the config -/

namespace RepoConfigLoader

variable {loader : RepoConfigLoader} {c : Kind → Nat}
  (hfetch : ∀ repo ref path etag, (loader.fetcher.fetchText repo ref path etag).Within Req.price c)
include hfetch

/-- A cached read fetches at most once. -/
theorem cachedFetch_within (repo ref path : String) :
    (loader.cachedFetch repo ref path).Within Req.price c := by
  have hstore : ∀ key now result, (cachedFetch.store loader key now result).Within Req.price 0 := by
    intro key now result
    unfold cachedFetch.store
    split
    · exact .free (Calls.bind (calls_perform rfl) fun _ => trivial)
    · exact .free (Calls.bind (calls_perform rfl) fun _ => trivial)
  refine .skip (calls_perform rfl) fun now => .skip (calls_perform rfl) fun entry => ?_
  cases entry with
  | none => exact (hfetch ..).then_free fun result => hstore _ _ result
  | some entry =>
    dsimp only
    split
    · trivial
    · refine (hfetch ..).then_free fun result => ?_
      split
      · exact .free (Calls.bind (calls_perform rfl) fun _ => trivial)
      · exact hstore _ _ result

theorem resolveProjectContext_within (repo ref : String) (config : RepoConfig) :
    (loader.resolveProjectContext repo ref config).Within Req.price c := by
  unfold resolveProjectContext
  split
  · trivial
  · refine (hfetch ..).then_free fun result => ?_
    split
    · trivial
    · split <;> trivial

variable [ConfigLibrary]

/-- A load fetches at most three times: the config of the default branch, that of the base branch,
and the context file. -/
theorem load_within (repo baseRef defaultBranch : String) :
    (loader.load repo baseRef defaultBranch).Within Req.price (c + (c + c)) := by
  have hcontext := resolveProjectContext_within hfetch repo
  refine (cachedFetch_within hfetch ..).bind fun text => ?_
  cases text with
  | none => trivial
  | some text =>
    refine .skip (calls_ofExcept _) fun config => ?_
    split
    · refine (cachedFetch_within hfetch ..).bind fun baseText => ?_
      cases baseText with
      | none => exact hcontext _ _
      | some baseText => exact .skip (calls_ofExcept _) fun baseConfig => hcontext _ _
    · exact (hcontext _ _).mono le_self_add

end RepoConfigLoader

/-! ## The review -/

namespace Reviewer

variable [UnicodeDb] [ConfigLibrary] [PromptFiles] (reviewer : Reviewer) (job : Job)

omit [PromptFiles] in
theorem loadRepoConfig_within (pr : PRInfo) :
    (loadRepoConfig reviewer job pr).Within Req.price (times 8 .read) := by
  have hrepo := GitHubClient.getRepo_within job.installationId job.repo
  have hload : ∀ cache repo baseRef defaultBranch,
      (RepoConfigLoader.load { fetcher := GitHubClient.forInstallation job.installationId
                               defaults := reviewer.defaults
                               cache } repo baseRef defaultBranch).Within Req.price
        (times 6 .read) := fun cache repo baseRef defaultBranch =>
    (RepoConfigLoader.load_within (GitHubClient.fetchText_within job.installationId) repo baseRef
      defaultBranch).mono (by simp only [times_add, le_refl])
  refine Within.mono (hrepo.bind fun repoData => ?_) (times_add 2 6 .read).le
  rw [bind_eq, new_bind]
  exact .skip (calls_perform rfl) fun cache => hload _ _ _ _

omit [ConfigLibrary] [PromptFiles] in
theorem fetchPrContent_within (includeConversation : Bool) (botLogin : String) :
    (fetchPrContent job includeConversation botLogin).Within Req.price (times 4 .read) := by
  have hpr := GitHubClient.getPr_within job.installationId job.repo job.prNumber
  have hfiles := GitHubClient.getPrFiles_within job.installationId job.repo job.prNumber
  have hcomments := GitHubClient.getPrComments_within job.installationId job.repo job.prNumber
  refine (hpr.bind fun pr => hfiles.bind (d := times 1 .read) fun files => ?_).mono
    (by simp only [times_add, le_refl])
  split
  · trivial
  · exact hcomments.then_free fun comments => trivial

omit [PromptFiles] in
/-- Reading the pull request, its config and its content. -/
theorem gather_within (skipDraftCheck : Bool) :
    (gather reviewer job skipDraftCheck).Within Req.price (times 14 .read) := by
  have hpr := GitHubClient.getPr_within job.installationId job.repo job.prNumber
  refine .skip (calls_perform rfl) fun started => ?_
  refine Within.mono (hpr.bind (d := times 12 .read) fun prNow => ?_) (times_add 2 12 .read).le
  split
  · trivial
  · refine Within.mono ((loadRepoConfig_within reviewer job prNow).bind fun repoConfig => ?_)
      (times_add 8 4 .read).le
    exact (fetchPrContent_within job _ _).then_free fun content => trivial

omit [ConfigLibrary] in
/-- One question for each chunk, and one for the synthesis. -/
theorem askModel_within (content : PRContent) (repoConfig : RepoConfig) (chunks : List Chunk) :
    (askModel reviewer job content repoConfig chunks).Within Req.price
      (times (chunks.length + 1) .chat) := by
  have hchat : ∀ messages temperature maxTokens,
      (Py.chat messages temperature maxTokens).Within Req.price (times 1 .chat) :=
    fun _ _ _ => within_perform _
  -- one chat a chunk, by induction over the chunks
  have hchunks : ∀ total chunks index result,
      (reviewChunks reviewer job content repoConfig total chunks index result).Within Req.price
        (times chunks.length .chat) := by
    intro total chunks
    induction chunks with
    | nil => exact fun index result => trivial
    | cons chunk rest ih =>
      intro index result
      refine .skip (calls_ofExcept _) fun messages => ?_
      refine ((hchat _ _ _).bind fun response => ih _ _).mono ?_
      rw [times_add, List.length_cons, Nat.add_comm]
  -- and one more, or none where there is one output
  have hsynthesis : ∀ outputs,
      (maybeSynthesize reviewer repoConfig outputs).Within Req.price (times 1 .chat) := by
    intro outputs
    unfold maybeSynthesize
    split
    · trivial
    · exact .skip (calls_ofExcept _) fun messages => (hchat _ _ _).then_free fun _ => trivial
  refine Within.mono ((hchunks _ _ _ _).bind fun chunksResult => ?_) (times_add _ 1 .chat).le
  exact (hsynthesis _).then_free fun synthesis => trivial

omit [UnicodeDb] [ConfigLibrary] [PromptFiles] in
/-- The packer makes at most `max_chunks` chunks. -/
theorem chunks_le (limits : PackLimits) (files : List ChangedFile) :
    (packChunks limits files).chunks.length ≤ limits.maxChunks := by
  obtain ⟨skipped, hvalid⟩ := pack_valid limits files
  rw [packChunks, length_chunks]
  exact hvalid.bins_le

/-- What is asked of the model for one review. -/
theorem review_within (gathered : Gathered) :
    (review reviewer job gathered).Within Req.price
      (times (reviewer.pipeline.maxChunks + 1) .chat) := by
  have hclock : ∀ {α : Type} {f : Nat → Py α} {c : Kind → Nat},
      (∀ now, (f now).Within Req.price c) → (Py.perfCounter.bind f).Within Req.price c :=
    fun hf => .skip (calls_perform rfl) hf
  -- an early end asks for nothing
  have hearly : ∀ started detail c, (endEarly started detail).Within Req.price c :=
    fun started detail c => hclock fun now => trivial
  cases gathered with
  | draft started => exact hearly _ _ _
  | content started repoConfig content =>
    show (reviewContent reviewer job started repoConfig content).Within _ _
    unfold reviewContent
    dsimp only
    split
    · exact hearly _ _ _
    split
    · exact hearly _ _ _
    have hmodel := askModel_within reviewer job content repoConfig
      (packChunks {
        maxFiles := reviewer.pipeline.maxFiles
        maxChunks := reviewer.pipeline.maxChunks
        maxChunkChars := reviewer.pipeline.maxChunkChars }
        (filterFiles content.files repoConfig)).chunks
    refine (hmodel.mono (times_mono (Nat.succ_le_succ (chunks_le _ _)) .chat)).andThen (d := 0)
      (fun r => ?_) |>.mono (add_zero _).le
    cases r with
    -- rendering is free, and so is the result of a failed model
    | ok answer => exact hclock fun now => trivial
    | error x =>
      dsimp only
      split
      · have hfailure : (failureFrom x started .llmFailure).Within Req.price 0 :=
          hclock fun now => trivial
        exact hfailure.then_free fun result => trivial
      · trivial

/-! ## The post -/

omit [ConfigLibrary] [PromptFiles] in
/-- Three attempts, each with its credential retry, and a pause between two of them. -/
theorem postWithRetry_within (body : String) :
    (postWithRetry job body).Within Req.price (times 6 .review + times 2 .sleep) := by
  have hattempts : ∀ retries, (postAttempts job body retries).Within Req.price
      (times (2 * (retries + 1)) .review + times retries .sleep) := by
    have hcreate := GitHubClient.createReview_within job.installationId job.repo job.prNumber body
    intro retries
    induction retries with
    | zero => exact hcreate.mono le_self_add
    | succ retries ih =>
      have hpause : (Py.sleep.bind fun _ => postAttempts job body retries).Within Req.price
          (times 1 .sleep + (times (2 * (retries + 1)) .review + times retries .sleep)) :=
        Within.bind (within_perform _) fun _ => ih
      refine (hcreate.tryCatch (d := times 1 .sleep +
        (times (2 * (retries + 1)) .review + times retries .sleep)) fun x => ?_).mono ?_
      · split
        · exact hpause
        · trivial
      · intro kind
        simp only [Pi.add_apply, times_apply]
        split_ifs <;> omega
  exact hattempts 2

/-- A whole review: reading, asking and posting. -/
theorem run_within :
    (run reviewer job).Within Req.price
      (times 14 .read + times (reviewer.pipeline.maxChunks + 1) .chat +
        (times 6 .review + times 2 .sleep)) := by
  rw [run_eq, prepare_eq]
  refine ((gather_within reviewer job false).bind fun gathered =>
    review_within reviewer job gathered).bind fun rendered => ?_
  cases rendered with
  | early result => trivial
  | ready prepared =>
    refine ((postWithRetry_within job prepared.body).andThen (d := 0) fun r => ?_).mono
      (add_zero _).le
    unfold conclude
    repeat' split
    all_goals trivial

end Reviewer

/-! ## The turn -/

section Worker

theorem withSession_within {α : Type} {c : Kind → Nat} {body : Py α}
    (h : body.Within Req.price c) : (Py.withSession body).Within Req.price c := by
  refine (h.andThen (d := 0) fun r => ?_).mono (add_zero _).le
  exact .skip (calls_perform rfl) fun _ => within_ofExcept r

theorem waitFor_within {α : Type} {c : Kind → Nat} {body : Py α}
    (h : body.Within Req.price c) : (Py.waitFor body).Within Req.price c := by
  refine h.handled_free fun x => ?_
  cases x <;> trivial

/-- The slot of the cooldown is one commit. -/
theorem claimFailureSlot_within (repo : String) (prNumber cooldownSeconds : Nat) :
    (claimFailureSlot repo prNumber cooldownSeconds).Within Req.price (times 1 .commit) := by
  refine .skip (calls_perform rfl) fun now => ?_
  split
  · refine .skip (calls_perform rfl) fun existing => ?_
    split
    · trivial
    · refine .skip (calls_perform rfl) fun _ => ?_
      exact Within.then_free (within_perform _) fun _ => trivial
  · trivial

variable [UnicodeDb]

/-- The comment is one call and its retry. -/
theorem maybePostFailureComment_within (installationId : Nat) (repo : String) (prNumber : Nat)
    (message : String) (cooldownSeconds : Nat) :
    (maybePostFailureComment installationId repo prNumber message cooldownSeconds).Within Req.price
      (times 1 .commit + times 2 .comment) := by
  refine (withSession_within (claimFailureSlot_within ..)).bind fun allowed => ?_
  split
  · refine ((GitHubClient.createComment_within installationId repo prNumber message).andThen
      (d := 0) fun r => ?_).mono (add_zero _).le
    rcases r with x | id
    · cases x <;> trivial
    · trivial
  · trivial

namespace Worker

omit [UnicodeDb] in
theorem persistOutcome_within (job : Job) (result : ReviewResult) :
    (persistOutcome job result).Within Req.price (times 1 .record + times 1 .commit) := by
  have hstatus : ∀ status detail error,
      (updateJobStatus job.id status detail error).Calls fun e => e.price = 0 :=
    fun _ _ _ => Calls.bind (calls_perform rfl) fun _ => calls_perform rfl
  have hrecord : (recordReview job result).Within Req.price (times 1 .record) := by
    unfold recordReview
    split
    · refine Within.then_free ?_ fun _ => trivial
      exact .skip (calls_perform rfl) fun now => within_perform _
    · trivial
  have hlock : (releaseLock job.repo job.prNumber).Calls fun e => e.price = 0 :=
    calls_perform rfl
  refine withSession_within (.skip (hstatus _ _ _) fun _ => hrecord.bind fun _ => ?_)
  exact .skip hlock fun _ => within_perform _

/-- What one turn may ask for, by kind. Only the calls of the model depend on the configuration: one
for each chunk, and one for the synthesis. -/
def turnBudget (maxChunks : Nat) : Kind → Nat
  | .read => 14
  | .review => 6
  | .comment => 2
  | .reaction => 0
  | .chat => maxChunks + 1
  | .commit => 2
  | .record => 1
  | .sleep => 2

variable [ConfigLibrary] [PromptFiles]

omit [ConfigLibrary] [PromptFiles] in
/-- The outcome, and a comment if the job has failed. -/
theorem persist_within (config : OperatorConfig) (job : Job) (result : ReviewResult) :
    (persist config job result).Within Req.price
      (times 1 .record + times 1 .commit +
        if result.status = .failed then times 1 .commit + times 2 .comment else 0) := by
  have hcomment := fun message => maybePostFailureComment_within job.installationId job.repo
    job.prNumber message config.pipeline.failureCommentCooldownSeconds
  refine (persistOutcome_within job result).bind fun _ => ?_
  cases hst : result.status with
  | failed =>
    cases result.failureMessage with
    | some message => exact (hcomment message).then_free fun _ => trivial
    | none => trivial
  | _ => trivial

/-- The budget of a turn, whatever is answered. -/
theorem process_within (config : OperatorConfig) (reviewer : Reviewer) (job : Job) :
    (process config (Reviewer.run reviewer) job).Within Req.price
      (turnBudget reviewer.pipeline.maxChunks) := by
  have hsettle : ∀ r, (settle config job r).Within Req.price
      (times 1 .record + times 1 .commit + (times 1 .commit + times 2 .comment)) := by
    intro r
    by_cases hr : r = .error .cancelled
    · subst hr
      trivial
    · rw [settle_eq hr]
      refine (persist_within config job _).mono (add_le_add_right ?_ _)
      split
      · exact le_refl _
      · exact zero_le
  refine ((waitFor_within (Reviewer.run_within reviewer job)).andThen hsettle).mono fun kind => ?_
  cases kind <;> simp [times, turnBudget]

/-- No turn goes over its budget, finished or cut short. -/
theorem process_spent_le {σ : Type} {sem : Sem Req Req.Resp PyError σ} {s s' : σ} {tr : ReqTrace}
    {p : Py Unit} (config : OperatorConfig) (reviewer : Reviewer) (job : Job)
    (h : Run sem (process config (Reviewer.run reviewer) job) s tr p s') :
    spent Req.price tr ≤ turnBudget reviewer.pipeline.maxChunks :=
  (process_within config reviewer job).spent_le h

end Worker

end Worker

end VidiPr
