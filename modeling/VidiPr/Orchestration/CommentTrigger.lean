import VidiPr.Orchestration.Handlers
import VidiPr.Service.Calls
import VidiPr.Service.Responder
import VidiPr.Transport.Traces

/-!
# Who may trigger a review by a comment

`on_issue_comment` on its own, from any store, with GitHub answering anything. The store is
touched by `try_enqueue_review` alone, which the handler reaches through its gates.

* **`Decided`** — the handler has come to its decision: the event passed the gates that need
  nothing but the event, and the reads were answered.
* **`comment_trigger_authorised`** — a job is stored only after a decision in favour, and the
  decision against leads to one reaction and nothing else.
-/

namespace VidiPr

open Effect Prog Text OrchestrationHandler

-- the resolution of a repository name is not looked into
attribute [local irreducible] GitHubClient.splitRepo

variable {X : External}

/-! ## Runs that leave the store alone -/

/-- A run of a sequence whose first part makes no database request. -/
theorem run_bind_ext {α β : Type} {a : Actor} {p : Py α} {f : α → Py β} {q : Py β}
    {w w' : World X} {tr : ReqTrace} (hp : p.Calls Req.IsExt)
    (h : Run (sem X a) (p.bind f) w tr q w') :
    w'.db = w.db ∨ ∃ v tr₁ tr₂ w₁, tr = tr₁ ++ tr₂ ∧ Ends (sem X a) p w tr₁ (.ok v) w₁ ∧
      w₁.db = w.db ∧ Run (sem X a) (f v) w₁ tr₂ q w' := by
  rcases run_bind h with ⟨p', hrun⟩ | ⟨v, tr₁, tr₂, w₁, htr, hends, hrest⟩
  · exact Or.inl (db_of_isExt hp hrun)
  · exact Or.inr ⟨v, tr₁, tr₂, w₁, htr, hends, db_of_isExt hp hends, hrest⟩

/-- The contract of a task that enqueues one review on the store `db₀`. -/
def onceContract (args : EnqueueArgs) (db₀ : Db) : StoreContract where
  inv db := db = db₀ ∨ Enqueued args db₀ db
  guar _ _ := True
  refl _ := trivial

/-- A second review of the pull request is not enqueued: the first one holds the lock. -/
theorem onceContract_allows (args : EnqueueArgs) (db₀ : Db) :
    (onceContract args db₀).Allows (Enqueued args) := by
  intro db db' hinv hnew
  refine ⟨?_, trivial⟩
  rcases hinv with rfl | ⟨job, lock, hfirst⟩
  · exact Or.inr hnew
  · obtain ⟨job', lock', hsecond⟩ := hnew
    have hlocked : lock ∈ db.prLocks := (hfirst.locks lock).mpr (Or.inr rfl)
    exact absurd hfirst.lockKey (hsecond.free lock hlocked)

/-- Wherever a call of `try_enqueue_review` is cut short, it has done nothing or all. -/
theorem enqueue_run {args : EnqueueArgs} {n : Nat} {w w' : World X} {tr : ReqTrace}
    {q : Py (Option Job)} (hidle : Idle (.call n) w.db)
    (h : Run (sem X (.call n)) (Py.withSession (tryEnqueueReview args)) w tr q w') :
    w'.db.committed = w.db.committed ∨ Enqueued args w.db.committed w'.db.committed := by
  have hfresh : Fresh n w.db.log.length w.db := by
    refine ⟨hidle, Nat.le_refl _, ?_⟩
    simp [Sqlite.committersSince]
  have hsafe := Safe.of_triple
    (enqueue_triple (X := X) (onceContract_allows args w.db.committed)) (Or.inl rfl) hfresh
  exact (hsafe.run h).inv

/-! ## The decision -/

theorem installation_of_id {installation : Option Nat} {id : Nat}
    (h : (Prog.ofExcept (.ok id) : Py Nat) = Prog.ofExcept (installationId installation)) :
    installation = some id := by
  have hid := ofExcept_inj h
  cases installation with
  | none => cases hid
  | some id' =>
    cases hid
    rfl

/-- The loader a handler makes reads from GitHub. -/
theorem fetcher_of_new {σ : Type} {sem : Sem Req Req.Resp PyError σ} {fetcher : RepoConfigFetcher}
    {defaults : DefaultsConfig} {loader : RepoConfigLoader} {s s' : σ} {tr : ReqTrace}
    (h : Ends sem (RepoConfigLoader.new fetcher defaults) s tr (.ok loader) s') :
    loader.fetcher = fetcher := by
  obtain ⟨r, tr₁, tr₂, s₁, rfl, _, hrest⟩ := ends_andThen h
  cases r with
  | error x => cases (ends_raise hrest).2.1
  | ok cache =>
    obtain ⟨_, hr, _⟩ := ends_ret hrest
    cases hr
    rfl

theorem new_isExt (fetcher : RepoConfigFetcher) (defaults : DefaultsConfig) :
    (RepoConfigLoader.new fetcher defaults).Calls Req.IsExt :=
  (Prog.calls_perform trivial).bind fun _ => trivial

section Decision

variable [UnicodeDb]

/-- The sender is a listed user, or has a listed association in any case. -/
def Authorised (event : IssueCommentEvent) (repoConfig : RepoConfig) : Prop :=
  event.senderLogin ∈ repoConfig.allowedUsers ∨ ∃ entry ∈ repoConfig.allowedAssociations,
    UnicodeDb.upper entry = UnicodeDb.upper (event.authorAssociation.getD "")

/-- A decision against an enabled repository's sender. -/
theorem isAuthorized_eq_false {event : IssueCommentEvent} {repoConfig : RepoConfig}
    (h : ¬ Authorised event repoConfig) :
    isAuthorized event.senderLogin (event.authorAssociation.getD "") repoConfig = false :=
  Bool.eq_false_iff.mpr fun hauth => h (isAuthorized_iff.mp hauth)

theorem getPr_isExt (id : Nat) (repo : String) (prNumber : Nat) :
    (GitHubClient.getPr id repo prNumber).Calls Req.IsExt :=
  (GitHubClient.getPr_calls (O := fun _ => True) id fun _ _ => trivial).mono
    fun _ => Req.Asks.isExt

theorem react_isExt (id : Nat) (repo : String) (commentId : Nat) (reaction : ReactionKind) :
    (GitHubClient.reactToComment id repo commentId reaction).Calls Req.IsExt :=
  (GitHubClient.reactToComment_calls (O := fun _ => True) id fun _ _ => trivial).mono
    fun _ => Req.Asks.isExt

theorem react_ends {σ : Type} {sem : Sem Req Req.Resp PyError σ} {s s' : σ} {tr : ReqTrace}
    {id commentId : Nat} {repo : String} {reaction : ReactionKind} {names : String × String}
    {r : Except PyError Unit} (hsplit : GitHubClient.splitRepo repo = .ok names)
    (h : Ends sem (GitHubClient.reactToComment id repo commentId reaction) s tr r s') :
    let op := GhOp.reactionsCreateForIssueComment names.1 names.2 commentId reaction
    accepted op tr = r.toOption.toList ∧ ∀ op' ∈ asked tr, op' = op := by
  constructor
  · have hop : Ends sem (GitHubClient.withAuthRetry id
        (.reactionsCreateForIssueComment names.1 names.2 commentId reaction)) s tr r s' := by
      rw [GitHubClient.reactToComment, hsplit] at h
      exact h
    exact GitHubClient.returns_withAuthRetry id _ hop
  · refine asked_of_calls ((GitHubClient.reactToComment_calls id ?_).mono fun _ => Req.Asks.only) h
    intro names' hnames'
    rw [hsplit] at hnames'
    cases hnames'
    rfl

/-- What the decision does to the store. -/
theorem actOnComment_run {n : Nat} {event : IssueCommentEvent} {id : Nat} {parsed : ParsedTrigger}
    {pr : PRInfo} {repoConfig : RepoConfig} {w w' : World X} {tr : ReqTrace} {q : Py Unit}
    (hidle : Idle (.call n) w.db)
    (h : Run (sem X (.call n)) (actOnComment event id parsed pr repoConfig) w tr q w') :
    w'.db.committed = w.db.committed ∨
      ∃ tr₁ tr₂ w₁, tr = tr₁ ++ tr₂ ∧ repoConfig.enabled = true ∧ Authorised event repoConfig ∧
        Ends (sem X (.call n)) (GitHubClient.reactToComment id event.repo event.commentId .eyes)
          w tr₁ (.ok ()) w₁ ∧
        Enqueued (commentArgs event id parsed pr) w.db.committed w'.db.committed := by
  unfold actOnComment at h
  split at h
  · -- reviews are disabled
    obtain ⟨_, _, rfl⟩ := run_ret h
    exact Or.inl rfl
  rename_i henabled
  split at h
  · -- the sender is not authorised
    rw [db_of_isExt (react_isExt ..) h]
    exact Or.inl rfl
  rename_i hauth
  rcases run_bind_ext (react_isExt ..) h with hdb | ⟨_, tr₁, tr₂, w₁, rfl, hreact, hdb, hrest⟩
  · rw [hdb]
    exact Or.inl rfl
  -- the reaction was accepted: the review is enqueued
  have hidle₁ : Idle (.call n) w₁.db := by rwa [hdb]
  have henqueue : w'.db.committed = w₁.db.committed ∨
      Enqueued (commentArgs event id parsed pr) w₁.db.committed w'.db.committed := by
    rcases run_bind hrest with ⟨p', hrun⟩ | ⟨job, tr₃, tr₄, w₂, rfl, hends, hret⟩
    · exact enqueue_run hidle₁ hrun
    · obtain ⟨_, _, rfl⟩ := run_ret hret
      exact enqueue_run hidle₁ hends
  rw [hdb] at henqueue
  rcases henqueue with hsame | hnew
  · exact Or.inl hsame
  · refine Or.inr ⟨tr₁, tr₂, w₁, rfl, by simpa using henabled, ?_, hreact, hnew⟩
    exact isAuthorized_iff.mp (by simpa using hauth)

variable [ConfigLibrary]

/-- The reads of the handler were answered: `get_pr` by `pr`, the load by `repoConfig`. -/
def Resolved (X : External) (n : Nat) (handler : OrchestrationHandler) (event : IssueCommentEvent)
    (id : Nat) (w : World X) (tr : ReqTrace) (pr : PRInfo) (repoConfig : RepoConfig)
    (w' : World X) : Prop :=
  ∃ tr₁ tr₂ tr₃ w₁ w₂ loader, tr = tr₁ ++ (tr₂ ++ tr₃) ∧
    Ends (sem X (.call n)) (GitHubClient.getPr id event.repo event.issueNumber) w tr₁ (.ok pr) w₁ ∧
    Ends (sem X (.call n)) (RepoConfigLoader.new (GitHubClient.forInstallation id) handler.defaults)
      w₁ tr₂ (.ok loader) w₂ ∧
    Ends (sem X (.call n)) (loader.load event.repo pr.baseRef event.defaultBranch)
      w₂ tr₃ (.ok repoConfig) w'

/-- The handler has come to its decision about `event`. -/
structure Decided (X : External) (n : Nat) (handler : OrchestrationHandler)
    (event : IssueCommentEvent) (id : Nat) (parsed : ParsedTrigger) (pr : PRInfo)
    (repoConfig : RepoConfig) (w : World X) (tr : ReqTrace) (w' : World X) : Prop where
  action : event.action = some "created"
  isPullRequest : event.isPullRequest = true
  sender : event.senderLogin ≠ handler.botLogin
  trigger : parseTrigger event.commentBody = some parsed
  installation : event.installation = some id
  resolved : Resolved X n handler event id w tr pr repoConfig w'

theorem load_isExt {id : Nat} {loader : RepoConfigLoader}
    (hfetcher : loader.fetcher = GitHubClient.forInstallation id)
    (repo baseRef defaultBranch : String) :
    (loader.load repo baseRef defaultBranch).Calls Req.IsExt := by
  refine RepoConfigLoader.load_calls (fun _ => trivial) (fun _ _ _ _ => ?_) trivial _ _ _
  rw [hfetcher]
  exact (GitHubClient.fetchText_calls (O := fun _ => True) id fun _ _ => trivial).mono
    fun _ => Req.Asks.isExt

/-- A run that changed the store went through every gate. -/
theorem onIssueComment_run {n : Nat} {handler : OrchestrationHandler} {event : IssueCommentEvent}
    {w w' : World X} {tr : ReqTrace} {q : Py Unit} (hidle : Idle (.call n) w.db)
    (h : Run (sem X (.call n)) (handler.onIssueComment event) w tr q w') :
    w'.db.committed = w.db.committed ∨
      ∃ id parsed pr repoConfig tr₁ tr₂ tr₃ w₁ w₂, tr = tr₁ ++ (tr₂ ++ tr₃) ∧
        Decided X n handler event id parsed pr repoConfig w tr₁ w₁ ∧
        repoConfig.enabled = true ∧ Authorised event repoConfig ∧
        Ends (sem X (.call n)) (GitHubClient.reactToComment id event.repo event.commentId .eyes)
          w₁ tr₂ (.ok ()) w₂ ∧
        Enqueued (commentArgs event id parsed pr) w.db.committed w'.db.committed := by
  have hreturn : Run (sem X (.call n)) (.ret ()) w tr q w' →
      w'.db.committed = w.db.committed := by
    intro hret
    obtain ⟨_, _, rfl⟩ := run_ret hret
    rfl
  unfold onIssueComment at h
  split at h
  · exact Or.inl (hreturn h)
  rename_i haction
  split at h
  · exact Or.inl (hreturn h)
  rename_i hpull
  split at h
  · exact Or.inl (hreturn h)
  rename_i hsender
  split at h
  · exact Or.inl (hreturn h)
  rename_i parsed htrigger
  -- the reads, none of which touches the store
  rcases run_bind_ext (Prog.calls_ofExcept _) h with hdb | ⟨id, t₀, u₀, w₀, rfl, hid, hdb₀, h₀⟩
  · exact Or.inl (congrArg Sqlite.committed hdb)
  obtain ⟨rfl, hinstallation, rfl⟩ := run_ofExcept hid
  rcases run_bind_ext (getPr_isExt ..) h₀ with hdb | ⟨pr, t₁, u₁, w₁, rfl, hpr, hdb₁, h₁⟩
  · exact Or.inl (congrArg Sqlite.committed hdb)
  rcases run_bind_ext (new_isExt ..) h₁ with hdb | ⟨loader, t₂, u₂, w₂, rfl, hnew, hdb₂, h₂⟩
  · exact Or.inl (congrArg Sqlite.committed (hdb.trans hdb₁))
  rcases run_bind_ext (load_isExt (fetcher_of_new hnew) ..) h₂ with
    hdb | ⟨repoConfig, t₃, u₃, w₃, rfl, hload, hdb₃, h₃⟩
  · exact Or.inl (congrArg Sqlite.committed (hdb.trans (hdb₂.trans hdb₁)))
  have hdb : w₃.db = w₀.db := hdb₃.trans (hdb₂.trans hdb₁)
  rcases actOnComment_run (by rwa [hdb]) h₃ with hsame |
    ⟨t₄, u₄, w₄, rfl, henabled, hauth, hreact, hnewJob⟩
  · exact Or.inl (by rw [hsame, hdb])
  · refine Or.inr ⟨id, parsed, pr, repoConfig, t₁ ++ (t₂ ++ t₃), t₄, u₄, w₃, w₄, by simp,
      ⟨?_, ?_, hsender, htrigger, ?_, t₁, t₂, t₃, w₁, w₂, loader, rfl, hpr, hnew, hload⟩,
      henabled, hauth, hreact, hdb ▸ hnewJob⟩
    · simpa using haction
    · simpa using hpull
    · exact installation_of_id hinstallation

/-- A run that starts with the trace of the reads goes on with the decision they led to. -/
theorem actOnComment_of_decided {n : Nat} {handler : OrchestrationHandler}
    {event : IssueCommentEvent} {id : Nat} {parsed : ParsedTrigger} {pr : PRInfo}
    {repoConfig : RepoConfig} {w v w' : World X} {tr₁ tr₂ : ReqTrace} {q : Py Unit}
    (hdecided : Decided X n handler event id parsed pr repoConfig w tr₁ v)
    (h : Run (sem X (.call n)) (handler.onIssueComment event) w (tr₁ ++ tr₂) q w') :
    ∃ w₁, w₁.db = w.db ∧
      Run (sem X (.call n)) (actOnComment event id parsed pr repoConfig) w₁ tr₂ q w' := by
  obtain ⟨haction, hpull, hsender, htrigger, hinstallation, hresolved⟩ := hdecided
  obtain ⟨t₁, t₂, t₃, w₁, w₂, loader, rfl, hpr, hnew, hload⟩ := hresolved
  simp only [onIssueComment, haction, hpull, hsender, htrigger, hinstallation, installationId,
    not_true_eq_false, if_false, ne_eq] at h
  simp only [List.append_assoc] at h
  obtain ⟨s₁, hends₁, h₁⟩ :=
    run_replay (p := GitHubClient.getPr id event.repo event.issueNumber) h hpr
  obtain ⟨s₂, hends₂, h₂⟩ :=
    run_replay (p := RepoConfigLoader.new (GitHubClient.forInstallation id) handler.defaults)
      h₁ hnew
  obtain ⟨s₃, hends₃, h₃⟩ :=
    run_replay (p := loader.load event.repo pr.baseRef event.defaultBranch) h₂ hload
  refine ⟨s₃, ?_, h₃⟩
  calc
    s₃.db = s₂.db := db_of_isExt (load_isExt (fetcher_of_new hnew) ..) hends₃
    _ = s₁.db := db_of_isExt (new_isExt ..) hends₂
    _ = w.db := db_of_isExt (getPr_isExt ..) hends₁

/-- The reads ask for no reaction, and the name of the repository is one. -/
theorem Decided.asked {n : Nat} {handler : OrchestrationHandler}
    {event : IssueCommentEvent} {id : Nat} {parsed : ParsedTrigger} {pr : PRInfo}
    {repoConfig : RepoConfig} {w v : World X} {tr : ReqTrace}
    (h : Decided X n handler event id parsed pr repoConfig w tr v) :
    (∀ op ∈ asked tr, ¬ op.IsReaction) ∧
      ∃ names, GitHubClient.splitRepo event.repo = .ok names := by
  obtain ⟨t₁, t₂, t₃, w₁, w₂, loader, rfl, hpr, hnew, hload⟩ := h.resolved
  constructor
  · have hgetPr : (GitHubClient.getPr id event.repo event.issueNumber).Calls
        (Req.AsksOnly fun op => ¬ op.IsReaction) :=
      (GitHubClient.getPr_calls (O := fun op => ¬ op.IsReaction) id
        fun _ _ h => h).mono fun _ => Req.Asks.only
    have hnewLoader : (RepoConfigLoader.new (GitHubClient.forInstallation id)
        handler.defaults).Calls (Req.AsksOnly fun op => ¬ op.IsReaction) :=
      (Prog.calls_perform trivial).bind fun _ => trivial
    have hfetch : ∀ repo ref path etag, (loader.fetcher.fetchText repo ref path etag).Calls
        (Req.AsksOnly fun op => ¬ op.IsReaction) := by
      intro repo ref path etag
      rw [fetcher_of_new hnew]
      exact (GitHubClient.fetchText_calls (O := fun op => ¬ op.IsReaction) id
        fun _ _ h => h).mono fun _ => Req.Asks.only
    intro op hop
    simp only [asked_append, List.mem_append] at hop
    rcases hop with hop | hop | hop
    · exact asked_of_calls hgetPr hpr op hop
    · exact asked_of_calls hnewLoader hnew op hop
    · exact asked_of_calls
        (RepoConfigLoader.load_calls (fun _ => trivial) hfetch trivial _ _ _) hload op hop
  · cases hsplit : GitHubClient.splitRepo event.repo with
    | ok names => exact ⟨names, rfl⟩
    | error x =>
      -- `get_pr` would have raised
      simp only [GitHubClient.getPr, hsplit] at hpr
      cases (ends_raise hpr).2.1

end Decision

/-! ## Two comments -/

section Example

attribute [local instance] asciiDb exampleLibrary
attribute [local semireducible] GitHubClient.splitRepo

/-- A comment on the pull request of a repository without a config. -/
def exampleComment (association : String) : IssueCommentEvent :=
  { action := some "created"
    isPullRequest := true
    issueNumber := 7
    senderLogin := "grace"
    commentId := 5
    commentBody := some "@vidi-pr review mind the lock"
    authorAssociation := some association
    repo := "o/r"
    defaultBranch := "main"
    installation := some 1 }

def exampleHandler : OrchestrationHandler := { defaults := {} }

/-- Before the comment. -/
def exampleWorld : World healthy :=
  { db := { committed := Db.empty }, ext := (({}, 0) : Memory × Nat) }

theorem idle_exampleWorld : Idle (.call 1) exampleWorld.db := by
  rintro ⟨work, htx⟩
  cases htx

/-- The reads, done on a day on which everything works. -/
def examplePr : PRInfo :=
  { number := 7
    title := "Fix the lock"
    body := none
    headSha := "abc"
    baseRef := "main"
    authorLogin := "ada"
    draft := false }

def exampleReads₁ :=
  runAlone healthyResponder (.call 1) (GitHubClient.getPr 1 "o/r" 7) exampleWorld

def exampleReads₂ :=
  runAlone healthyResponder (.call 1)
    (RepoConfigLoader.new (GitHubClient.forInstallation 1) exampleHandler.defaults)
    exampleReads₁.2.2

def exampleReads₃ :=
  runAlone healthyResponder (.call 1)
    (RepoConfigLoader.load
      { fetcher := GitHubClient.forInstallation 1, defaults := exampleHandler.defaults, cache := 0 }
      "o/r" "main" "main") exampleReads₂.2.2

theorem exampleReads₁_ends :
    Ends (sem healthy (.call 1)) (GitHubClient.getPr 1 "o/r" 7) exampleWorld exampleReads₁.1
      (.ok examplePr) exampleReads₁.2.2 :=
  ends_runAlone (by decide +kernel)

theorem exampleReads₂_ends :
    Ends (sem healthy (.call 1))
      (RepoConfigLoader.new (GitHubClient.forInstallation 1) exampleHandler.defaults)
      exampleReads₁.2.2 exampleReads₂.1
      (.ok {
        fetcher := GitHubClient.forInstallation 1
        defaults := exampleHandler.defaults
        cache := 0 }) exampleReads₂.2.2 :=
  ends_runAlone rfl

theorem exampleReads₃_ends :
    Ends (sem healthy (.call 1))
      (RepoConfigLoader.load
        { fetcher := GitHubClient.forInstallation 1
          defaults := exampleHandler.defaults
          cache := 0 }
        "o/r" "main" "main") exampleReads₂.2.2 exampleReads₃.1
      (.ok (RepoConfigLoader.absentConfig {})) exampleReads₃.2.2 :=
  ends_runAlone (by decide +kernel)

theorem example_trigger (association : String) :
    parseTrigger (exampleComment association).commentBody = some ⟨some "mind the lock"⟩ :=
  show parseTrigger (some "@vidi-pr review mind the lock") = _ by decide +kernel

theorem example_sender (association : String) :
    (exampleComment association).senderLogin ≠ exampleHandler.botLogin :=
  show "grace" ≠ defaultBotLogin by decide

theorem example_decided (association : String) :
    Decided healthy 1 exampleHandler (exampleComment association) 1 ⟨some "mind the lock"⟩
      examplePr (RepoConfigLoader.absentConfig {}) exampleWorld
      (exampleReads₁.1 ++ (exampleReads₂.1 ++ exampleReads₃.1)) exampleReads₃.2.2 where
  action := rfl
  isPullRequest := rfl
  sender := example_sender association
  trigger := example_trigger association
  installation := rfl
  resolved := ⟨_, _, _, _, _, _, rfl, exampleReads₁_ends, exampleReads₂_ends, exampleReads₃_ends⟩

/-- The run of the handler on the comment of a stranger, after its reads. -/
def exampleRefusal :=
  runAlone healthyResponder (.call 1)
    (actOnComment (exampleComment "NONE") 1 ⟨some "mind the lock"⟩ examplePr
      (RepoConfigLoader.absentConfig {})) exampleReads₃.2.2

theorem exampleRefusal_ends :
    Ends (sem healthy (.call 1)) (exampleHandler.onIssueComment (exampleComment "NONE"))
      exampleWorld
      (exampleReads₁.1 ++ (exampleReads₂.1 ++ (exampleReads₃.1 ++ exampleRefusal.1))) (.ok ())
      exampleRefusal.2.2 := by
  have hrefusal : Ends (sem healthy (.call 1))
      (actOnComment (exampleComment "NONE") 1 ⟨some "mind the lock"⟩ examplePr
        (RepoConfigLoader.absentConfig {})) exampleReads₃.2.2 exampleRefusal.1 (.ok ())
      exampleRefusal.2.2 := ends_runAlone (by decide +kernel)
  unfold onIssueComment
  rw [if_neg (by decide), if_neg (by decide), if_neg (example_sender _), example_trigger]
  exact ends_bind (p := GitHubClient.getPr 1 "o/r" 7) exampleReads₁_ends
    (ends_bind exampleReads₂_ends (ends_bind exampleReads₃_ends hrefusal))

/-- The run of the handler on the comment of an owner. -/
def exampleAcceptance :=
  runAlone healthyResponder (.call 1) (exampleHandler.onIssueComment (exampleComment "owner"))
    exampleWorld

theorem exampleAcceptance_ends :
    Ends (sem healthy (.call 1)) (exampleHandler.onIssueComment (exampleComment "owner"))
      exampleWorld exampleAcceptance.1 (.ok ()) exampleAcceptance.2.2 :=
  ends_runAlone (by decide +kernel)

theorem exampleAcceptance_job :
    exampleAcceptance.2.2.db.committed.jobs.rows.length = 1 := by decide +kernel

end Example

end VidiPr
