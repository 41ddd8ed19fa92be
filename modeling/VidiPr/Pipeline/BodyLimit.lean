import VidiPr.Pipeline.Coverage
import VidiPr.Pipeline.Failures

/-!
# The length of posted bodies

GitHub takes no body of more than 65536 characters. A job posts on three paths: the review, which
`_truncate` cuts; the message of `_failure_from`, which takes 200 characters of the exception; and
the message of `_process` for an exception that escaped the reviewer, which takes them all.

* **`length_truncate_le`**, **`run_message`** — the first two.
* **`posted_bodies_fit`** — over the runs of `_process`: the third is the exception's own length.
-/

namespace VidiPr

open Effect Prog Text

-- the resolution of a repository name is not looked into
attribute [local irreducible] GitHubClient.splitRepo

/-! ## Bodies -/

/-- The body a githubkit call posts. -/
def GhOp.postedBody : GhOp → Option String
  | .pullsCreateReview _ _ _ body => some body
  | .issuesCreateComment _ _ _ body => some body
  | _ => none

/-- The body a request posts. -/
def Req.postedBody : Req → Option String
  | .ext (.github _ op) => op.postedBody
  | _ => none

/-- A request that posts nothing. -/
def Req.NoBody (e : Req) : Prop := e.postedBody = none

/-- A call that posts `body` or nothing. -/
def GhOp.PostsOnly (body : String) (op : GhOp) : Prop :=
  ∀ posted, op.postedBody = some posted → posted = body

/-- A request that posts `body` or nothing. -/
def Req.PostsOnly (body : String) (e : Req) : Prop :=
  ∀ posted, e.postedBody = some posted → posted = body

/-- No body of the run is longer than GitHub takes. -/
def BodiesFit (tr : ReqTrace) : Prop :=
  ∀ c ∈ tr, ∀ body, c.1.postedBody = some body → body.length ≤ maxReviewBody

/-- The run posts something. -/
def PostsBody (tr : ReqTrace) : Prop := ∃ c ∈ tr, ¬ c.1.NoBody

theorem bodiesFit_append {tr tr' : ReqTrace} :
    BodiesFit (tr ++ tr') ↔ BodiesFit tr ∧ BodiesFit tr' :=
  List.forall_mem_append

theorem length_truncate_le (body : String) : (truncate body).length ≤ maxReviewBody := by
  unfold truncate
  split
  · assumption
  · rw [String.length_append, String.length_ofList, List.length_take]
    have hnote : truncationNote.length ≤ maxReviewBody := by decide
    omega

theorem Req.Reads.no_body {e : Req} (h : e.Reads) : e.NoBody := by
  cases e with
  | sql q => rfl
  | ext e =>
    cases e with
    | github client op => cases op <;> first | rfl | exact h.elim
    | _ => rfl

theorem Req.IsChat.no_body {e : Req} (h : e.IsChat) : e.NoBody := by
  cases e with
  | sql q => rfl
  | ext e =>
    cases e with
    | github client op => exact h.elim
    | _ => rfl

theorem bodiesFit_of_none {tr : ReqTrace} (h : ∀ c ∈ tr, c.1.NoBody) : BodiesFit tr := by
  intro c hc body hbody
  rw [show c.1.postedBody = none from h c hc] at hbody
  cases hbody

/-- A run that posts one body. -/
theorem bodiesFit_of_only {tr : ReqTrace} {body : String} (h : ∀ c ∈ tr, c.1.PostsOnly body)
    (hbody : body.length ≤ maxReviewBody) : BodiesFit tr := by
  intro c hc posted hposted
  rw [h c hc posted hposted]
  exact hbody

/-! ## The review -/

section Review

variable [UnicodeDb] [ConfigLibrary] [PromptFiles] (reviewer : Reviewer) (job : Job)

/-- `prepare` posts nothing: it reads from GitHub, asks the model and takes the time. So whatever a
review posts, it posts after its body has been cut. -/
theorem prepare_no_body (skipDraftCheck : Bool) :
    (Reviewer.prepare reviewer job skipDraftCheck).Calls Req.NoBody := by
  have hclock : (Py.perfCounter).Calls Req.NoBody := calls_perform rfl
  have hearly : ∀ started detail, (Reviewer.endEarly started detail).Calls Req.NoBody :=
    fun started detail => hclock.bind fun now => trivial
  rw [Reviewer.prepare_eq]
  refine ((Reviewer.gather_calls reviewer job skipDraftCheck).mono fun _ h => h.no_body).bind
    fun gathered => ?_
  -- a draft ends early, and so does a pull request without a chunk
  cases gathered with
  | draft started => exact hearly _ _
  | content started repoConfig content =>
    show (Reviewer.reviewContent reviewer job started repoConfig content).Calls Req.NoBody
    unfold Reviewer.reviewContent
    dsimp only
    split
    · exact hearly _ _
    split
    · exact hearly _ _
    refine ((Reviewer.askModel_calls reviewer job content repoConfig _).mono
      fun _ h => h.no_body).andThen fun r => ?_
    cases r with
    | ok answer => exact hclock.bind fun now => trivial
    | error x =>
      dsimp only
      split
      · have hfailure : (Reviewer.failureFrom x started .llmFailure).Calls Req.NoBody :=
          hclock.bind fun now => trivial
        exact hfailure.bind fun result => trivial
      · trivial

omit [UnicodeDb] [ConfigLibrary] [PromptFiles] in
/-- What a call of the client posts. -/
theorem Req.Asks.postsOnly {body : String} {e : Req}
    (h : e.Asks (GhOp.PostsOnly body)) : e.PostsOnly body := by
  intro posted hposted
  cases e with
  | sql q => cases hposted
  | ext e =>
    cases e with
    | github client op => exact h posted hposted
    | _ => cases hposted

omit [ConfigLibrary] [PromptFiles] in
/-- Every attempt posts the same body. -/
theorem postWithRetry_body (body : String) :
    (Reviewer.postWithRetry job body).Calls (Req.PostsOnly body) := by
  have hcreate : (GitHubClient.createReview job.installationId job.repo job.prNumber body).Calls
      (Req.PostsOnly body) :=
    (GitHubClient.createReview_calls (O := GhOp.PostsOnly body) _ fun names hnames posted hposted =>
      (Option.some.inj hposted).symm).mono fun _ h => h.postsOnly
  have hattempts : ∀ retries,
      (Reviewer.postAttempts job body retries).Calls (Req.PostsOnly body) := by
    intro retries
    induction retries with
    | zero => exact hcreate
    | succ retries ih =>
      refine hcreate.tryCatch fun x => ?_
      split
      · exact (calls_perform nofun).bind fun _ => ih
      · trivial
  exact hattempts 2

variable {σ : Type} {sem : Sem Req Req.Resp PyError σ} {s s' : σ} {tr : ReqTrace}

/-- What a review posts is cut. -/
theorem run_bodies {r : Except PyError ReviewResult}
    (h : Ends sem (Reviewer.run reviewer job) s tr r s') : BodiesFit tr := by
  rw [Reviewer.run_eq] at h
  obtain ⟨r₁, tr₁, tr₂, s₁, rfl, hprepare, hpost⟩ := ends_andThen h
  have hfirst : BodiesFit tr₁ :=
    bodiesFit_of_none ((prepare_no_body reviewer job false).run hprepare).1
  refine bodiesFit_append.mpr ⟨hfirst, ?_⟩
  cases r₁ with
  | error x =>
    obtain ⟨rfl, -, -⟩ := ends_raise hpost
    exact bodiesFit_of_none (by simp)
  | ok rendered =>
    cases rendered with
    -- no body: an early result is returned as it is
    | early result =>
      obtain ⟨rfl, -, -⟩ := ends_ret hpost
      exact bodiesFit_of_none (by simp)
    -- the body was cut when it was rendered, and is posted as it is
    | ready prepared =>
      obtain ⟨started, repoConfig, content, trRead, trAsk, s₂, -, -, -, hbody⟩ :=
        prepare_sends hprepare
      have hlength : prepared.body.length ≤ maxReviewBody := by
        rw [hbody]
        exact length_truncate_le _
      obtain ⟨r₂, tr₃, tr₄, s₃, rfl, hattempts, hconclude⟩ := ends_andThen hpost
      have hnothing : (Reviewer.conclude prepared r₂).Calls Req.NoBody := by
        unfold Reviewer.conclude
        repeat' split
        all_goals trivial
      exact bodiesFit_append.mpr
        ⟨bodiesFit_of_only ((postWithRetry_body job prepared.body).run hattempts).1 hlength,
          bodiesFit_of_none (hnothing.run hconclude).1⟩

end Review

/-! ## The failure comment -/

/-- What the messages of a failed review begin with. -/
def failurePrefix : String := "vidi-pr could not complete the review: "

/-- The message of `_failure_from` is short. -/
theorem failureFrom_message {exc : PyError} {started : Nat} {σ : Type}
    {sem : Sem Req Req.Resp PyError σ} {s s' : σ} {tr : ReqTrace} {result : ReviewResult}
    (h : Ends sem (Reviewer.failureFrom exc started .llmFailure) s tr (.ok result) s') :
    ∀ message, result.failureMessage = some message → message.length ≤ maxReviewBody := by
  obtain ⟨r₁, tr₁, tr₂, s₁, rfl, -, hret⟩ := ends_andThen h
  cases r₁ with
  | error x => cases (ends_raise hret).2.1
  | ok now =>
    obtain ⟨-, hresult, -⟩ := ends_ret hret
    cases hresult
    intro message hmessage
    obtain rfl := Option.some.inj hmessage
    have hprefix : ("vidi-pr could not complete the review: " ++
        JobStatusDetail.llmFailure.value ++ " (").length + 201 ≤ maxReviewBody := by decide
    rw [String.length_append, String.length_append _ (String.ofList _), String.length_ofList,
      List.length_take]
    have hclose : (")" : String).length = 1 := rfl
    omega

section Process

variable [UnicodeDb] [ConfigLibrary] [PromptFiles] {reviewer : Reviewer} {job : Job} {σ : Type}
  {sem : Sem Req Req.Resp PyError σ} {s s' : σ} {tr : ReqTrace} {config : OperatorConfig}

/-- An early result has a message only if the model failed. Every other early end is one for which
nobody is to be told: a draft, no files, nothing to review. -/
theorem prepare_message {skipDraftCheck : Bool} {result : ReviewResult}
    (h : Ends sem (Reviewer.prepare reviewer job skipDraftCheck) s tr (.ok (.early result)) s') :
    ∀ message, result.failureMessage = some message → message.length ≤ maxReviewBody := by
  have hearly : ∀ {started detail s₁ tr}, Ends sem (Reviewer.endEarly started detail) s₁ tr
      (.ok (.early result)) s' → result.failureMessage = none := by
    intro started detail s₁ tr hend
    obtain ⟨r₁, tr₁, tr₂, s₂, rfl, -, hret⟩ := ends_andThen hend
    cases r₁ with
    | error x => cases (ends_raise hret).2.1
    | ok now =>
      obtain ⟨-, hresult, -⟩ := ends_ret hret
      cases hresult
      rfl
  have hnone : result.failureMessage = none →
      ∀ message, result.failureMessage = some message → message.length ≤ maxReviewBody := by
    intro hnone message hmessage
    rw [hnone] at hmessage
    cases hmessage
  rw [Reviewer.prepare_eq] at h
  obtain ⟨gathered, tr₁, tr₂, s₁, rfl, -, hreview⟩ := ends_bind_ok h
  cases gathered with
  | draft started => exact hnone (hearly hreview)
  | content started repoConfig content =>
    change Ends sem (Reviewer.reviewContent reviewer job started repoConfig content) s₁ tr₂ _ s'
      at hreview
    unfold Reviewer.reviewContent at hreview
    dsimp only at hreview
    split at hreview
    · exact hnone (hearly hreview)
    split at hreview
    · exact hnone (hearly hreview)
    obtain ⟨r₁, tr₃, tr₄, s₂, rfl, -, hrest⟩ := ends_andThen hreview
    cases r₁ with
    -- the model answered, so there is no early result
    | ok answer =>
      obtain ⟨r₂, tr₅, tr₆, s₃, rfl, -, hret⟩ := ends_andThen hrest
      cases r₂ with
      | error x => cases (ends_raise hret).2.1
      | ok now => cases (ends_ret hret).2.1
    | error x =>
      dsimp only at hrest
      split at hrest
      · -- the model failed; what its error says is cut to a fixed length
        obtain ⟨result', tr₅, tr₆, s₃, rfl, hfailure, hret⟩ := ends_bind_ok hrest
        obtain ⟨-, heq, -⟩ := ends_ret hret
        cases heq
        exact failureFrom_message hfailure
      · cases (ends_raise hrest).2.1

/-- The message a finished review leaves is short. -/
theorem run_message {result : ReviewResult}
    (h : Ends sem (Reviewer.run reviewer job) s tr (.ok result) s') :
    ∀ message, result.failureMessage = some message → message.length ≤ maxReviewBody := by
  rw [Reviewer.run_eq] at h
  obtain ⟨rendered, tr₁, tr₂, s₁, rfl, hprepare, hpost⟩ := ends_bind_ok h
  cases rendered with
  -- the message is that of `prepare`
  | early result' =>
    obtain ⟨-, heq, -⟩ := ends_ret hpost
    cases heq
    exact prepare_message hprepare
  -- a review that was posted, or was to be, leaves no message
  | ready prepared =>
    obtain ⟨r₁, tr₃, tr₄, s₂, rfl, -, hconclude⟩ := ends_andThen hpost
    have hnone : (Reviewer.conclude prepared r₁).Yields (fun _ _ => True) fun r =>
        ∀ result, r = .ok result → result.failureMessage = none := by
      unfold Reviewer.conclude
      repeat' split
      all_goals
        intro result heq
        cases heq
      all_goals rfl
    have hresult := (Yields.ends hnone hconclude fun _ _ _ _ _ => trivial) result rfl
    intro message hmessage
    rw [hresult] at hmessage
    cases hmessage

omit [ConfigLibrary] [PromptFiles] in
/-- Settling a job posts its message or nothing. -/
theorem persist_body (result : ReviewResult) (message : String)
    (hmessage : ∀ m, result.failureMessage = some m → m = message) :
    (Worker.persist config job result).Calls (Req.PostsOnly message) := by
  -- statements post nothing
  have hstatement : ∀ q : Sql, Req.PostsOnly message (.sql q) := fun q => nofun
  -- the transaction of the outcome
  have hsession : (Worker.persistOutcome job result).Calls (Req.PostsOnly message) := by
    rw [persistOutcome_eq]
    have hbody : ((outcomeRows job result).bind fun _ => Py.commit).Calls
        (Req.PostsOnly message) := by
      refine (outcomeRows_calls.mono fun e he => ?_).bind fun _ => calls_perform (hstatement _)
      cases e with
      | sql q => exact hstatement q
      | ext e =>
        cases e with
        | utcnow => exact nofun
        | _ => exact he.elim
    exact hbody.andThen fun r => (calls_perform (hstatement _)).bind fun _ => calls_ofExcept r
  -- and that of the cooldown
  have hslot : ∀ seconds, (Py.withSession (claimFailureSlot job.repo job.prNumber seconds)).Calls
      (Req.PostsOnly message) := by
    intro seconds
    have hclaim : (claimFailureSlot job.repo job.prNumber seconds).Calls
        (Req.PostsOnly message) := by
      refine (calls_perform nofun).bind fun now => ?_
      split
      · refine (calls_perform (hstatement _)).bind fun existing => ?_
        split
        · trivial
        · exact (calls_perform (hstatement _)).bind fun _ =>
            (calls_perform (hstatement _)).bind fun _ => trivial
      · trivial
    exact hclaim.andThen fun r => (calls_perform (hstatement _)).bind fun _ => calls_ofExcept r
  -- the comment is the message itself
  have hcomment : (GitHubClient.createComment job.installationId job.repo job.prNumber
      message).Calls (Req.PostsOnly message) :=
    (GitHubClient.createComment_calls (O := GhOp.PostsOnly message) _
      fun names hnames posted hposted => (Option.some.inj hposted).symm).mono
        fun _ h => h.postsOnly
  refine hsession.bind fun _ => ?_
  split
  · rename_i failureMessage hst hsome
    obtain rfl := hmessage failureMessage hsome
    refine Calls.bind ?_ fun _ => trivial
    refine (hslot _).bind fun allowed => ?_
    split
    · refine hcomment.andThen fun r => ?_
      cases r with
      | ok commentId => trivial
      | error x => cases x <;> trivial
    · trivial
  · trivial

omit [UnicodeDb] [ConfigLibrary] [PromptFiles] in
/-- Where one body is posted, its length counts. -/
theorem bodiesFit_iff_of_only {tr : ReqTrace} {body : String}
    (h : ∀ c ∈ tr, c.1.PostsOnly body) :
    BodiesFit tr ↔ (PostsBody tr → body.length ≤ maxReviewBody) := by
  constructor
  · rintro hfit ⟨c, hc, hposts⟩
    obtain ⟨posted, hposted⟩ := Option.ne_none_iff_exists'.mp hposts
    rw [← h c hc posted hposted]
    exact hfit c hc posted hposted
  · intro hfit c hc posted hposted
    rw [h c hc posted hposted]
    refine hfit ⟨c, hc, fun hnone => ?_⟩
    rw [show c.1.postedBody = none from hnone] at hposted
    cases hposted

theorem posted_bodies_fit {u : Except PyError Unit}
    (h : Ends sem (Worker.process config (Reviewer.run reviewer) job) s tr u s') :
    ∃ r trReview trSettle s₁, tr = trReview ++ trSettle ∧
      Ends sem (Py.waitFor (Reviewer.run reviewer job)) s trReview r s₁ ∧
      Ends sem (Worker.settle config job r) s₁ trSettle u s' ∧
      (BodiesFit tr ↔ ∀ x, r = .error x → x ≠ .timeoutError → PostsBody trSettle →
        failurePrefix.length + x.str.length ≤ maxReviewBody) := by
  obtain ⟨r, trReview, trSettle, s₁, rfl, hreview, hsettle⟩ := ends_andThen h
  refine ⟨r, trReview, trSettle, s₁, rfl, hreview, hsettle, ?_⟩
  obtain ⟨r₀, hrun, hr⟩ := ends_waitFor hreview
  rw [bodiesFit_append, and_iff_right (run_bodies reviewer job hrun)]
  rw [settle_eq (ne_cancelled_of_waitFor hreview)] at hsettle
  have honly : ∀ message, (∀ m, (recorded r).failureMessage = some m → m = message) →
      (BodiesFit trSettle ↔ (PostsBody trSettle → message.length ≤ maxReviewBody)) :=
    fun message hmessage => bodiesFit_iff_of_only
      ((persist_body (recorded r) message hmessage).run hsettle).1
  cases r with
  | ok result =>
    -- the reviewer's own message, if it left one
    obtain rfl : r₀ = .ok result := by
      cases r₀ with
      | ok result' => rw [Except.ok.inj hr]
      | error x => cases hr
    refine iff_of_true ?_ nofun
    cases hmessage : result.failureMessage with
    | none =>
      refine (honly "" fun m hm => ?_).mpr fun _ => Nat.zero_le _
      rw [show result.failureMessage = some m from hm] at hmessage
      cases hmessage
    | some message =>
      refine (honly message fun m hm => ?_).mpr fun _ => run_message hrun message hmessage
      exact Option.some.inj (hm.symm.trans hmessage)
  | error x =>
    by_cases htimeout : x = .timeoutError
    · subst htimeout
      refine iff_of_true ?_ fun x heq hx => absurd (Except.error.inj heq).symm hx
      have hfit := honly "vidi-pr could not complete the review: job timed out"
        fun m hm => (Option.some.inj hm).symm
      exact hfit.mpr fun _ => by decide
    · have hmessage : (recorded (.error x)).failureMessage = some (failurePrefix ++ x.str) := by
        cases x with
        | timeoutError => exact absurd rfl htimeout
        | _ => rfl
      rw [honly (failurePrefix ++ x.str) fun m hm => Option.some.inj (hm.symm.trans hmessage),
        String.length_append]
      constructor
      · intro hfit y heq _
        cases heq
        exact hfit
      · exact fun hfit => hfit x rfl htimeout

end Process

section Example

attribute [local instance] asciiDb exampleLibrary emptyPrompts
attribute [local semireducible] GitHubClient.splitRepo

/-- The pull request is gone, and GitHub says so at length. -/
def gonePage : Replies where
  github
    | .pullsGet .. => .error (.requestFailed { statusCode := 404, text := longAnswer })
    | op => exampleGithub (.ok (1 : Nat)) op
  chat := .ok exampleChat

theorem posted_bodies_fit_down : ∃ r trReview trSettle,
    ((Worker.process exampleOperator (Reviewer.run exampleReviewer) exampleJob).eval
        githubDown.answer ()).1 = trReview ++ trSettle ∧
      Ends githubDown.sem (Py.waitFor (Reviewer.run exampleReviewer exampleJob)) () trReview r () ∧
      (BodiesFit ((Worker.process exampleOperator (Reviewer.run exampleReviewer) exampleJob).eval
          githubDown.answer ()).1 ↔
        ∀ x, r = .error x → x ≠ .timeoutError → PostsBody trSettle →
          failurePrefix.length + x.str.length ≤ maxReviewBody) := by
  obtain ⟨r, trReview, trSettle, s₁, htr, hreview, -, hfit⟩ := posted_bodies_fit
    (githubDown.ends (Worker.process exampleOperator (Reviewer.run exampleReviewer) exampleJob))
  exact ⟨r, trReview, trSettle, htr, hreview, hfit⟩

/-- The page is posted whole. -/
theorem error_page_exceeds_limit : ∃ tr u,
    Ends gonePage.sem (Worker.process exampleOperator (Reviewer.run exampleReviewer) exampleJob) ()
      tr u () ∧ ¬ BodiesFit tr := by
  refine ⟨_, _, gonePage.ends _, fun hfit => ?_⟩
  have hlong : (failurePrefix ++ ("404: " ++ longAnswer)).length ≤ maxReviewBody :=
    hfit ⟨.ext (.github 0 (.issuesCreateComment "o" "r" 7
      (failurePrefix ++ ("404: " ++ longAnswer)))), .ok (1 : Nat)⟩
      (List.mem_of_getElem? (i := 14) rfl) _ rfl
  rw [String.length_append, String.length_append, longAnswer_chars.1] at hlong
  exact absurd hlong (by decide)

end Example

end VidiPr
