import VidiPr.Pipeline.ReviewRuns
import VidiPr.Service.Footprint
import VidiPr.Service.WorkerSpec

/-!
# Failed reviews

How a review can end, by its last exception, and what becomes of it: the detail under which a
failure is recorded, and the failure comment.

* **`ends_run`** — a finished review by the stage its failure comes from.
* **`failure_attributed`** — the detail names the subsystem that failed exactly where the last
  exception is the deadline's, the model's, or a refusal of the post: `prepare` takes nothing but
  an error of the model, and whatever escapes is recorded as `LLM_FAILURE`.
* **`failed_job_notified`** — a failure that is recorded is also announced, exactly where it is not
  a refused post: `run` returns that one without a message.
-/

namespace VidiPr

open Effect Prog Text

-- the resolution of a repository name is not looked into
attribute [local irreducible] GitHubClient.splitRepo

/-! ## How a review ends -/

/-- `x` refuses the post: what surfaces of it is a `GitHubError` that is not permanent. -/
def Refusal (e : Req) (x : PyError) : Prop :=
  e.IsPost ∧ (GitHubClient.surfaced x).isGitHubError = true ∧
    ∀ m, GitHubClient.surfaced x ≠ .gitHubPermanentError m

/-- The trace of a review that ends in a refused post. -/
def PostRefused (tr : ReqTrace) : Prop :=
  ∃ e x, tr.getLast? = some ⟨e, .error x⟩ ∧ Refusal e x

/-- What is recorded of a review with the trace `tr`. -/
inductive Ended (tr : ReqTrace) (result : ReviewResult) : Prop
  | done (hst : result.status = .done) (hlast : ¬ PostRefused tr)
  /-- the deadline of the job expired -/
  | deadline (e : Req) (hraise : lastRaise tr = some (e, .cancelled))
      (hst : result.status = .failed) (hdetail : result.statusDetail = some .timeout)
      (hmessage : result.failureMessage.isSome)
  /-- the model failed -/
  | model (e : Req) (x : PyError) (hraise : lastRaise tr = some (e, x)) (he : e.IsChat)
      (hx : x ≠ .cancelled) (hst : result.status = .failed)
      (hdetail : result.statusDetail = some (if x = .timeoutError then .timeout else .llmFailure))
      (hmessage : result.failureMessage.isSome)
  /-- the post was refused -/
  | refused (hpost : PostRefused tr) (hst : result.status = .failed)
      (hdetail : result.statusDetail = some .githubFailure)
      (hmessage : result.failureMessage = none)
  /-- anything else, which escapes `run` or is taken for an error of the model -/
  | escaped (hraise : ∀ e x, lastRaise tr = some (e, x) →
        x ≠ .cancelled ∧ ¬ e.IsChat ∧ ¬ Refusal e x)
      (hst : result.status = .failed)
      (hdetail : result.statusDetail = some .llmFailure ∨ result.statusDetail = some .timeout)
      (hmessage : result.failureMessage.isSome)

/-- The last exception of a trace that ends in one. -/
theorem lastRaise_of_getLast? {tr : ReqTrace} {e : Req} {x : PyError}
    (h : tr.getLast? = some ⟨e, .error x⟩) : lastRaise tr = some (e, x) := by
  obtain ⟨pre, rfl⟩ := List.getLast?_eq_some_iff.mp h
  rw [lastRaise_append, lastRaise_error]
  rfl

/-- A trace that ends in a value. -/
theorem not_postRefused {pre : ReqTrace} {e : Req} {v : e.Resp} :
    ¬ PostRefused (pre ++ [⟨e, .ok v⟩]) := by
  rintro ⟨e', x, hend, -⟩
  rw [List.getLast?_concat] at hend
  cases hend

/-- A refusal that ends the trace is its last exception. -/
theorem PostRefused.lastRaise {tr : ReqTrace} (h : PostRefused tr) :
    ∃ e x, lastRaise tr = some (e, x) ∧ Refusal e x := by
  obtain ⟨e, x, hlast, hrefusal⟩ := h
  exact ⟨e, x, lastRaise_of_getLast? hlast, hrefusal⟩

/-- What `wait_for` raises where the coroutine raised `x`. -/
def expired : PyError → PyError
  | .cancelled => .timeoutError
  | x => x

section Stages

variable {σ : Type} {sem : Sem Req Req.Resp PyError σ} {s s' : σ} {tr : ReqTrace}

theorem ends_waitFor {α : Type} {p : Py α} {r : Except PyError α}
    (h : Ends sem (Py.waitFor p) s tr r s') : ∃ r₀, Ends sem p s tr r₀ s' ∧
      r = r₀.mapError expired := by
  rcases ends_tryCatch h with ⟨v, rfl, hrun⟩ | ⟨x, tr₁, tr₂, s₁, rfl, hrun, hrest⟩
  · exact ⟨_, hrun, rfl⟩
  · cases x with
    | _ =>
      obtain ⟨rfl, rfl, rfl⟩ := ends_raise hrest
      exact ⟨_, by rwa [List.append_nil], rfl⟩

/-- What is recorded where `x` escapes `run`. -/
theorem recorded_escaped {x : PyError} (hx : x ≠ .cancelled) :
    (recorded (.error (expired x))).status = .failed ∧
      (recorded (.error (expired x))).statusDetail =
        some (if x = .timeoutError then .timeout else .llmFailure) ∧
      (recorded (.error (expired x))).failureMessage.isSome := by
  cases x with
  | cancelled => exact absurd rfl hx
  | timeoutError => exact ⟨rfl, rfl, rfl⟩
  | _ => exact ⟨rfl, rfl, rfl⟩

/-- An exception from outside the model and the post that escapes. -/
theorem Ended.ofEscape {x : PyError} (hx : x ≠ .cancelled)
    (hraise : ∀ e x, lastRaise tr = some (e, x) → x ≠ .cancelled ∧ ¬ e.IsChat ∧ ¬ Refusal e x) :
    Ended tr (recorded (.error (expired x))) := by
  obtain ⟨hst, hdetail, hmessage⟩ := recorded_escaped hx
  refine .escaped hraise hst ?_ hmessage
  rw [hdetail]
  split
  · exact Or.inr rfl
  · exact Or.inl rfl

/-- What reading asks for is neither a chat nor a post. -/
theorem not_chat_of_reads {e : Req} (h : e.Reads) : ¬ e.IsChat ∧ ¬ e.IsPost := by
  cases e with
  | sql q => exact h.elim
  | ext e =>
    cases e with
    | github client op => cases op <;> first | exact h.elim | exact ⟨id, id⟩
    | _ => first | exact h.elim | exact ⟨id, id⟩

/-- The last exception of a trace, if there is one, came to a request of the reading part. -/
def FromReading (tr : ReqTrace) : Prop :=
  ∀ e x, lastRaise tr = some (e, x) → e.Reads ∧ x ≠ .cancelled

theorem FromReading.escapes {pre : ReqTrace} (h : FromReading pre) (e : Req) (x : PyError)
    (hraise : lastRaise pre = some (e, x)) :
    x ≠ .cancelled ∧ ¬ e.IsChat ∧ ¬ Refusal e x := by
  obtain ⟨hreads, hx⟩ := h e x hraise
  obtain ⟨hchat, hpost⟩ := not_chat_of_reads hreads
  exact ⟨hx, hchat, fun hrefusal => hpost hrefusal.1⟩

theorem conclude_of_refusal {prepared : Prepared} {y : PyError}
    (h : y.isGitHubError = true ∧ ∀ m, y ≠ .gitHubPermanentError m) :
    Reviewer.conclude prepared (.error y) = .ret {
      status := .failed
      statusDetail := some .githubFailure
      durationNanos := prepared.durationNanos
      chunkCount := prepared.chunkCount
      promptTokens := prepared.promptTokens
      completionTokens := prepared.completionTokens
      error := some y.str } := by
  cases y with
  | gitHubPermanentError m => exact absurd rfl (h.2 m)
  | gitHubError | gitHubAuthError | gitHubNotFound | gitHubTransientError => rfl
  | _ => cases h.1

theorem conclude_of_other {prepared : Prepared} {y : PyError} (h : y.isGitHubError = false) :
    Reviewer.conclude prepared (.error y) = Py.throw y := by
  cases y <;> first | rfl | cases h

variable (hsem : ∀ e s r s', sem e s r s' → e.Genuine r) [UnicodeDb] {job : Job}
  {prepared : Prepared} {r : Except PyError ReviewResult}

include hsem

/-- The last stage, after a prefix without the post. How the last attempt of the post ended decides:
a permanent `GitHubError` is recorded as a closed pull request, any other as a failure of GitHub,
both without a message, and what is no `GitHubError` escapes. -/
theorem ends_post {pre : ReqTrace} (hpre : FromReading pre)
    (h : Ends sem (Reviewer.post job (.ready prepared)) s tr r s')
    (hr : r ≠ .error .cancelled) : Ended (pre ++ tr) (recorded (r.mapError expired)) := by
  obtain ⟨r₁, tr₁, tr₂, s₁, rfl, hpost, hrest⟩ := ends_andThen h
  rcases Reviewer.ends_postWithRetry hsem hpost with ⟨rfl, m, rfl⟩ | rfl | hlast
  · -- the repository has no owner and name: nothing is asked
    obtain ⟨rfl, rfl, _⟩ := ends_raise hrest
    rw [List.append_nil, List.append_nil]
    exact .ofEscape (x := .valueError m) PyError.noConfusion hpre.escapes
  · -- the attempt is cancelled, which is excluded here
    obtain ⟨rfl, rfl, _⟩ := ends_raise hrest
    exact absurd rfl hr
  · obtain ⟨before, client, owner, name, body, prNumber, d, rfl, rfl⟩ := hlast
    rw [← List.append_assoc]
    cases d with
    -- the review is posted
    | ok v =>
      obtain ⟨rfl, rfl, _⟩ := ends_ret hrest
      rw [List.append_nil, ← List.append_assoc]
      exact .done rfl not_postRefused
    | error x =>
      have hraise : lastRaise (pre ++ before ++
          [⟨.ext (.github client (.pullsCreateReview owner name prNumber body)), .error x⟩]) =
            some (.ext (.github client (.pullsCreateReview owner name prNumber body)), x) := by
        rw [lastRaise_append, lastRaise_error]
        rfl
      change Ends sem (Reviewer.conclude prepared (.error (GitHubClient.surfaced x))) s₁ tr₂ r s'
        at hrest
      by_cases hrefusal : (GitHubClient.surfaced x).isGitHubError = true ∧
          ∀ m, GitHubClient.surfaced x ≠ .gitHubPermanentError m
      · -- refused: recorded as a failure of GitHub
        rw [conclude_of_refusal hrefusal] at hrest
        obtain ⟨rfl, rfl, _⟩ := ends_ret hrest
        rw [List.append_nil, ← List.append_assoc]
        exact .refused ⟨_, x, List.getLast?_concat, trivial, hrefusal⟩ rfl rfl rfl
      · by_cases hperm : ∃ m, GitHubClient.surfaced x = .gitHubPermanentError m
        · -- a permanent error is recorded as done
          obtain ⟨m, hm⟩ := hperm
          rw [hm] at hrest
          obtain ⟨rfl, rfl, _⟩ := ends_ret hrest
          rw [List.append_nil, ← List.append_assoc]
          refine .done rfl fun ⟨e', x', hend, hx'⟩ => hrefusal ?_
          cases (lastRaise_of_getLast? hend).symm.trans hraise
          exact hx'.2
        · -- no error of GitHub: it escapes from the review
          have hother : (GitHubClient.surfaced x).isGitHubError = false := by
            refine eq_false_of_ne_true fun hgh => hrefusal ⟨hgh, fun m hm => hperm ⟨m, hm⟩⟩
          rw [conclude_of_other hother] at hrest
          obtain ⟨rfl, rfl, _⟩ := ends_raise hrest
          rw [List.append_nil, ← List.append_assoc]
          refine .ofEscape (fun hc => hr (congrArg Except.error hc)) fun e' x' hlast => ?_
          cases hlast.symm.trans hraise
          refine ⟨?_, id, fun h' => hrefusal h'.2⟩
          rintro rfl
          exact hr rfl

omit [UnicodeDb] in
/-- A clock read raises nothing, and ends in a value. -/
theorem ends_perfCounter {r₁ : Except PyError Nat} (h : Ends sem Py.perfCounter s tr r₁ s') :
    ∃ now, r₁ = .ok now ∧ tr = [⟨.ext .perfCounter, .ok now⟩] := by
  obtain ⟨rfl, hnow⟩ := ends_perform h
  obtain ⟨now, rfl⟩ : ∃ now, r₁ = .ok now := hsem _ _ _ _ hnow
  exact ⟨now, rfl, rfl⟩

variable {started : Nat} {rendered : Except PyError RenderedReview}

/-- What the second half of `prepare` leaves, after the trace `pre` of the first. -/
def Rendered (tr : ReqTrace) : Except PyError RenderedReview → Prop
  | .ok (.early result) => Ended tr result
  | .ok (.ready _) => FromReading tr
  | .error x => x ≠ .cancelled → Ended tr (recorded (.error (expired x)))

omit [UnicodeDb] in
theorem ends_endEarly {pre : ReqTrace} {detail : JobStatusDetail}
    (h : Ends sem (Reviewer.endEarly started detail) s tr rendered s') :
    Rendered (pre ++ tr) rendered := by
  obtain ⟨r₁, tr₁, tr₂, s₁, rfl, hnow, hrest⟩ := ends_andThen h
  obtain ⟨now, rfl, rfl⟩ := ends_perfCounter hsem hnow
  obtain ⟨rfl, rfl, _⟩ := ends_ret hrest
  rw [List.append_nil]
  exact Ended.done rfl not_postRefused

omit [UnicodeDb] in
/-- An exception of `askModel`, caught or not. -/
theorem ends_modelFailed {pre : ReqTrace} {x : PyError}
    (h : Ends sem (if x.isLLMError ∨ x.isGitHubError then do
        let result ← Reviewer.failureFrom x started .llmFailure
        return RenderedReview.early result
      else Py.throw x) s tr rendered s')
    (hended : ∀ result, lastRaise tr = none → result.status = .failed →
      result.failureMessage.isSome →
      result.statusDetail = some (if x = .timeoutError then .timeout else .llmFailure) →
      x ≠ .cancelled → Ended (pre ++ tr) result) : Rendered (pre ++ tr) rendered := by
  split at h
  · -- caught: an early result, with the message of a failed model
    rename_i hcaught
    obtain ⟨r₁, tr₁, tr₂, s₁, rfl, hfailure, hrest⟩ := ends_andThen h
    obtain ⟨r₂, tr₃, tr₄, s₂, rfl, hnow, hresult⟩ := ends_andThen hfailure
    obtain ⟨now, rfl, rfl⟩ := ends_perfCounter hsem hnow
    obtain ⟨rfl, rfl, _⟩ := ends_ret hresult
    obtain ⟨rfl, rfl, _⟩ := ends_ret hrest
    have htimeout : x ≠ .timeoutError := by
      rintro rfl
      simp [PyError.isLLMError, PyError.isGitHubError] at hcaught
    refine hended _ rfl rfl rfl (by rw [if_neg htimeout]) ?_
    rintro rfl
    simp [PyError.isLLMError, PyError.isGitHubError] at hcaught
  · -- not caught: `_process` records what escapes
    obtain ⟨rfl, rfl, _⟩ := ends_raise h
    intro hx
    obtain ⟨hst, hdetail, hmessage⟩ := recorded_escaped hx
    exact hended _ rfl hst hmessage hdetail hx

omit hsem [UnicodeDb] in
theorem FromReading.append {pre tr' : ReqTrace} (h : FromReading pre) (h' : lastRaise tr' = none) :
    FromReading (pre ++ tr') := by
  unfold FromReading
  rwa [lastRaise_append, h', Option.none_or]

variable [ConfigLibrary] [PromptFiles] {reviewer : Reviewer} {repoConfig : RepoConfig}
  {content : PRContent}

theorem ends_reviewContent {pre : ReqTrace} (hpre : FromReading pre)
    (h : Ends sem (Reviewer.reviewContent reviewer job started repoConfig content) s tr
      rendered s') : Rendered (pre ++ tr) rendered := by
  unfold Reviewer.reviewContent at h
  dsimp only at h
  split at h
  · exact ends_endEarly hsem h
  split at h
  · exact ends_endEarly hsem h
  obtain ⟨r₁, tr₁, tr₂, s₁, rfl, hmodel, hrest⟩ := ends_andThen h
  have hraised := (Reviewer.askModel_unhandled reviewer job content repoConfig _).ends hmodel
  cases r₁ with
  | ok answer =>
    -- the model answered, so it has raised nothing
    have hnone : lastRaise tr₁ = none := by
      rcases hraised with hnone | ⟨e, x, _, hx⟩
      · exact hnone
      · cases hx
    obtain ⟨r₂, tr₃, tr₄, s₂, rfl, hnow, hrender⟩ := ends_andThen hrest
    obtain ⟨now, rfl, rfl⟩ := ends_perfCounter hsem hnow
    obtain ⟨rfl, rfl, _⟩ := ends_ret hrender
    rw [← List.append_assoc]
    exact (hpre.append hnone).append rfl
  | error x =>
    rw [← List.append_assoc]
    refine ends_modelFailed hsem hrest fun result hquiet hst hmessage hdetail hx => ?_
    rcases hraised with hnone | ⟨e, x', hlast, hx'⟩
    · -- a template could not be rendered
      refine .escaped ((hpre.append hnone).append hquiet).escapes hst ?_ hmessage
      rw [hdetail]
      split
      · exact Or.inr rfl
      · exact Or.inl rfl
    · cases hx'
      -- the exception is the last of the run, and of a request to the model
      have hlast' : lastRaise (pre ++ tr₁ ++ tr₂) = some (e, x) := by
        rw [lastRaise_append, hquiet, Option.none_or, lastRaise_append, hlast]
        rfl
      refine .model e x hlast' ?_ hx hst hdetail hmessage
      exact ((Reviewer.askModel_calls reviewer job content repoConfig _).run hmodel).1 _
        (mem_of_lastRaise hlast)

/-- A finished review, by the stage its failure comes from. -/
theorem ends_run {r : Except PyError ReviewResult}
    (h : Ends sem (Py.waitFor (Reviewer.run reviewer job)) s tr r s') : Ended tr (recorded r) := by
  obtain ⟨r₀, hrun, rfl⟩ := ends_waitFor h
  by_cases hcancelled : r₀ = .error .cancelled
  · subst hcancelled
    obtain ⟨e, hlast⟩ := (Reviewer.relays_run reviewer job).ends hrun |>.mpr rfl
    exact .deadline e hlast rfl rfl rfl
  · rw [Reviewer.run_eq, Reviewer.prepare_eq] at hrun
    obtain ⟨r₁, tr₁, tr₂, s₁, rfl, hprepare, hpost⟩ := ends_andThen hrun
    obtain ⟨r₂, tr₃, tr₄, s₂, rfl, hgather, hreview⟩ := ends_andThen hprepare
    have hreading : FromReading tr₃ := by
      intro e x hlast
      refine ⟨((Reviewer.gather_calls reviewer job false).run hgather).1 _
        (mem_of_lastRaise hlast), ?_⟩
      rintro rfl
      -- a cancellation while reading would have ended the review
      obtain rfl := ((Reviewer.relays_gather reviewer job false).ends hgather).mp ⟨e, hlast⟩
      obtain ⟨-, rfl, _⟩ := ends_raise hreview
      obtain ⟨-, rfl, _⟩ := ends_raise hpost
      exact hcancelled rfl
    have hrendered : Rendered (tr₃ ++ tr₄) r₁ := by
      cases r₂ with
      | error x =>
        obtain ⟨rfl, rfl, _⟩ := ends_raise hreview
        rw [List.append_nil]
        exact fun hx => .ofEscape hx hreading.escapes
      | ok gathered =>
        cases gathered with
        | draft started => exact ends_endEarly hsem hreview
        | content started repoConfig content => exact ends_reviewContent hsem hreading hreview
    cases r₁ with
    | error x =>
      obtain ⟨rfl, rfl, _⟩ := ends_raise hpost
      rw [List.append_nil]
      exact hrendered fun hx => hcancelled (congrArg Except.error hx)
    | ok rendered =>
      cases rendered with
      | early result =>
        obtain ⟨rfl, rfl, _⟩ := ends_ret hpost
        rw [List.append_nil]
        exact hrendered
      | ready prepared => exact ends_post hsem hrendered hpost hcancelled

end Stages

/-! ## What the worker does with it -/

section Worker

variable {σ : Type} {sem : Sem Req Req.Resp PyError σ} {s s' : σ} {tr : ReqTrace} {job : Job}
  {result : ReviewResult}

/-- A request of the transaction that records `result`. -/
def Req.Outcome (job : Job) (result : ReviewResult) : Req → Prop
  | .sql (.dml (.updateJobStatus id status detail _ _)) =>
    id = job.id ∧ status = result.status ∧ detail = result.statusDetail
  | .sql (.dml _) | .sql .rollback | .ext .utcnow => True
  | _ => False

/-- The statements of `_persist` before its commit. -/
def outcomeRows (job : Job) (result : ReviewResult) : Py Unit := do
  updateJobStatus job.id result.status result.statusDetail result.error
  Worker.recordReview job result
  releaseLock job.repo job.prNumber

theorem outcomeRows_calls : (outcomeRows job result).Calls (Req.Outcome job result) := by
  have hstatus : (updateJobStatus job.id result.status result.statusDetail result.error).Calls
      (Req.Outcome job result) :=
    (calls_perform trivial).bind fun now => calls_perform ⟨rfl, rfl, rfl⟩
  refine hstatus.bind fun _ => Calls.bind ?_ fun _ => calls_perform trivial
  unfold Worker.recordReview
  split
  · refine Calls.bind ?_ fun _ => trivial
    exact (calls_perform trivial).bind fun now => calls_perform trivial
  · trivial

theorem persistOutcome_eq :
    Worker.persistOutcome job result =
      Py.withSession ((outcomeRows job result).bind fun _ => Py.commit) := by
  unfold Worker.persistOutcome outcomeRows
  simp only [bind_eq, bind_assoc]

/-- A commit of the trace succeeded. -/
def Committed (tr : ReqTrace) : Prop := ⟨.sql .commit, .ok ()⟩ ∈ tr

theorem not_committed {P : Req → Prop} (htr : ∀ c ∈ tr, P c.1) (h : ¬ P (.sql .commit)) :
    ¬ Committed tr :=
  fun hmem => h (htr _ hmem)

variable (hsem : ∀ e s r s', sem e s r s' → e.Genuine r)
include hsem

/-- The transaction of `_persist` returns exactly where its commit succeeds. -/
theorem ends_persistOutcome {r : Except PyError Unit}
    (h : Ends sem (Worker.persistOutcome job result) s tr r s') :
    (∀ c ∈ tr, c.1 = .sql .commit ∨ Req.Outcome job result c.1) ∧ (Committed tr ↔ r = .ok ()) ∧
      ∀ outcome rest, tr = outcome ++ rest → Committed outcome →
        ∀ c ∈ rest, c = ⟨.sql .rollback, .ok ()⟩ := by
  rw [persistOutcome_eq] at h
  obtain ⟨r₁, tr₁, tr₂, s₁, rfl, hbody, hclose⟩ := ends_andThen h
  obtain ⟨r₂, tr₃, tr₄, s₂, rfl, hrollback, hend⟩ := ends_andThen hclose
  obtain ⟨rfl, hclosed⟩ := ends_perform hrollback
  obtain rfl : r₂ = .ok () := hsem _ _ _ _ hclosed
  obtain ⟨rfl, hr, _⟩ := run_ofExcept hend
  obtain rfl : r₁ = r := (ofExcept_inj hr).symm
  obtain ⟨r₃, tr₅, tr₆, s₃, rfl, hrows, hcommit⟩ := ends_andThen hbody
  have hcalls := (outcomeRows_calls.run hrows).1
  have hnone : ¬ Committed tr₅ := not_committed hcalls id
  cases r₃ with
  -- a row failed: there is no commit
  | error x =>
    obtain ⟨rfl, rfl, _⟩ := ends_raise hcommit
    have huncommitted : ¬ Committed (tr₅ ++ [] ++ ([⟨.sql .rollback, .ok ()⟩] ++ [])) := by
      simp only [Committed, List.append_nil, List.mem_append, List.mem_singleton]
      rintro (hmem | hmem)
      · exact hnone hmem
      · cases hmem
    have hfailed : (Except.error x : Except PyError Unit) ≠ .ok () := by simp
    refine ⟨fun c hc => ?_, iff_of_false huncommitted hfailed, ?_⟩
    · simp only [List.append_nil, List.mem_append, List.mem_singleton] at hc
      rcases hc with hc | rfl
      · exact Or.inr (hcalls c hc)
      · exact Or.inr trivial
    · intro outcome rest htr hcommitted
      refine absurd ?_ huncommitted
      exact htr ▸ List.mem_append_left rest hcommitted
  -- the rows are written, and the commit decides
  | ok u =>
    obtain ⟨rfl, -⟩ := ends_perform hcommit
    refine ⟨fun c hc => ?_, ?_, fun outcome rest htr hcommitted => ?_⟩
    · simp only [List.append_nil, List.mem_append, List.mem_singleton] at hc
      rcases hc with (hc | rfl) | rfl
      · exact Or.inr (hcalls c hc)
      · exact Or.inl rfl
      · exact Or.inr trivial
    · constructor
      · intro hmem
        simp only [Committed, List.append_nil, List.mem_append, List.mem_singleton] at hmem
        rcases hmem with (hmem | hmem) | hmem
        · exact absurd hmem hnone
        · cases hmem
          rfl
        · cases hmem
      · rintro rfl
        exact List.mem_append_left _ (List.mem_append_right _ (List.mem_singleton.mpr rfl))
    · -- the commit is the last request before the session is closed
      rw [List.append_nil, List.append_assoc, List.append_eq_append_iff] at htr
      rcases htr with ⟨extra, hout, hrest⟩ | ⟨extra, hrows, -⟩
      · cases extra with
        | nil =>
          rw [hout, List.append_nil] at hcommitted
          exact absurd hcommitted hnone
        | cons c extra =>
          have htail : extra ++ rest = [⟨.sql .rollback, .ok ()⟩] := (List.cons.inj hrest).2.symm
          exact fun c hc => List.mem_singleton.mp (htail ▸ List.mem_append_right extra hc)
      · rw [hrows] at hnone
        exact absurd (List.mem_append_left extra hcommitted) hnone

/-- The row of the recorded outcome is written, whether or not it is committed. -/
theorem outcome_written {r : Except PyError Unit}
    (h : Ends sem (Worker.persistOutcome job result) s tr r s') :
    ∃ now row, ⟨.sql (.dml (.updateJobStatus job.id result.status result.statusDetail result.error
      now)), row⟩ ∈ tr := by
  rw [persistOutcome_eq] at h
  obtain ⟨r₁, tr₁, tr₂, s₁, rfl, hbody, -⟩ := ends_andThen h
  obtain ⟨r₂, tr₃, tr₄, s₂, rfl, hrows, -⟩ := ends_andThen hbody
  obtain ⟨r₃, tr₅, tr₆, s₃, rfl, hstatus, -⟩ := ends_andThen hrows
  obtain ⟨r₄, tr₇, tr₈, s₄, rfl, hnow, hwrite⟩ := ends_andThen hstatus
  obtain ⟨-, hclock⟩ := ends_perform hnow
  obtain ⟨now, rfl⟩ : ∃ now, r₄ = .ok now := hsem _ _ _ _ hclock
  obtain ⟨rfl, -⟩ := ends_perform hwrite
  exact ⟨now, r₃, by simp⟩

/-- A run of the worker on `job` sets it to FAILED. -/
def WritesFailed (job : Job) (detail : Option JobStatusDetail) (tr : ReqTrace) : Prop :=
  ∃ error now row, ⟨.sql (.dml (.updateJobStatus job.id .failed detail error now)), row⟩ ∈ tr

variable [UnicodeDb] {config : OperatorConfig}

/-- Once the outcome is committed, the worker has called `maybe_post_failure_comment` for the
job's pull request: the rest of the trace is a run of it. -/
def Notifies (sem : Sem Req Req.Resp PyError σ) (config : OperatorConfig) (job : Job)
    (tr : ReqTrace) : Prop :=
  ∃ outcome call message s r s', tr = outcome ++ call ∧ Committed outcome ∧
    Ends sem (maybePostFailureComment job.installationId job.repo job.prNumber message
      config.pipeline.failureCommentCooldownSeconds) s call r s'

/-- A statement that sets no status. -/
def Dml.SetsNoStatus : Dml → Prop
  | .updateJobStatus .. => False
  | _ => True

omit hsem in
/-- A call begins with a reading of the clock. -/
theorem maybePost_clock {message : String} {cooldownSeconds : Nat} {r : Except PyError Bool}
    (h : Ends sem (maybePostFailureComment job.installationId job.repo job.prNumber message
      cooldownSeconds) s tr r s') : ∃ answer, ⟨.ext .utcnow, answer⟩ ∈ tr := by
  obtain ⟨r₁, tr₁, tr₂, s₁, rfl, hslot, -⟩ := ends_andThen h
  obtain ⟨r₂, tr₃, tr₄, s₂, rfl, hclaim, -⟩ := ends_andThen hslot
  obtain ⟨r₃, tr₅, tr₆, s₃, rfl, hnow, -⟩ := ends_andThen hclaim
  obtain ⟨rfl, -⟩ := ends_perform hnow
  exact ⟨r₃, by simp⟩

/-- What `_process` does with an outcome: the outcome's transaction, and, where it is committed and
there is a message for a failure, the announcement. -/
theorem ends_persist {u : Except PyError Unit}
    (h : Ends sem (Worker.persist config job result) s tr u s') :
    (∀ detail, WritesFailed job detail tr ↔
      result.status = .failed ∧ detail = result.statusDetail) ∧
    (Notifies sem config job tr ↔
      Committed tr ∧ result.status = .failed ∧ result.failureMessage.isSome) := by
  obtain ⟨r₁, tr₁, tr₂, s₁, rfl, hpersist, hrest⟩ := ends_andThen h
  obtain ⟨hcalls, hcommit, hlast⟩ := ends_persistOutcome hsem hpersist
  obtain ⟨now, row, hrow⟩ := outcome_written hsem hpersist
  -- the transaction of the outcome reads no clock once it is committed
  have hsilent : ¬ Notifies sem config job tr₁ := by
    rintro ⟨outcome, call, message, s₂, r, s₃, htr, hcommitted, hcall⟩
    obtain ⟨answer, hclock⟩ := maybePost_clock hcall
    cases hlast outcome call htr hcommitted _ hclock
  -- what follows the outcome sets no status
  have hrest_calls : ∀ c ∈ tr₂, c.1.Writes Dml.SetsNoStatus := by
    cases r₁ with
    | error x =>
      obtain ⟨rfl, _⟩ := ends_raise hrest
      exact fun c hc => absurd hc List.not_mem_nil
    | ok _ =>
      refine (Calls.run ?_ hrest).1
      dsimp only
      split
      · exact (maybePostFailureComment_slot _ _ _ fun now => trivial).bind fun _ => trivial
      · trivial
  refine ⟨fun detail => ⟨?_, ?_⟩, ?_⟩
  · rintro ⟨error, now, row, hmem⟩
    rcases List.mem_append.mp hmem with hmem | hmem
    · rcases hcalls _ hmem with heq | ⟨-, hst, hdetail⟩
      · cases heq
      · exact ⟨hst.symm, hdetail⟩
    · exact (hrest_calls _ hmem).elim
  · rintro ⟨hst, rfl⟩
    rw [hst] at hrow
    exact ⟨result.error, now, row, List.mem_append_left _ hrow⟩
  · cases r₁ with
    | error x =>
      obtain ⟨rfl, _⟩ := ends_raise hrest
      rw [List.append_nil, hcommit]
      exact iff_of_false hsilent fun h => nomatch h.1
    | ok _ =>
      dsimp only at hrest
      split at hrest
      · rename_i hst hmessage
        rename_i message
        obtain ⟨r₂, tr₃, tr₄, s₂, rfl, hpost, hend⟩ := ends_andThen hrest
        have hnil : tr₄ = [] := by
          cases r₂ with
          | error x => exact (ends_raise hend).1
          | ok b => exact (ends_ret hend).1
        rw [hnil, List.append_nil]
        refine iff_of_true ⟨tr₁, tr₃, message, s₁, r₂, s₂, rfl, hcommit.mpr rfl, hpost⟩
          ⟨List.mem_append_left _ (hcommit.mpr rfl), hst, ?_⟩
        rw [hmessage]
        rfl
      · rename_i hnone
        obtain ⟨rfl, _⟩ := ends_ret hrest
        rw [List.append_nil]
        refine iff_of_false hsilent fun ⟨_, hst, hmessage⟩ => ?_
        obtain ⟨message, hmessage⟩ := Option.isSome_iff_exists.mp hmessage
        exact hnone message hst hmessage

end Worker

/-! ## Attribution -/

/-- The detail names what raised the last exception of the review. -/
structure Attributed (raised : Option (Req × PyError)) (detail : Option JobStatusDetail) :
    Prop where
  llm : detail = some .llmFailure → ∃ e x, raised = some (e, x) ∧ e.IsChat
  github : ∀ e x, raised = some (e, x) → e.IsGithub → x ≠ .cancelled →
    detail = some .githubFailure
  timeout : detail = some .timeout → ∃ e, raised = some (e, .cancelled)

/-- The exceptions that are recorded under their own subsystem: the deadline's, the model's, and
the refusal of the post. -/
def Attributable (raised : Option (Req × PyError)) : Prop :=
  ∃ e x, raised = some (e, x) ∧
    (x = .cancelled ∨ (e.IsChat ∧ x ≠ .timeoutError) ∨ Refusal e x)

section Laws

variable {σ : Type} {sem : Sem Req Req.Resp PyError σ} {s s₁ s' : σ} {tr tr' : ReqTrace}
  {job : Job} {r : Except PyError ReviewResult} {u : Except PyError Unit} [UnicodeDb]
  [ConfigLibrary] [PromptFiles] {config : OperatorConfig} {reviewer : Reviewer}
  (hsem : ∀ e s r s', sem e s r s' → e.Genuine r)

/-- A review under `wait_for` is not cancelled. -/
theorem ne_cancelled_of_waitFor
    (hreview : Ends sem (Py.waitFor (Reviewer.run reviewer job)) s tr r s₁) :
    r ≠ .error .cancelled := by
  obtain ⟨r₀, -, rfl⟩ := ends_waitFor hreview
  rcases r₀ with x | result
  · cases x <;> exact fun h => by cases h
  · exact nofun

include hsem

/-- The stored detail names what went wrong exactly where the last exception is one that can be
named rightly: the deadline, a failure of the model that is no `TimeoutError`, or a refused post.
The cases are the ways a review can end. -/
theorem failure_attributed {detail : Option JobStatusDetail}
    (hreview : Ends sem (Py.waitFor (Reviewer.run reviewer job)) s tr r s₁)
    (hsettle : Ends sem (Worker.settle config job r) s₁ tr' u s')
    (hfailed : WritesFailed job detail tr') :
    Attributed (lastRaise tr) detail ↔ Attributable (lastRaise tr) := by
  rw [settle_eq (ne_cancelled_of_waitFor hreview)] at hsettle
  obtain ⟨hst, rfl⟩ := ((ends_persist hsem hsettle).1 detail).mp hfailed
  cases ends_run hsem hreview with
  -- a review that is done writes no failure
  | done hdone hlast =>
    rw [hdone] at hst
    cases hst
  -- the deadline: `wait_for` raises, and the detail is `timeout`
  | deadline e hraise _ hdetail _ =>
    rw [hraise, hdetail]
    refine iff_of_true ⟨nofun, fun e' x' heq _ hx' => ?_, fun _ => ⟨e, rfl⟩⟩
      ⟨e, _, rfl, Or.inl rfl⟩
    cases heq
    exact absurd rfl hx'
  | model e x hraise he hx _ hdetail _ =>
    rw [hraise, hdetail]
    by_cases htimeout : x = .timeoutError
    · -- a `TimeoutError` of the model passes for the deadline's
      rw [if_pos htimeout]
      refine iff_of_false (fun h => ?_) ?_
      · obtain ⟨e', heq⟩ := h.timeout rfl
        cases heq
        exact hx rfl
      · rintro ⟨e', x', heq, hwhy⟩
        cases heq
        rcases hwhy with hcancelled | ⟨-, hne⟩ | hrefusal
        · exact hx hcancelled
        · exact hne htimeout
        · exact he.not_github hrefusal.1.isGithub
    · rw [if_neg htimeout]
      refine iff_of_true ⟨fun _ => ⟨e, x, rfl, he⟩, fun e' x' heq hgh => ?_, nofun⟩
        ⟨e, x, rfl, Or.inr (Or.inl ⟨he, htimeout⟩)⟩
      cases heq
      exact absurd hgh he.not_github
  -- a refused post is recorded as such
  | refused hpost _ hdetail _ =>
    obtain ⟨e, x, hlast, hrefusal⟩ := hpost
    rw [lastRaise_of_getLast? hlast, hdetail]
    exact iff_of_true ⟨nofun, fun _ _ _ _ _ => rfl, nofun⟩
      ⟨e, x, rfl, Or.inr (Or.inr hrefusal)⟩
  -- what escapes is recorded as a failure of the model, whatever it is
  | escaped hraise _ hdetail _ =>
    refine iff_of_false (fun h => ?_) ?_
    · rcases hdetail with hdetail | hdetail
      · obtain ⟨e, x, heq, he⟩ := h.llm hdetail
        exact (hraise e x heq).2.1 he
      · obtain ⟨e, heq⟩ := h.timeout hdetail
        exact (hraise e _ heq).1 rfl
    · rintro ⟨e, x, heq, hx | ⟨he, _⟩ | hrefusal⟩
      · exact (hraise e x heq).1 hx
      · exact (hraise e x heq).2.1 he
      · exact (hraise e x heq).2.2 hrefusal

end Laws

section Blamed

attribute [local instance] asciiDb exampleLibrary emptyPrompts
attribute [local semireducible] GitHubClient.splitRepo

/-- GitHub is out of order. -/
def githubDown : Replies where
  github _ := .error (.requestFailed { statusCode := 503, text := "down" })
  chat := .ok exampleChat

/-- The job's deadline expires while the pull request is read. -/
def deadlineExpires : Replies where
  github
    | .pullsGet .. => .error .cancelled
    | op => exampleGithub (.ok (1 : Nat)) op
  chat := .ok exampleChat

theorem failure_attributed_deadline :
    Attributed (lastRaise ((Py.waitFor (Reviewer.run exampleReviewer exampleJob)).eval
      deadlineExpires.answer ()).1) (some .timeout) := by
  refine (failure_attributed (deadlineExpires.genuine ?_) (deadlineExpires.ends _)
    (deadlineExpires.ends (Worker.settle exampleOperator exampleJob _))
    ⟨some "job timed out", (0 : Nat), .ok (), ?_⟩).mpr ?_
  · exact fun _ _ _ _ => nofun
  · exact List.mem_of_getElem? (i := 1) rfl
  · exact ⟨_, _, rfl, Or.inl rfl⟩

/-- GitHub answers the first read with a 503, and the job fails as if the model had. -/
theorem unreadable_pull_blamed_on_model : ∃ tr r tr' u,
    Ends githubDown.sem (Py.waitFor (Reviewer.run exampleReviewer exampleJob)) () tr r () ∧
      Ends githubDown.sem (Worker.settle exampleOperator exampleJob r) () tr' u () ∧
      WritesFailed exampleJob (some .llmFailure) tr' ∧
      ¬ Attributed (lastRaise tr) (some .llmFailure) := by
  refine ⟨_, _, _, _, githubDown.ends _, githubDown.ends _,
    ⟨some "503: down", (0 : Nat), .ok (), ?_⟩, fun h => ?_⟩
  · exact List.mem_of_getElem? (i := 1) rfl
  · obtain ⟨e, x, heq, he⟩ := h.llm rfl
    cases heq
    exact he

end Blamed

/-! ## Notification -/

/-- `job`'s failure is in the store. -/
def RecordsFailed (job : Job) (tr : ReqTrace) : Prop :=
  Committed tr ∧ ∃ detail, WritesFailed job detail tr

section Laws

variable {σ : Type} {sem : Sem Req Req.Resp PyError σ} {s s₁ s' : σ} {tr tr' : ReqTrace}
  {job : Job} {r : Except PyError ReviewResult} {u : Except PyError Unit} [UnicodeDb]
  [ConfigLibrary] [PromptFiles] {config : OperatorConfig} {reviewer : Reviewer}

/-- A failed job is announced unless the post was refused: that branch of `Reviewer.run` sets no
message, and every other sets one. Without the commit there is no failed job to announce. -/
theorem failed_job_notified (hsem : ∀ e s r s', sem e s r s' → e.Genuine r)
    (hreview : Ends sem (Py.waitFor (Reviewer.run reviewer job)) s tr r s₁)
    (hsettle : Ends sem (Worker.settle config job r) s₁ tr' u s') :
    (RecordsFailed job tr' → Notifies sem config job tr') ↔ ¬ (PostRefused tr ∧ Committed tr') := by
  rw [settle_eq (ne_cancelled_of_waitFor hreview)] at hsettle
  obtain ⟨hwrites, hnotifies⟩ := ends_persist hsem hsettle
  -- the job is recorded as failed where the transaction commits a failed result
  have hrecords : RecordsFailed job tr' ↔ Committed tr' ∧ (recorded r).status = .failed := by
    refine and_congr_right fun _ => ⟨?_, fun hst => ⟨_, (hwrites _).mpr ⟨hst, rfl⟩⟩⟩
    rintro ⟨detail, hdetail⟩
    exact ((hwrites detail).mp hdetail).1
  rw [hrecords, hnotifies]
  -- with a message, the comment is attempted whenever the failure is recorded
  have hannounced : (recorded r).failureMessage.isSome → ¬ PostRefused tr →
      ((Committed tr' ∧ (recorded r).status = .failed → Committed tr' ∧
        (recorded r).status = .failed ∧ (recorded r).failureMessage.isSome) ↔
          ¬ (PostRefused tr ∧ Committed tr')) :=
    fun hmessage hlast => iff_of_true (fun h => ⟨h.1, h.2, hmessage⟩) fun h => hlast h.1
  cases ends_run hsem hreview with
  -- done: nothing to announce
  | done hdone hlast =>
    refine iff_of_true (fun h => ?_) fun h => hlast h.1
    rw [hdone] at h
    cases h.2
  | deadline e hraise _ _ hmessage =>
    refine hannounced hmessage fun hpost => ?_
    obtain ⟨e', x', hlast, hrefusal⟩ := hpost.lastRaise
    cases hlast.symm.trans hraise
    cases hrefusal.2.1
  | model e x hraise he _ _ _ hmessage =>
    refine hannounced hmessage fun hpost => ?_
    obtain ⟨e', x', hlast, hrefusal⟩ := hpost.lastRaise
    cases hlast.symm.trans hraise
    exact he.not_github hrefusal.1.isGithub
  -- no message: the one case in which nothing is posted
  | refused hpost hst _ hmessage =>
    rw [hst, hmessage]
    constructor
    · rintro h ⟨-, hcommitted⟩
      cases (h ⟨hcommitted, rfl⟩).2.2
    · intro h hfailed
      exact absurd ⟨hpost, hfailed.1⟩ h
  | escaped hraise _ _ hmessage =>
    refine hannounced hmessage fun hpost => ?_
    obtain ⟨e, x, hlast, hrefusal⟩ := hpost.lastRaise
    exact (hraise e x hlast).2.2 hrefusal

end Laws

section Silent

attribute [local instance] asciiDb exampleLibrary emptyPrompts
attribute [local semireducible] GitHubClient.splitRepo

theorem failed_job_notified_deadline :
    RecordsFailed exampleJob ((Worker.settle exampleOperator exampleJob
        ((Py.waitFor (Reviewer.run exampleReviewer exampleJob)).eval deadlineExpires.answer
          ()).2.1).eval deadlineExpires.answer ()).1 ∧
      Notifies deadlineExpires.sem exampleOperator exampleJob ((Worker.settle exampleOperator exampleJob
        ((Py.waitFor (Reviewer.run exampleReviewer exampleJob)).eval deadlineExpires.answer
          ()).2.1).eval deadlineExpires.answer ()).1 := by
  have hrecorded : RecordsFailed exampleJob ((Worker.settle exampleOperator exampleJob
      ((Py.waitFor (Reviewer.run exampleReviewer exampleJob)).eval deadlineExpires.answer
        ()).2.1).eval deadlineExpires.answer ()).1 :=
    ⟨List.mem_of_getElem? (i := 3) rfl, _, _, _, _, List.mem_of_getElem? (i := 1) rfl⟩
  refine ⟨hrecorded, ?_⟩
  refine (failed_job_notified (deadlineExpires.genuine ?_) (deadlineExpires.ends _)
    (deadlineExpires.ends (Worker.settle exampleOperator exampleJob _))).mpr (fun h => ?_) hrecorded
  · exact fun _ _ _ _ => nofun
  · obtain ⟨e, x, hlast, hrefusal⟩ := h.1.lastRaise
    cases hlast
    cases hrefusal.2.1

/-- GitHub does not find the pull request when the review is posted. -/
def pullGone : Replies where
  github := exampleGithub (.error (.requestFailed { statusCode := 404, text := "Not Found" }))
  chat := .ok exampleChat

/-- The post is refused, the job fails, and nobody is told. -/
theorem refused_post_is_silent : ∃ tr r tr' u,
    Ends pullGone.sem (Py.waitFor (Reviewer.run exampleReviewer exampleJob)) () tr r () ∧
      Ends pullGone.sem (Worker.settle exampleOperator exampleJob r) () tr' u () ∧
      RecordsFailed exampleJob tr' ∧ ¬ Notifies pullGone.sem exampleOperator exampleJob tr' := by
  refine ⟨_, _, _, _, pullGone.ends _, pullGone.ends _, ⟨?_, some .githubFailure,
    some "404: Not Found", (0 : Nat), .ok (), ?_⟩, ?_⟩
  · exact List.mem_of_getElem? (i := 3) rfl
  · exact List.mem_of_getElem? (i := 1) rfl
  · -- the recorded outcome has no message
    intro hnotified
    have hsettle := pullGone.ends (Worker.settle exampleOperator exampleJob
      ((Py.waitFor (Reviewer.run exampleReviewer exampleJob)).eval pullGone.answer ()).2.1)
    rw [settle_eq (ne_cancelled_of_waitFor (pullGone.ends _))] at hsettle
    have hmessage := ((ends_persist (pullGone.genuine fun _ _ _ _ => nofun) hsettle).2.mp
      hnotified).2.2
    cases hmessage

end Silent

end VidiPr
