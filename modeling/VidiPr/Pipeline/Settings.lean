import VidiPr.Pipeline.Accounting

/-!
# Settings and prompts

Which settings the prompts of a review follow. `strictness` and `include_conversation` are set by
the effective repo config or else by the operator's `defaults`; `max_conversation_chars` is the
operator's. `prepare` decides on the conversation, and the composer on the strictness, where it has
the repo config alone.

* **`prepare_asks`** — the prompts of a run, whichever way it ends.
* **`settings_precedence`** — the composer falls back to `normal`, whatever `defaults` says.
* **`conversation_budget`** — nothing between the fetch and the composer cuts the conversation.
-/

namespace VidiPr

open Effect Prog Text

/-! ## The prompts of a run -/

/-- The prompts of a run: one for some of the chunks, from the first on, and then the synthesis. -/
structure AskedFor [UnicodeDb] [PromptFiles] (job : Job) (repoConfig : RepoConfig)
    (content : PRContent) (chunks : List Chunk) (tr : ReqTrace) : Prop where
  chunks_ne : chats tr ≠ [] → chunks ≠ []
  reviews : ∀ messages ∈ (chats tr).take chunks.length, ∃ chunk ∈ chunks, composeReviewPrompt
    repoConfig content.pr content.conversation chunk job.extraContext = .ok messages
  synthesis : ∀ messages ∈ (chats tr).drop chunks.length, ∃ outputs,
    composeSynthesisPrompt repoConfig outputs = .ok messages

theorem AskedFor.congr [UnicodeDb] [PromptFiles] {job : Job} {repoConfig : RepoConfig}
    {content : PRContent} {chunks : List Chunk} {tr tr' : ReqTrace}
    (h : AskedFor job repoConfig content chunks tr) (hchats : chats tr' = chats tr) :
    AskedFor job repoConfig content chunks tr' where
  chunks_ne := by rw [hchats]; exact h.chunks_ne
  reviews := by rw [hchats]; exact h.reviews
  synthesis := by rw [hchats]; exact h.synthesis

section Runs

variable [UnicodeDb] [PromptFiles] {σ : Type} {sem : Sem Req Req.Resp PyError σ} {s s' : σ}
  {tr : ReqTrace} {reviewer : Reviewer} {job : Job} {content : PRContent}
  {repoConfig : RepoConfig}

/-- The loop asks about one chunk after the other, until a call fails. -/
theorem reviewChunks_asks {total : Nat} {chunks : List Chunk} {index : Nat}
    {result : ChunksResult} {r : Except PyError ChunksResult}
    (h : Ends sem (Reviewer.reviewChunks reviewer job content repoConfig total chunks index result)
      s tr r s') :
    ∃ done rest, chunks = done ++ rest ∧ (∀ out, r = .ok out → rest = []) ∧
      List.Forall₂ (fun chunk messages => composeReviewPrompt repoConfig content.pr
        content.conversation chunk job.extraContext = .ok messages) done (chats tr) := by
  induction chunks generalizing index result s tr with
  | nil =>
    obtain ⟨rfl, -, -⟩ := ends_ret h
    exact ⟨[], [], rfl, fun _ _ => rfl, .nil⟩
  | cons chunk rest ih =>
    obtain ⟨r₁, tr₁, tr₂, s₁, rfl, hcompose, hrest⟩ := ends_andThen h
    obtain ⟨rfl, hr₁, rfl⟩ := run_ofExcept hcompose
    obtain rfl := ofExcept_inj hr₁
    obtain ⟨userText, huser⟩ := exists_renderUser repoConfig content.pr content.conversation chunk
      job.extraContext
    have hmessages := composeReviewPrompt_eq huser
    rw [hmessages] at hrest
    obtain ⟨r₂, tr₃, tr₄, s₂, rfl, hchat, hloop⟩ := ends_andThen hrest
    obtain ⟨rfl, -⟩ := ends_perform hchat
    cases r₂ with
    -- the call fails, and the other chunks are not asked about
    | error x =>
      obtain ⟨rfl, rfl, -⟩ := ends_raise hloop
      exact ⟨[chunk], rest, rfl, nofun, .cons hmessages .nil⟩
    -- the loop goes on
    | ok response =>
      obtain ⟨done, left, rfl, hall, hasked⟩ := ih hloop
      exact ⟨chunk :: done, left, rfl, hall, .cons hmessages hasked⟩

omit [UnicodeDb] in
/-- The synthesis asks at most once, in its own words. -/
theorem maybeSynthesize_prompts {outputs : List ParsedReview} {r : Except PyError SynthesisResult}
    (h : Ends sem (Reviewer.maybeSynthesize reviewer repoConfig outputs) s tr r s') :
    ∀ messages ∈ chats tr, ∃ outputs, composeSynthesisPrompt repoConfig outputs = .ok messages := by
  unfold Reviewer.maybeSynthesize at h
  split at h
  · obtain ⟨rfl, -, -⟩ := ends_ret h
    exact nofun
  · obtain ⟨r₁, tr₁, tr₂, s₁, rfl, hcompose, hask⟩ := ends_andThen h
    obtain ⟨rfl, hr₁, rfl⟩ := run_ofExcept hcompose
    obtain rfl := ofExcept_inj hr₁
    have hmessages := composeSynthesisPrompt_eq repoConfig (outputs.map (·.raw))
    rw [hmessages] at hask
    obtain ⟨r₂, tr₃, tr₄, s₂, rfl, hchat, hend⟩ := ends_andThen hask
    obtain ⟨rfl, -⟩ := ends_perform hchat
    have hnone : tr₄ = [] := by
      cases r₂ with
      | error x => exact (ends_raise hend).1
      | ok response => exact (ends_ret hend).1
    subst hnone
    intro messages hmem
    rw [List.mem_singleton.mp hmem]
    exact ⟨_, hmessages⟩

theorem askModel_asks {chunks : List Chunk} {r : Except PyError (ChunksResult × SynthesisResult)}
    (hchunks : chunks ≠ [])
    (h : Ends sem (Reviewer.askModel reviewer job content repoConfig chunks) s tr r s') :
    AskedFor job repoConfig content chunks tr := by
  obtain ⟨r₁, tr₁, tr₂, s₁, rfl, hrun, hrest⟩ := ends_andThen h
  obtain ⟨done, left, rfl, hall, hasked⟩ := reviewChunks_asks hrun
  have hlength := hasked.length_eq
  have hreview : ∀ messages ∈ chats tr₁, ∃ chunk ∈ done ++ left, composeReviewPrompt repoConfig
      content.pr content.conversation chunk job.extraContext = .ok messages := by
    intro messages hmem
    obtain ⟨i, hi, rfl⟩ := List.mem_iff_getElem.mp hmem
    have hchunk : i < done.length := by omega
    exact ⟨done[i], List.mem_append_left _ (List.getElem_mem hchunk),
      hasked.get hchunk hi⟩
  -- either the loop failed and nothing more is asked, or it asked about every chunk
  have hsplit : (chats tr₂ = [] ∨ left = []) ∧ ∀ messages ∈ chats tr₂, ∃ outputs,
      composeSynthesisPrompt repoConfig outputs = .ok messages := by
    cases r₁ with
    | error x =>
      obtain ⟨rfl, -, -⟩ := ends_raise hrest
      exact ⟨Or.inl rfl, nofun⟩
    | ok out =>
      refine ⟨Or.inr (hall out rfl), ?_⟩
      obtain ⟨r₂, tr₃, tr₄, s₂, rfl, hsynthesis, hret⟩ := ends_andThen hrest
      have hnone : tr₄ = [] := by
        cases r₂ with
        | error x => exact (ends_raise hret).1
        | ok synthesis => exact (ends_ret hret).1
      rw [hnone, List.append_nil]
      exact maybeSynthesize_prompts hsynthesis
  obtain ⟨hend, hsynthesis⟩ := hsplit
  refine ⟨fun _ => hchunks, ?_, ?_⟩
  · intro messages hmem
    rw [chats_append] at hmem
    rcases hend with hnone | rfl
    · rw [hnone, List.append_nil] at hmem
      exact hreview messages (List.mem_of_mem_take hmem)
    · rw [List.append_nil, hlength, List.take_left] at hmem
      exact hreview messages hmem
  · intro messages hmem
    rw [chats_append] at hmem
    rcases hend with hnone | rfl
    · rw [hnone, List.append_nil, List.drop_eq_nil_of_le] at hmem
      · cases hmem
      · rw [List.length_append, ← hlength]
        exact Nat.le_add_right _ _
    · rw [List.append_nil, hlength, List.drop_left] at hmem
      exact hsynthesis messages hmem

variable [ConfigLibrary]

theorem reviewContent_asks {started : Nat} {r : Except PyError RenderedReview}
    (h : Ends sem (Reviewer.reviewContent reviewer job started repoConfig content) s tr r s') :
    AskedFor job repoConfig content (packChunks reviewer.packLimits
      (Reviewer.filterFiles content.files repoConfig)).chunks tr := by
  have hquiet : chats tr = [] → AskedFor job repoConfig content (packChunks reviewer.packLimits
      (Reviewer.filterFiles content.files repoConfig)).chunks tr := by
    intro hnone
    refine ⟨fun hasks => absurd hnone hasks, ?_, ?_⟩ <;> rw [hnone]
    · rw [List.take_nil]
      exact nofun
    · rw [List.drop_nil]
      exact nofun
  have hclock : ∀ {started detail}, Ends sem (Reviewer.endEarly started detail) s tr r s' →
      chats tr = [] := by
    intro started detail hend
    obtain ⟨r₁, tr₁, tr₂, s₁, rfl, hnow, hret⟩ := ends_andThen hend
    obtain ⟨rfl, -⟩ := ends_perform hnow
    cases r₁ with
    | error x => rw [(ends_raise hret).1]; rfl
    | ok now => rw [(ends_ret hret).1]; rfl
  unfold Reviewer.reviewContent at h
  dsimp only at h
  split at h
  · exact hquiet (hclock h)
  split at h
  · exact hquiet (hclock h)
  rename_i hchunks
  obtain ⟨r₁, tr₁, tr₂, s₁, rfl, hmodel, hrest⟩ := ends_andThen h
  have hasked := askModel_asks (fun hnil => hchunks (List.isEmpty_iff.mpr hnil)) hmodel
  -- what follows the calls reads the clock
  have hnone : chats tr₂ = [] := by
    cases r₁ with
    | ok answer =>
      obtain ⟨r₂, tr₃, tr₄, s₂, rfl, hnow, hret⟩ := ends_andThen hrest
      obtain ⟨rfl, -⟩ := ends_perform hnow
      cases r₂ with
      | error x => rw [(ends_raise hret).1]; rfl
      | ok now => rw [(ends_ret hret).1]; rfl
    | error x =>
      dsimp only at hrest
      split at hrest
      · obtain ⟨r₂, tr₃, tr₄, s₂, rfl, hfailure, hret⟩ := ends_andThen hrest
        obtain ⟨r₃, tr₅, tr₆, s₃, rfl, hnow, hend⟩ := ends_andThen hfailure
        obtain ⟨rfl, -⟩ := ends_perform hnow
        have hlast : tr₄ = [] := by
          cases r₂ with
          | error y => exact (ends_raise hret).1
          | ok result => exact (ends_ret hret).1
        cases r₃ with
        | error y => rw [(ends_raise hend).1, hlast]; rfl
        | ok now => rw [(ends_ret hend).1, hlast]; rfl
      · rw [(ends_raise hrest).1]
        rfl
  have hchats : chats (tr₁ ++ tr₂) = chats tr₁ := by
    rw [chats_append, hnone, List.append_nil]
  exact hasked.congr hchats

/-! ## The comments of a run -/

/-- `conversation` is what the run read of the comments, if they are included. -/
def Discussed (sem : Sem Req Req.Resp PyError σ) (reviewer : Reviewer) (job : Job)
    (included : Bool) (tr : ReqTrace) (conversation : List ConversationComment) : Prop :=
  if included then
    ∃ s₁ trComments comments s₂, trComments <:+: tr ∧
      Ends sem (GitHubClient.getPrComments job.installationId job.repo job.prNumber) s₁ trComments
        (.ok comments) s₂ ∧
      conversation = comments.filter (Reviewer.inConversation reviewer.botLogin)
  else conversation = []

omit [PromptFiles] [ConfigLibrary] in
theorem Discussed.mono {included : Bool} {tr tr' : ReqTrace}
    {conversation : List ConversationComment} (hsub : tr <:+: tr')
    (h : Discussed sem reviewer job included tr conversation) :
    Discussed sem reviewer job included tr' conversation := by
  unfold Discussed at h ⊢
  split
  · rename_i hincluded
    rw [if_pos hincluded] at h
    obtain ⟨s₁, trComments, comments, s₂, hinfix, hread⟩ := h
    exact ⟨s₁, trComments, comments, s₂, hinfix.trans hsub, hread⟩
  · rename_i hincluded
    rwa [if_neg hincluded] at h

omit [PromptFiles] [ConfigLibrary] in
/-- The comments are read where the setting includes them, and not otherwise. -/
theorem fetchPrContent_discussed {included : Bool}
    (h : Ends sem (Reviewer.fetchPrContent job included reviewer.botLogin) s tr (.ok content) s') :
    Discussed sem reviewer job included tr content.conversation := by
  obtain ⟨pr, tr₁, t₁, s₁, rfl, -, hfiles⟩ := ends_bind_ok h
  obtain ⟨files, tr₂, t₂, s₂, rfl, -, hcomments⟩ := ends_bind_ok hfiles
  unfold Discussed
  cases included with
  | false =>
    obtain ⟨-, hcontent, -⟩ := ends_ret hcomments
    cases hcontent
    rfl
  | true =>
    obtain ⟨comments, tr₃, t₃, s₃, rfl, hread, hfilter⟩ := ends_bind_ok hcomments
    obtain ⟨rfl, hcontent, -⟩ := ends_ret hfilter
    cases hcontent
    refine ⟨s₂, tr₃, comments, s₃, ⟨tr₁ ++ tr₂, [], ?_⟩, hread, rfl⟩
    simp only [List.append_nil, List.append_assoc]

/-- The setting that decides on the conversation. -/
def Reviewer.included (reviewer : Reviewer) (repoConfig : RepoConfig) : Bool :=
  repoConfig.review.includeConversation.getD reviewer.defaults.includeConversation

omit [PromptFiles] in
theorem gather_discussed {skipDraftCheck : Bool} {started : Nat}
    (h : Ends sem (Reviewer.gather reviewer job skipDraftCheck) s tr
      (.ok (.content started repoConfig content)) s') :
    Discussed sem reviewer job (reviewer.included repoConfig) tr content.conversation := by
  obtain ⟨now, tr₁, t₁, s₁, rfl, -, hpr⟩ := ends_bind_ok h
  obtain ⟨pr, tr₂, t₂, s₂, rfl, -, hrest⟩ := ends_bind_ok hpr
  split at hrest
  · obtain ⟨-, hcontent, -⟩ := ends_ret hrest
    cases hcontent
  · obtain ⟨config, tr₃, t₃, s₃, rfl, -, hfetch⟩ := ends_bind_ok hrest
    obtain ⟨fetched, tr₄, t₄, s₄, rfl, hread, hret⟩ := ends_bind_ok hfetch
    obtain ⟨rfl, hcontent, -⟩ := ends_ret hret
    cases hcontent
    refine (fetchPrContent_discussed hread).mono ⟨tr₁ ++ (tr₂ ++ tr₃), [], ?_⟩
    simp only [List.append_nil, List.append_assoc]

/-- The prompts of a run of `prepare`: nothing is asked before the content is read. -/
theorem prepare_asks {skipDraftCheck : Bool} {r : Except PyError RenderedReview}
    (h : Ends sem (Reviewer.prepare reviewer job skipDraftCheck) s tr r s')
    (hasks : chats tr ≠ []) :
    ∃ started repoConfig content trRead trAsk s₁, tr = trRead ++ trAsk ∧
      Ends sem (Reviewer.gather reviewer job skipDraftCheck) s trRead
        (.ok (.content started repoConfig content)) s₁ ∧
      AskedFor job repoConfig content (packChunks reviewer.packLimits
        (Reviewer.filterFiles content.files repoConfig)).chunks tr := by
  rw [Reviewer.prepare_eq] at h
  obtain ⟨gathered, trRead, trAsk, s₁, rfl, hread, hask⟩ := ends_andThen h
  obtain ⟨hnone, -⟩ : chats trRead = [] ∧ replies trRead = [] :=
    chats_of_reads ((Reviewer.gather_calls reviewer job skipDraftCheck).run hread).1
  have hchats : chats (trRead ++ trAsk) = chats trAsk := by
    rw [chats_append, hnone, List.nil_append]
  rw [hchats] at hasks
  cases gathered with
  | error x =>
    rw [(ends_raise hask).1] at hasks
    exact absurd rfl hasks
  | ok gathered =>
    cases gathered with
    -- a draft ends without a prompt
    | draft started =>
      obtain ⟨r₁, tr₁, tr₂, s₂, rfl, hnow, hret⟩ := ends_andThen hask
      obtain ⟨rfl, -⟩ := ends_perform hnow
      have hlast : tr₂ = [] := by
        cases r₁ with
        | error x => exact (ends_raise hret).1
        | ok now => exact (ends_ret hret).1
      rw [hlast] at hasks
      exact absurd rfl hasks
    | content started repoConfig content =>
      refine ⟨started, repoConfig, content, trRead, trAsk, s₁, rfl, hread, ?_⟩
      exact (reviewContent_asks hask).congr hchats

/-! ## Precedence -/

omit [UnicodeDb] [ConfigLibrary] in
/-- The strictness of a system message shows in its block only. -/
theorem systemText_inj {strictness strictness' : Strictness} :
    PromptFiles.systemText strictness = PromptFiles.systemText strictness' ↔
      PromptFiles.strictnessBlock strictness = PromptFiles.strictnessBlock strictness' := by
  simp only [PromptFiles.systemText, String.append_right_inj, String.append_left_inj]

/-- `messages` starts with the system message of a strictness. -/
def UnderStrictness (strictness : Strictness) (messages : List Message) : Prop :=
  messages.head? = some { role := .system, content := PromptFiles.systemText strictness }

/-- `messages` is a review prompt that shows a conversation, or none where it is empty. -/
def ShowsConversation (conversation : List ConversationComment) (messages : List Message) :
    Prop :=
  ∃ systemText userText values,
    messages =
      [{ role := .system, content := systemText }, { role := .user, content := userText }] ∧
      values.lookup "pr_conversation_block" =
        some (if conversation.isEmpty then "" else renderConversation conversation) ∧
      renderTemplate values reviewUser = .ok userText

/-- The prompts follow the repo config where it has a setting and the operator's defaults where it
has none. The first `chunkCount` of them are the review prompts. -/
structure FollowsSettings (sem : Sem Req Req.Resp PyError σ) (reviewer : Reviewer) (job : Job)
    (repoConfig : RepoConfig) (chunkCount : Nat) (tr : ReqTrace) : Prop where
  strictness : ∀ messages ∈ chats tr, UnderStrictness
    (repoConfig.review.strictness.getD reviewer.defaults.strictness) messages
  conversation : ∃ conversation,
    Discussed sem reviewer job (reviewer.included repoConfig) tr conversation ∧
      ∀ messages ∈ (chats tr).take chunkCount, ShowsConversation conversation messages

omit [ConfigLibrary] in
/-- The composer's own fallback does no harm: where it includes the conversation against the
operator's default, there is none. -/
theorem composeReviewPrompt_conversation {tr : ReqTrace} {chunk : Chunk} {messages : List Message}
    (hdiscussed : Discussed sem reviewer job (reviewer.included repoConfig) tr content.conversation)
    (h : composeReviewPrompt repoConfig content.pr content.conversation chunk job.extraContext =
      .ok messages) : ShowsConversation content.conversation messages := by
  obtain ⟨userText, huser⟩ := exists_renderUser repoConfig content.pr content.conversation chunk
    job.extraContext
  rw [composeReviewPrompt_eq huser] at h
  cases h
  refine ⟨_, userText, _, rfl, ?_, huser⟩
  have hblock : (userValues repoConfig content.pr content.conversation chunk
      job.extraContext).lookup "pr_conversation_block" = some
        (if repoConfig.review.includeConversation.getD true ∧ ¬ content.conversation.isEmpty then
          renderConversation content.conversation else "") := rfl
  rw [hblock]
  cases hempty : content.conversation.isEmpty with
  -- there is none to include
  | true => simp
  -- there is one, so it was fetched, and the setting included it
  | false =>
    have hincluded : reviewer.included repoConfig = true := by
      by_contra hnot
      rw [Discussed, if_neg hnot] at hdiscussed
      rw [hdiscussed] at hempty
      cases hempty
    have hshown : repoConfig.review.includeConversation.getD true = true := by
      unfold Reviewer.included at hincluded
      cases hsetting : repoConfig.review.includeConversation with
      | none => rfl
      | some value =>
        rw [hsetting] at hincluded
        exact hincluded
    simp [hshown]

omit [ConfigLibrary] in
/-- All prompts of a run are under the strictness the composer takes. -/
theorem AskedFor.strictness {chunks : List Chunk}
    (h : AskedFor job repoConfig content chunks tr) : ∀ messages ∈ chats tr,
      UnderStrictness (repoConfig.review.strictness.getD .normal) messages := by
  intro messages hmem
  rw [← List.take_append_drop chunks.length (chats tr)] at hmem
  rcases List.mem_append.mp hmem with hreview | hsynthesis
  · obtain ⟨chunk, -, hmessages⟩ := h.reviews messages hreview
    obtain ⟨userText, huser⟩ := exists_renderUser repoConfig content.pr content.conversation chunk
      job.extraContext
    rw [composeReviewPrompt_eq huser] at hmessages
    cases hmessages
    rfl
  · obtain ⟨outputs, hmessages⟩ := h.synthesis messages hsynthesis
    rw [composeSynthesisPrompt_eq] at hmessages
    cases hmessages
    rfl

/-- Every prompt follows the settings exactly where the strictness that `_render_system` falls back
to reads as the operator's default does: that is the one setting whose default is not passed on. -/
theorem settings_precedence {skipDraftCheck : Bool} {r : Except PyError RenderedReview}
    (h : Ends sem (Reviewer.prepare reviewer job skipDraftCheck) s tr r s')
    (hasks : chats tr ≠ []) :
    ∃ started repoConfig content trRead trAsk s₁, tr = trRead ++ trAsk ∧
      Ends sem (Reviewer.gather reviewer job skipDraftCheck) s trRead
        (.ok (.content started repoConfig content)) s₁ ∧
      (FollowsSettings sem reviewer job repoConfig (packChunks reviewer.packLimits
          (Reviewer.filterFiles content.files repoConfig)).chunks.length tr ↔
        (repoConfig.review.strictness = none →
          PromptFiles.strictnessBlock reviewer.defaults.strictness =
            PromptFiles.strictnessBlock .normal)) := by
  obtain ⟨started, repoConfig, content, trRead, trAsk, s₁, htr, hread, hasked⟩ :=
    prepare_asks h hasks
  refine ⟨started, repoConfig, content, trRead, trAsk, s₁, htr, hread, ?_⟩
  have hdiscussed : Discussed sem reviewer job (reviewer.included repoConfig) tr
      content.conversation := (gather_discussed hread).mono ⟨[], trAsk, by rw [htr]; rfl⟩
  have hstrictness : (∀ messages ∈ chats tr, UnderStrictness
      (repoConfig.review.strictness.getD reviewer.defaults.strictness) messages) ↔
        (repoConfig.review.strictness = none →
          PromptFiles.strictnessBlock reviewer.defaults.strictness =
            PromptFiles.strictnessBlock .normal) := by
    cases hsetting : repoConfig.review.strictness with
    -- the repository sets it, and the prompt follows
    | some strictness =>
      refine iff_of_true ?_ nofun
      have hall := hasked.strictness
      rwa [hsetting] at hall
    -- it does not: the prompt is that of `normal`
    | none =>
      have hall := hasked.strictness
      rw [hsetting] at hall
      rw [forall_prop_of_true rfl, ← systemText_inj]
      constructor
      · intro hfollows
        obtain ⟨messages, hmem⟩ := List.exists_mem_of_ne_nil _ hasks
        have hsame := (hfollows messages hmem).symm.trans (hall messages hmem)
        exact congrArg Message.content (Option.some.inj hsame)
      · intro hsame messages hmem
        have hunder := hall messages hmem
        rwa [UnderStrictness, Option.getD_none, ← hsame] at hunder
  constructor
  · intro hfollows
    exact hstrictness.mp hfollows.strictness
  · intro hcondition
    refine ⟨hstrictness.mpr hcondition, content.conversation, hdiscussed, ?_⟩
    intro messages hmem
    obtain ⟨chunk, -, hmessages⟩ := hasked.reviews messages hmem
    exact composeReviewPrompt_conversation hdiscussed hmessages

/-! ## The budget of the conversation -/

/-- The characters of comment content in a conversation. -/
def commentChars (conversation : List ConversationComment) : Nat :=
  (conversation.map (·.body.length)).sum

/-- Each of the first `chunkCount` prompts shows `conversation`, and at most `limit` characters of
comment content with it. -/
def WithinBudget (limit : Nat) (conversation : List ConversationComment) (chunkCount : Nat)
    (tr : ReqTrace) : Prop :=
  ∀ messages ∈ (chats tr).take chunkCount,
    ShowsConversation conversation messages ∧ commentChars conversation ≤ limit

theorem conversation_budget {skipDraftCheck : Bool} {r : Except PyError RenderedReview}
    (h : Ends sem (Reviewer.prepare reviewer job skipDraftCheck) s tr r s')
    (hasks : chats tr ≠ []) :
    ∃ started repoConfig content trRead trAsk s₁, tr = trRead ++ trAsk ∧
      Ends sem (Reviewer.gather reviewer job skipDraftCheck) s trRead
        (.ok (.content started repoConfig content)) s₁ ∧
      ∃ comments, (reviewer.included repoConfig = true → ∃ s₂ trComments s₃, trComments <:+: tr ∧
          Ends sem (GitHubClient.getPrComments job.installationId job.repo job.prNumber) s₂
            trComments (.ok comments) s₃) ∧
        (WithinBudget reviewer.pipeline.maxConversationChars content.conversation (packChunks
            reviewer.packLimits (Reviewer.filterFiles content.files repoConfig)).chunks.length tr ↔
          (reviewer.included repoConfig = true →
            commentChars (comments.filter (Reviewer.inConversation reviewer.botLogin)) ≤
              reviewer.pipeline.maxConversationChars)) := by
  obtain ⟨started, repoConfig, content, trRead, trAsk, s₁, htr, hread, hasked⟩ :=
    prepare_asks h hasks
  refine ⟨started, repoConfig, content, trRead, trAsk, s₁, htr, hread, ?_⟩
  have hdiscussed : Discussed sem reviewer job (reviewer.included repoConfig) tr
      content.conversation := (gather_discussed hread).mono ⟨[], trAsk, by rw [htr]; rfl⟩
  have hbudget : WithinBudget reviewer.pipeline.maxConversationChars content.conversation
      (packChunks reviewer.packLimits
        (Reviewer.filterFiles content.files repoConfig)).chunks.length tr ↔
      commentChars content.conversation ≤ reviewer.pipeline.maxConversationChars := by
    constructor
    · intro hwithin
      -- there is a prompt, and the first is a review prompt
      have hsome : (chats tr).take (packChunks reviewer.packLimits
          (Reviewer.filterFiles content.files repoConfig)).chunks.length ≠ [] := by
        intro hnil
        rcases List.take_eq_nil_iff.mp hnil with hzero | hnone
        · exact hasked.chunks_ne hasks (List.length_eq_zero_iff.mp hzero)
        · exact hasks hnone
      obtain ⟨messages, hmem⟩ := List.exists_mem_of_ne_nil _ hsome
      exact (hwithin messages hmem).2
    · intro hfits messages hmem
      obtain ⟨chunk, -, hmessages⟩ := hasked.reviews messages hmem
      exact ⟨composeReviewPrompt_conversation hdiscussed hmessages, hfits⟩
  unfold Discussed at hdiscussed
  cases hincluded : reviewer.included repoConfig with
  | false =>
    rw [if_neg (by simp [hincluded])] at hdiscussed
    refine ⟨[], nofun, hbudget.trans (iff_of_true ?_ nofun)⟩
    rw [hdiscussed]
    exact Nat.zero_le _
  | true =>
    rw [if_pos hincluded] at hdiscussed
    obtain ⟨s₂, trComments, comments, s₃, hinfix, hcomments, hfilter⟩ := hdiscussed
    refine ⟨comments, fun _ => ⟨s₂, trComments, s₃, hinfix, hcomments⟩, hbudget.trans ?_⟩
    rw [hfilter, forall_prop_of_true rfl]

end Runs

section Example

attribute [local instance] asciiDb exampleLibrary

/-- Prompt files that name the strictness. -/
@[reducible] def namedPrompts : PromptFiles where
  systemHead := "Review. "
  systemTail := "\n"
  synthesisHead := "Merge. "
  synthesisTail := "\n"
  strictnessBlock := Strictness.value
  languageNote _ := ""

attribute [local instance] namedPrompts

/-- The operator asks for strict reviews, and allows ten characters of conversation. -/
def strictReviewer : Reviewer := { exampleReviewer with
  defaults := { strictness := .strict }
  pipeline := { maxConversationChars := 10 } }

/-- The repository has a config file without settings. -/
def emptyConfig : Replies where
  github
    | .reposGetContent .. => .ok {
        statusCode := 200
        etag := none
        parsedData := .file "base64" "" }
    | op => exampleGithub (.ok (1 : Nat)) op
  chat := .ok exampleChat

/-- The repository has no config file, and one comment. -/
def longComment : Replies where
  github
    | .issuesListComments .. => .ok [{
        user := some { login := "alice", type := "User" }
        body := some "What about restarts?"
        createdAt := {
          year := 2026
          month := 3
          day := 1
          hour := 9
          minute := 0
          second := 0
          microsecond := 0
          utcOffset := some 0 } }]
    | op => exampleGithub (.ok (1 : Nat)) op
  chat := .ok exampleChat

theorem settings_precedence_absent : ∃ started repoConfig content trRead trAsk,
    ((Reviewer.prepare strictReviewer exampleJob false).eval longComment.answer ()).1 =
        trRead ++ trAsk ∧
      Ends longComment.sem (Reviewer.gather strictReviewer exampleJob false) () trRead
        (.ok (.content started repoConfig content)) () ∧
      (FollowsSettings longComment.sem strictReviewer exampleJob repoConfig
          (packChunks strictReviewer.packLimits
            (Reviewer.filterFiles content.files repoConfig)).chunks.length
          ((Reviewer.prepare strictReviewer exampleJob false).eval longComment.answer ()).1 ↔
        (repoConfig.review.strictness = none →
          PromptFiles.strictnessBlock strictReviewer.defaults.strictness =
            PromptFiles.strictnessBlock .normal)) := by
  obtain ⟨started, repoConfig, content, trRead, trAsk, s₁, htr, hread, hfollows⟩ :=
    settings_precedence (longComment.ends (Reviewer.prepare strictReviewer exampleJob false))
      (by decide +kernel)
  exact ⟨started, repoConfig, content, trRead, trAsk, htr, hread, hfollows⟩

/-- A config file that leaves the strictness open makes it `normal`. -/
theorem default_strictness_ignored : ∃ tr r started repoConfig content trRead,
    Ends emptyConfig.sem (Reviewer.prepare strictReviewer exampleJob false) () tr r () ∧
      Ends emptyConfig.sem (Reviewer.gather strictReviewer exampleJob false) () trRead
        (.ok (.content started repoConfig content)) () ∧
      ¬ FollowsSettings emptyConfig.sem strictReviewer exampleJob repoConfig
        (packChunks strictReviewer.packLimits
          (Reviewer.filterFiles content.files repoConfig)).chunks.length tr := by
  refine ⟨_, _, _, {}, _, _, emptyConfig.ends _, emptyConfig.ends _, fun hfollows => ?_⟩
  have hstrict := hfollows.strictness
  revert hstrict
  unfold UnderStrictness
  decide +kernel

theorem conversation_budget_comment : ∃ started repoConfig content trRead trAsk,
    ((Reviewer.prepare strictReviewer exampleJob false).eval longComment.answer ()).1 =
        trRead ++ trAsk ∧
      Ends longComment.sem (Reviewer.gather strictReviewer exampleJob false) () trRead
        (.ok (.content started repoConfig content)) () ∧
      ∃ comments, (strictReviewer.included repoConfig = true → ∃ s₂ trComments s₃,
          trComments <:+:
            ((Reviewer.prepare strictReviewer exampleJob false).eval longComment.answer ()).1 ∧
          Ends longComment.sem (GitHubClient.getPrComments 5 "o/r" 7) s₂ trComments
            (.ok comments) s₃) ∧
        (WithinBudget 10 content.conversation (packChunks strictReviewer.packLimits
            (Reviewer.filterFiles content.files repoConfig)).chunks.length
            ((Reviewer.prepare strictReviewer exampleJob false).eval longComment.answer ()).1 ↔
          (strictReviewer.included repoConfig = true →
            commentChars (comments.filter (Reviewer.inConversation "vidi-pr[bot]")) ≤ 10)) := by
  obtain ⟨started, repoConfig, content, trRead, trAsk, s₁, htr, hread, hbudget⟩ :=
    conversation_budget (longComment.ends (Reviewer.prepare strictReviewer exampleJob false))
      (by decide +kernel)
  exact ⟨started, repoConfig, content, trRead, trAsk, htr, hread, hbudget⟩

/-- A comment of 20 characters is placed whole where ten are allowed. -/
theorem long_comment_exceeds_budget : ∃ tr r started repoConfig content trRead,
    Ends longComment.sem (Reviewer.prepare strictReviewer exampleJob false) () tr r () ∧
      Ends longComment.sem (Reviewer.gather strictReviewer exampleJob false) () trRead
        (.ok (.content started repoConfig content)) () ∧
      commentChars content.conversation = 20 ∧
      strictReviewer.pipeline.maxConversationChars = 10 ∧
      ¬ WithinBudget strictReviewer.pipeline.maxConversationChars content.conversation
        (packChunks strictReviewer.packLimits
          (Reviewer.filterFiles content.files repoConfig)).chunks.length tr := by
  have hchats : ∃ messages, messages ∈ (chats
      ((Reviewer.prepare strictReviewer exampleJob false).eval longComment.answer ()).1).take 1 :=
    List.exists_mem_of_ne_nil _ (by decide +kernel)
  obtain ⟨messages, hmem⟩ := hchats
  refine ⟨_, _, _, _, _, _, longComment.ends _, longComment.ends _, by decide +kernel, rfl,
    fun hwithin => ?_⟩
  have hfits := (hwithin messages hmem).2
  revert hfits
  decide +kernel

end Example

end VidiPr
