import VidiPr.Pipeline.Coverage

/-!
# Calls, prompts and tokens

What a review reports of its calls to the model, against the calls themselves: one for each chunk in
the order of the chunks, and one more that merges the replies where there are several chunks. The
loop of `_run_chunks` counts in variables of its own, and `prepare` adds what the synthesis took.

* **`reviewChunks_answered`** — if every prompt is replied to, the loop goes through all chunks.
* **`calls_accounted`** — over the runs of `prepare`.
-/

namespace VidiPr

open Effect Prog Text

/-! ## Replies and calls -/

/-- A call has one reply at most. -/
theorem replies_length_le (tr : ReqTrace) : (replies tr).length ≤ (chats tr).length := by
  induction tr with
  | nil => exact Nat.le_refl 0
  | cons c tr ih =>
    rcases c with ⟨q | e, r⟩
    · exact ih
    · cases e with
      | chat messages temperature maxTokens =>
        cases r with
        | ok response => exact Nat.succ_le_succ ih
        | error x => exact Nat.le_succ_of_le ih
      | _ => exact ih

/-- Where every call has its reply, so has every call of a part of the run. -/
theorem replies_split {tr tr' : ReqTrace}
    (h : (replies (tr ++ tr')).length = (chats (tr ++ tr')).length) :
    (replies tr).length = (chats tr).length ∧ (replies tr').length = (chats tr').length := by
  have hfirst := replies_length_le tr
  have hsecond := replies_length_le tr'
  rw [replies_append, chats_append, List.length_append, List.length_append] at h
  omega

/-! ## What is accounted for -/

/-- The tail of a footer: the two counts and their total. -/
def tokenCounts (promptTokens completionTokens : Int) : String :=
  toString promptTokens ++ "+" ++ toString completionTokens ++ "=" ++
    toString (promptTokens + completionTokens) ++ "_"

/-- The calls of the run `tr` are those the chunks ask for, and `prepared` reports them. -/
structure Accounted [UnicodeDb] [PromptFiles] (job : Job) (repoConfig : RepoConfig)
    (content : PRContent) (chunks : List Chunk) (tr : ReqTrace) (prepared : Prepared) :
    Prop where
  calls : (chats tr).length = if chunks.length = 1 then 1 else chunks.length + 1
  reviews : List.Forall₂ (fun chunk messages => composeReviewPrompt repoConfig content.pr
    content.conversation chunk job.extraContext = .ok messages) chunks
    ((chats tr).take chunks.length)
  /-- The call after those of the chunks shows what they were replied. -/
  synthesis : 1 < chunks.length → ∃ systemText, (chats tr)[chunks.length]? = some [
    { role := .system, content := systemText },
    { role := .user, content := PromptFiles.synthesisHead ++
        (chunksText (((replies tr).take chunks.length).map (·.content)) ++
          PromptFiles.synthesisTail) }]
  prompts : prepared.prompts.map (·.messages) = chats tr
  promptTokens : prepared.promptTokens = ((replies tr).map (·.usage.promptTokens)).sum
  completionTokens :
    prepared.completionTokens = ((replies tr).map (·.usage.completionTokens)).sum
  footer : ∃ text, prepared.body = truncate (text ++
    tokenCounts ((replies tr).map (·.usage.promptTokens)).sum
      ((replies tr).map (·.usage.completionTokens)).sum)

/-- Only the calls and the replies of the run count. -/
theorem Accounted.congr [UnicodeDb] [PromptFiles] {job : Job} {repoConfig : RepoConfig}
    {content : PRContent} {chunks : List Chunk} {tr tr' : ReqTrace} {prepared : Prepared}
    (h : Accounted job repoConfig content chunks tr prepared) (hchats : chats tr' = chats tr)
    (hreplies : replies tr' = replies tr) :
    Accounted job repoConfig content chunks tr' prepared where
  calls := by rw [hchats]; exact h.calls
  reviews := by rw [hchats]; exact h.reviews
  synthesis := by rw [hchats, hreplies]; exact h.synthesis
  prompts := by rw [hchats]; exact h.prompts
  promptTokens := by rw [hreplies]; exact h.promptTokens
  completionTokens := by rw [hreplies]; exact h.completionTokens
  footer := by rw [hreplies]; exact h.footer

/-- A footer ends in the counts. -/
theorem renderFooter_counts (model : String) (durationNanos : Nat)
    (promptTokens completionTokens : Int) :
    ∃ text, renderFooter model durationNanos promptTokens completionTokens =
      text ++ tokenCounts promptTokens completionTokens := by
  refine ⟨"---\n_Reviewed by vidi-pr - model: " ++ model ++ " - took " ++
    formatDuration durationNanos ++ " - tokens: ", ?_⟩
  unfold renderFooter tokenCounts
  simp only [String.append_assoc]

/-- So does the body, before it is cut. -/
theorem renderReviewBody_counts (review : ReviewBody) : ∃ text, renderReviewBody review =
    truncate (text ++ tokenCounts review.promptTokens review.completionTokens) := by
  obtain ⟨text, htext⟩ := renderFooter_counts review.model review.durationNanos
    review.promptTokens review.completionTokens
  refine ⟨reviewText review.parsed review.reasoningChars review.finishReason ++
    skippedSection review.skipped ++ "\n\n" ++ text, ?_⟩
  rw [renderReviewBody, ReviewBody.full, htext, ← String.append_assoc]

/-- A reply is kept as it is. -/
@[simp] theorem parseReviewOutput_raw (text : String) : (parseReviewOutput text).raw = text := by
  unfold parseReviewOutput
  dsimp only
  split <;> rfl

/-! ## The loop and the synthesis -/

section Runs

variable [UnicodeDb] [PromptFiles] {σ : Type} {sem : Sem Req Req.Resp PyError σ} {s s' : σ}
  {tr : ReqTrace} {reviewer : Reviewer} {job : Job} {content : PRContent}
  {repoConfig : RepoConfig}

/-- If every prompt is replied to, the loop goes through all chunks, and keeps the prompts. A chunk
without a reply would have ended the loop with the error, so the count of replies is enough. -/
theorem reviewChunks_answered {total : Nat} {chunks : List Chunk} {index : Nat}
    {result : ChunksResult} {r : Except PyError ChunksResult}
    (h : Ends sem (Reviewer.reviewChunks reviewer job content repoConfig total chunks index result)
      s tr r s') (hreplied : (replies tr).length = (chats tr).length) :
    ∃ out, r = .ok out ∧ out.prompts.map (·.messages) =
      result.prompts.map (·.messages) ++ chats tr ∧
      List.Forall₂ (fun chunk messages => composeReviewPrompt repoConfig content.pr
        content.conversation chunk job.extraContext = .ok messages) chunks (chats tr) := by
  induction chunks generalizing index result s tr with
  -- no chunk is left, and nothing is asked
  | nil =>
    obtain ⟨rfl, rfl, -⟩ := ends_ret h
    exact ⟨result, rfl, (List.append_nil _).symm, .nil⟩
  | cons chunk rest ih =>
    obtain ⟨r₁, tr₁, tr₂, s₁, rfl, hcompose, hrest⟩ := ends_andThen h
    obtain ⟨rfl, hr₁, rfl⟩ := run_ofExcept hcompose
    obtain rfl := ofExcept_inj hr₁
    -- composing cannot fail, and asks for nothing
    obtain ⟨userText, huser⟩ := exists_renderUser repoConfig content.pr content.conversation chunk
      job.extraContext
    have hmessages := composeReviewPrompt_eq huser
    rw [hmessages] at hrest
    obtain ⟨r₂, tr₃, tr₄, s₂, rfl, hchat, hloop⟩ := ends_andThen hrest
    obtain ⟨rfl, -⟩ := ends_perform hchat
    have hcall := replies_split (List.nil_append _ ▸ hreplied)
    cases r₂ with
    -- a prompt without a reply contradicts the count
    | error x => exact absurd hcall.1 Nat.zero_ne_one
    | ok response =>
      obtain ⟨out, rfl, hprompts, hcomposed⟩ := ih hloop hcall.2
      refine ⟨out, rfl, ?_, .cons hmessages hcomposed⟩
      rw [hprompts, Reviewer.ChunksResult.add, List.map_append, List.append_assoc]
      rfl

omit [UnicodeDb] in
/-- So is the synthesis asked for, unless there is one output. -/
theorem maybeSynthesize_answered {outputs : List ParsedReview}
    {r : Except PyError SynthesisResult}
    (h : Ends sem (Reviewer.maybeSynthesize reviewer repoConfig outputs) s tr r s')
    (hreplied : (replies tr).length = (chats tr).length) :
    ∃ synthesis, r = .ok synthesis ∧ synthesis.prompt.toList.map (·.messages) = chats tr ∧
      if outputs.length = 1 then tr = [] else chats tr = [[
        { role := .system
          content := PromptFiles.systemText (repoConfig.review.strictness.getD .normal) },
        { role := .user, content := PromptFiles.synthesisHead ++
            (chunksText (outputs.map (·.raw)) ++ PromptFiles.synthesisTail) }]] := by
  unfold Reviewer.maybeSynthesize at h
  split at h
  · -- one output is passed on as it is
    obtain ⟨rfl, rfl, -⟩ := ends_ret h
    exact ⟨_, rfl, rfl, rfl⟩
  · rename_i hmany
    -- there are several, or none, and the model is asked once
    have hlength : outputs.length ≠ 1 := by
      intro hone
      obtain ⟨review, rfl⟩ := List.length_eq_one_iff.mp hone
      exact hmany review rfl
    obtain ⟨r₁, tr₁, tr₂, s₁, rfl, hcompose, hask⟩ := ends_andThen h
    obtain ⟨rfl, hr₁, rfl⟩ := run_ofExcept hcompose
    obtain rfl := ofExcept_inj hr₁
    rw [composeSynthesisPrompt_eq] at hask
    obtain ⟨r₂, tr₃, tr₄, s₂, rfl, hchat, hend⟩ := ends_andThen hask
    obtain ⟨rfl, -⟩ := ends_perform hchat
    have hcall := replies_split (List.nil_append _ ▸ hreplied)
    cases r₂ with
    -- a prompt without a reply contradicts the count
    | error x => exact absurd hcall.1 Nat.zero_ne_one
    | ok response =>
      obtain ⟨rfl, rfl, -⟩ := ends_ret hend
      refine ⟨_, rfl, rfl, ?_⟩
      rw [if_neg hlength]
      rfl

/-- Both together: the calls of the chunks, and then that of the synthesis. -/
theorem askModel_answered {chunks : List Chunk}
    {r : Except PyError (ChunksResult × SynthesisResult)}
    (h : Ends sem (Reviewer.askModel reviewer job content repoConfig chunks) s tr r s')
    (hreplied : (replies tr).length = (chats tr).length) :
    ∃ chunksResult synthesis, r = .ok (chunksResult, synthesis) ∧
      ∀ prepared : Prepared,
        prepared.prompts = chunksResult.prompts ++ synthesis.prompt.toList →
        prepared.promptTokens = ((replies tr).map (·.usage.promptTokens)).sum →
        prepared.completionTokens = ((replies tr).map (·.usage.completionTokens)).sum →
        (∃ text, prepared.body = truncate (text ++
          tokenCounts prepared.promptTokens prepared.completionTokens)) →
        Accounted job repoConfig content chunks tr prepared := by
  obtain ⟨r₁, tr₁, tr₂, s₁, rfl, hrun, hrest⟩ := ends_andThen h
  -- every prompt has a reply, so those of the chunks and the last one have
  obtain ⟨hfirst, hsecond⟩ := replies_split hreplied
  obtain ⟨out, rfl, hprompts, hcomposed⟩ := reviewChunks_answered hrun hfirst
  obtain ⟨r₂, tr₃, tr₄, s₂, rfl, hsynthesis, hret⟩ := ends_andThen hrest
  obtain ⟨hthird, -⟩ := replies_split hsecond
  obtain ⟨synthesis, rfl, hprompt, hmany⟩ := maybeSynthesize_answered hsynthesis hthird
  obtain ⟨rfl, rfl, -⟩ := ends_ret hret
  obtain ⟨-, hlength, hadds⟩ := reviewChunks_sends hrun
  refine ⟨out, synthesis, rfl, fun prepared hprepared hin hout hbody => ?_⟩
  -- one prompt, one reply and one output a chunk
  have hcalls : (chats tr₁).length = chunks.length := by rw [← hfirst, hlength]
  have houtputs : out.outputs = (replies tr₁).map fun response =>
      parseReviewOutput response.content := hadds.outputs
  have hcount : out.outputs.length = chunks.length := by
    rw [houtputs, List.length_map, hlength]
  rw [List.append_nil] at hin hout ⊢
  rw [hcount] at hmany
  refine {
    calls := ?_
    reviews := ?_
    synthesis := ?_
    prompts := ?_
    promptTokens := hin
    completionTokens := hout
    footer := by rwa [← hin, ← hout] }
  · rw [chats_append, List.length_append, hcalls]
    split_ifs at hmany ⊢ with hone
    · rw [hmany, hone]
      rfl
    · rw [hmany]
      rfl
  · rwa [chats_append, ← hcalls, List.take_left]
  · -- with more than one chunk the last prompt is the synthesis, over all replies before it
    intro hlarge
    rw [if_neg (by omega)] at hmany
    refine ⟨PromptFiles.systemText (repoConfig.review.strictness.getD .normal), ?_⟩
    rw [chats_append, ← hcalls, List.getElem?_append_right (Nat.le_refl _), Nat.sub_self, hmany,
      replies_append, hcalls, ← hlength, List.take_left, houtputs, List.map_map]
    simp only [Function.comp_def, parseReviewOutput_raw]
    rfl
  · rw [hprepared, List.map_append, hprompts, hprompt, chats_append]
    rfl

/-! ## The runs of `prepare` -/

omit [UnicodeDb] [PromptFiles] in
/-- Rendering ends in a body that reports what it was given. -/
theorem render_reports (hsem : ∀ e s r s', sem e s r s' → e.Genuine r) {started : Nat}
    {packing : PackingResult} {chunksResult : ChunksResult} {synthesis : SynthesisResult}
    {r : Except PyError RenderedReview}
    (h : Ends sem (Reviewer.render reviewer started packing chunksResult synthesis) s tr r s') :
    ∃ prepared, r = .ok (.ready prepared) ∧
      prepared.prompts = chunksResult.prompts ++ synthesis.prompt.toList ∧
      prepared.promptTokens = chunksResult.promptTokens + synthesis.promptTokens ∧
      prepared.completionTokens = chunksResult.completionTokens + synthesis.completionTokens := by
  obtain ⟨r₁, tr₁, tr₂, s₁, rfl, hclock, hret⟩ := ends_andThen h
  obtain ⟨rfl, hanswer⟩ := ends_perform hclock
  obtain ⟨now, rfl⟩ : ∃ now, r₁ = .ok now := hsem _ _ _ _ hanswer
  obtain ⟨rfl, rfl, -⟩ := ends_ret hret
  exact ⟨_, rfl, rfl, rfl, rfl⟩

variable [ConfigLibrary]

/-- Once the content is packed, a run in which every prompt is replied to ends in a review that
accounts for its calls. -/
theorem reviewContent_accounted (hsem : ∀ e s r s', sem e s r s' → e.Genuine r) {started : Nat}
    {r : Except PyError RenderedReview}
    (h : Ends sem (Reviewer.reviewContent reviewer job started repoConfig content) s tr r s')
    (hreplied : (replies tr).length = (chats tr).length)
    (hchunks : (packChunks reviewer.packLimits
      (Reviewer.filterFiles content.files repoConfig)).chunks ≠ []) :
    ∃ prepared, r = .ok (.ready prepared) ∧ Accounted job repoConfig content (packChunks
      reviewer.packLimits (Reviewer.filterFiles content.files repoConfig)).chunks tr prepared := by
  unfold Reviewer.reviewContent at h
  dsimp only at h
  split at h
  · rename_i hnone
    rw [List.isEmpty_iff.mp hnone] at hchunks
    exact absurd rfl hchunks
  split at h
  · rename_i hnone
    exact absurd (List.isEmpty_iff.mp hnone) hchunks
  obtain ⟨r₁, tr₁, tr₂, s₁, rfl, hmodel, hrest⟩ := ends_andThen h
  obtain ⟨out, synthesis, rfl, haccounted⟩ := askModel_answered hmodel (replies_split hreplied).1
  obtain ⟨prepared, rfl, hprompts, hin, hout⟩ := render_reports hsem hrest
  obtain ⟨hnone, hno, hbody⟩ := render_body hrest
  obtain ⟨-, hsums⟩ := askModel_sends hchunks hmodel
  have hreview := hsums (packChunks reviewer.packLimits
    (Reviewer.filterFiles content.files repoConfig)) prepared.durationNanos
  have hprompt : prepared.promptTokens = ((replies tr₁).map (·.usage.promptTokens)).sum :=
    hin.trans (congrArg ReviewBody.promptTokens hreview)
  have hcompletion :
      prepared.completionTokens = ((replies tr₁).map (·.usage.completionTokens)).sum :=
    hout.trans (congrArg ReviewBody.completionTokens hreview)
  have hmodelled := haccounted prepared hprompts hprompt hcompletion (by
    rw [hbody, hin, hout]
    exact renderReviewBody_counts _)
  refine ⟨prepared, rfl, ?_⟩
  -- after the calls only the clock is read
  have hchats : chats (tr₁ ++ tr₂) = chats tr₁ := by
    rw [chats_append, hnone, List.append_nil]
  have hreplies : replies (tr₁ ++ tr₂) = replies tr₁ := by
    rw [replies_append, hno, List.append_nil]
  exact hmodelled.congr hchats hreplies

/-- The accounts of a review whose prompts were all replied to: reading asks the model for nothing,
and what asks it comes after. The body and the stored counts are the sums over the replies. -/
theorem calls_accounted (hsem : ∀ e s r s', sem e s r s' → e.Genuine r) {skipDraftCheck : Bool}
    {r : Except PyError RenderedReview}
    (h : Ends sem (Reviewer.prepare reviewer job skipDraftCheck) s tr r s')
    (hreplied : (replies tr).length = (chats tr).length) :
    ∃ gathered trRead trAsk s₁, tr = trRead ++ trAsk ∧
      Ends sem (Reviewer.gather reviewer job skipDraftCheck) s trRead gathered s₁ ∧
      ∀ started repoConfig content, gathered = .ok (.content started repoConfig content) →
        let packing := packChunks reviewer.packLimits
          (Reviewer.filterFiles content.files repoConfig)
        packing.chunks ≠ [] → ∃ prepared, r = .ok (.ready prepared) ∧
          Accounted job repoConfig content packing.chunks tr prepared := by
  rw [Reviewer.prepare_eq] at h
  obtain ⟨gathered, trRead, trAsk, s₁, rfl, hread, hask⟩ := ends_andThen h
  refine ⟨gathered, trRead, trAsk, s₁, rfl, hread, ?_⟩
  intro started repoConfig content hcontent packing hchunks
  subst hcontent
  -- what is read before does not ask the model
  obtain ⟨hnone, hno⟩ : chats trRead = [] ∧ replies trRead = [] :=
    chats_of_reads ((Reviewer.gather_calls reviewer job skipDraftCheck).run hread).1
  obtain ⟨prepared, rfl, haccounted⟩ :=
    reviewContent_accounted hsem hask (replies_split hreplied).2 hchunks
  have hchats : chats (trRead ++ trAsk) = chats trAsk := by
    rw [chats_append, hnone, List.nil_append]
  have hreplies : replies (trRead ++ trAsk) = replies trAsk := by
    rw [replies_append, hno, List.nil_append]
  exact ⟨prepared, rfl, haccounted.congr hchats hreplies⟩

end Runs

section Example

attribute [local instance] asciiDb exampleLibrary emptyPrompts

/-- Room for one of two files in a chunk. -/
def narrowReviewer : Reviewer := { exampleReviewer with pipeline := { maxChunkChars := 2 } }

/-- The model answers briefly on two files. -/
def briefReplies : Replies := { longReply with chat := .ok exampleChat }

/-- Two chunks, three calls. -/
theorem calls_accounted_two_chunks : ∃ (prepared : Prepared) (repoConfig : RepoConfig)
    (content : PRContent),
    ((Reviewer.prepare narrowReviewer exampleJob false).eval briefReplies.answer ()).2.1 =
        .ok (.ready prepared) ∧
      Accounted exampleJob repoConfig content
        (packChunks narrowReviewer.packLimits
          (Reviewer.filterFiles content.files repoConfig)).chunks
        ((Reviewer.prepare narrowReviewer exampleJob false).eval briefReplies.answer ()).1
        prepared ∧
      (packChunks narrowReviewer.packLimits
        (Reviewer.filterFiles content.files repoConfig)).chunks.length = 2 := by
  obtain ⟨gathered, trRead, trAsk, s₁, htr, hread, hrest⟩ := calls_accounted
    (briefReplies.genuine fun _ _ _ _ => nofun)
    (briefReplies.ends (Reviewer.prepare narrowReviewer exampleJob false)) (by decide +kernel)
  have hgathered : gathered =
      ((Reviewer.gather narrowReviewer exampleJob false).eval briefReplies.answer ()).2.1 := by
    rw [Replies.eval_of_ends hread]
  obtain ⟨prepared, hready, haccounted⟩ := hrest _ _ _ (hgathered.trans rfl) (by decide +kernel)
  exact ⟨prepared, _, _, hready, haccounted, by decide +kernel⟩

end Example

end VidiPr
