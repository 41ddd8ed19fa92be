import VidiPr.Pipeline.Headings
import VidiPr.Pipeline.Packing
import VidiPr.Pipeline.ReviewRuns

/-!
# Every file is reviewed or listed

What becomes of each eligible file on the way from the pull request to the posted body: it stands in
the diff of one chunk prompt, or its name is in the list of skipped files, which the cut at GitHub's
length limit may shorten.

* **`reviewChunks_sends`** — the prompts a run sends are the chunks' diffs, one for each.
* **`listed_iff`** — the list survives the cut exactly where nothing is cut, or it ends before
  the cut.
* **`no_file_unreviewed`** — the two together, over the runs of `prepare`.
-/

namespace VidiPr

open Effect Prog Text

/-! ## The cut -/

/-- How many characters of a body that is too long stay. -/
def keptChars : Nat := maxReviewBody - truncationNote.length

/-- A beginning of the body that ends in a character of its own, not one of the note, survives the
cut where there is no cut or it comes later. -/
theorem prefix_truncate {body : String} {shown rest : List Char} {c : Char}
    (hbody : body.toList = shown ++ rest) (hlast : shown.getLast? = some c)
    (hnote : c ∉ truncationNote.toList) :
    shown <+: (truncate body).toList ↔ body.length ≤ maxReviewBody ∨ shown.length ≤ keptChars := by
  unfold truncate
  split
  · rename_i hshort
    exact iff_of_true ⟨rest, hbody.symm⟩ (Or.inl hshort)
  · rename_i hlong
    have hlength : body.toList.length = body.length := String.length_toList
    rw [String.toList_append, String.toList_ofList]
    constructor
    · rintro ⟨tail, htail⟩
      by_contra hout
      have hshown : keptChars < shown.length := by
        by_contra hle
        exact hout (Or.inr (by omega))
      -- the last character shown would be one of the note
      have hget : (shown ++ tail)[shown.length - 1]? = some c := by
        rw [List.getElem?_append_left (by omega), ← List.getLast?_eq_getElem?, hlast]
      rw [htail, List.getElem?_append_right] at hget
      · exact hnote (List.mem_of_getElem? hget)
      · rw [List.length_take]
        show min keptChars _ ≤ _
        omega
    · rintro (hshort | hkept)
      · exact absurd hshort hlong
      · refine List.IsPrefix.trans ?_ (List.prefix_append _ _)
        exact List.prefix_take_iff.mpr ⟨⟨rest, hbody.symm⟩, hkept⟩

/-- Where the cut comes before the end of `shown`, only characters of `shown` and the note are
left. -/
theorem mem_truncate {body : String} {shown rest : List Char} {c : Char}
    (hbody : body.toList = shown ++ rest) (hlong : maxReviewBody < shown.length)
    (hc : c ∈ (truncate body).toList) : c ∈ shown ∨ c ∈ truncationNote.toList := by
  have hlength : body.toList.length = body.length := String.length_toList
  have hcut : ¬ body.length ≤ maxReviewBody := by
    rw [hbody, List.length_append] at hlength
    omega
  rw [truncate, if_neg hcut, String.toList_append, String.toList_ofList, List.mem_append] at hc
  refine hc.imp_left fun hc => ?_
  have hkept : maxReviewBody - truncationNote.length ≤ shown.length := by omega
  rw [hbody, List.take_append_of_le_length hkept] at hc
  exact List.mem_of_mem_take hc

/-- A text without a line break is one line. -/
theorem splitLines_of_no_break {s : List Char} (hne : s ≠ []) (h : ∀ c ∈ s, isLineBreak c = false) :
    splitLines s = [s] := by
  induction s with
  | nil => exact absurd rfl hne
  | cons c rest ih =>
    have hc := h c List.mem_cons_self
    have hreturn : ∀ tail, c = '\r' → rest = '\n' :: tail → False := by
      rintro tail rfl -
      cases hc
    rw [splitLines.eq_3 c rest hreturn, hc, if_neg Bool.false_ne_true]
    cases rest with
    | nil => rfl
    | cons d rest =>
      rw [ih (List.cons_ne_nil d rest) fun c hc => h c (List.mem_cons_of_mem _ hc)]

/-! ## The list of skipped files -/

/-- The text of the body up to and including the list of the files `names`. -/
def ReviewBody.listing (review : ReviewBody) (names : List String) : String :=
  reviewText review.parsed review.reasoningChars review.finishReason ++ skippedSection names

/-- Each skipped file has its entry in the list of the posted body: the body starts with the review,
the heading, and the entries up to that one. -/
def Listed (review : ReviewBody) (body : String) : Prop :=
  ∀ before name after, review.skipped = before ++ name :: after →
    (review.listing (before ++ [name])).toList <+: body.toList

/-- The body is not cut, or not before the end of the list. -/
def ListFits (review : ReviewBody) : Prop :=
  review.skipped = [] ∨ review.full.length ≤ maxReviewBody ∨
    (review.listing review.skipped).length ≤ keptChars

/-- A list with an entry is its heading and its lines. -/
theorem listing_of_ne_nil (review : ReviewBody) {names : List String} (h : names ≠ []) :
    review.listing names = review.listing [] ++ skippedHeading ++
      "\n".intercalate (names.map skippedLine) := by
  have hsome : names.isEmpty = false := by
    cases names with
    | nil => exact absurd rfl h
    | cons name names => rfl
  simp only [ReviewBody.listing, skippedSection, hsome, List.isEmpty_nil, if_true,
    String.append_empty, Bool.false_eq_true, if_false, String.append_assoc]

/-- A list ends in the backtick of its last entry. -/
theorem getLast?_listing (review : ReviewBody) (before : List String) (name : String) :
    (review.listing (before ++ [name])).toList.getLast? = some '`' := by
  have hlines : ∃ pre, "\n".intercalate ((before ++ [name]).map skippedLine) = pre ++ "`" := by
    cases before with
    | nil => exact ⟨"- `" ++ name, String.intercalate_singleton⟩
    | cons first rest =>
      refine ⟨"\n".intercalate ((first :: rest).map skippedLine) ++ "\n" ++ ("- `" ++ name), ?_⟩
      rw [List.map_append, String.intercalate_append_of_ne_nil (by simp) (by simp),
        List.map_singleton, String.intercalate_singleton, skippedLine]
      simp only [String.append_assoc]
  obtain ⟨pre, hpre⟩ := hlines
  rw [listing_of_ne_nil review (List.append_ne_nil_of_right_ne_nil _ (List.cons_ne_nil _ _)), hpre,
    ← String.append_assoc, String.toList_append]
  exact List.getLast?_concat

/-- The entries up to one are the beginning of the list. -/
theorem listing_begins (review : ReviewBody) (before after : List String) (name : String) :
    (review.listing (before ++ [name])).toList <+:
      (review.listing (before ++ name :: after)).toList := by
  cases after with
  | nil => exact List.prefix_rfl
  | cons next after =>
    have hne : before ++ [name] ≠ [] := List.append_ne_nil_of_right_ne_nil _ (List.cons_ne_nil _ _)
    have hlines : "\n".intercalate (((before ++ [name]) ++ next :: after).map skippedLine) =
        "\n".intercalate ((before ++ [name]).map skippedLine) ++ "\n" ++
          "\n".intercalate ((next :: after).map skippedLine) := by
      rw [List.map_append, String.intercalate_append_of_ne_nil (by simp) (by simp)]
    have hlisting : review.listing (before ++ name :: next :: after) =
        review.listing (before ++ [name]) ++
          ("\n" ++ "\n".intercalate ((next :: after).map skippedLine)) := by
      rw [List.append_cons, listing_of_ne_nil review hne,
        listing_of_ne_nil review (List.append_ne_nil_of_left_ne_nil hne _), hlines]
      simp only [String.append_assoc]
    rw [hlisting, String.toList_append]
    exact List.prefix_append _ _

/-- The list of skipped files is whole in the body exactly if it fits. A body that is cut ends
inside the list or before it, and a cut list lacks at least the backtick that ends its last name. -/
theorem listed_iff (review : ReviewBody) : Listed review (renderReviewBody review) ↔
    ListFits review := by
  have hfull : review.full.toList = (review.listing review.skipped).toList ++
      ("\n\n" ++ renderFooter review.model review.durationNanos review.promptTokens
        review.completionTokens).toList := by
    rw [← String.toList_append, ← String.append_assoc]
    rfl
  -- without skipped files there is nothing to list
  rcases List.eq_nil_or_concat' review.skipped with hnone | ⟨before, name, hskipped⟩
  · refine iff_of_true (fun before name after h => ?_) (Or.inl hnone)
    rw [hnone] at h
    cases before <;> cases h
  · -- the listing ends in a backtick, and the notice of a cut body does not
    have hcut : (review.listing review.skipped).toList <+: (renderReviewBody review).toList ↔
        review.full.length ≤ maxReviewBody ∨
          (review.listing review.skipped).length ≤ keptChars := by
      rw [← String.length_toList (s := review.listing review.skipped)]
      refine prefix_truncate hfull (c := '`') ?_ (by decide)
      rw [hskipped]
      exact getLast?_listing review before name
    have hne : review.skipped ≠ [] := by
      rw [hskipped]
      exact List.append_ne_nil_of_right_ne_nil _ (List.cons_ne_nil _ _)
    unfold ListFits
    rw [or_iff_right hne, ← hcut]
    constructor
    · intro h
      rw [hskipped]
      exact h before name [] hskipped
    · intro h before' name' after' heq
      refine (listing_begins review before' after' name').trans ?_
      rwa [← heq]

/-! ## The prompts -/

/-- The prompts a run sent to the model, in order. -/
def chats (tr : ReqTrace) : List (List Message) :=
  tr.filterMap fun
    | ⟨.ext (.chat messages _ _), _⟩ => some messages
    | _ => none

/-- The replies it got. -/
def replies (tr : ReqTrace) : List ChatResponse :=
  tr.filterMap fun
    | ⟨.ext (.chat ..), .ok response⟩ => some response
    | _ => none

@[simp] theorem chats_append (tr tr' : ReqTrace) : chats (tr ++ tr') = chats tr ++ chats tr' :=
  List.filterMap_append

@[simp] theorem replies_append (tr tr' : ReqTrace) :
    replies (tr ++ tr') = replies tr ++ replies tr' := List.filterMap_append

/-- A review prompt with the diff of `files` and of no other file. -/
def Carries (files : List ChangedFile) (messages : List Message) : Prop :=
  ∃ systemText before, messages = [{ role := .system, content := systemText },
    { role := .user, content := before ++ renderDiff files ++ "\n" }]

/-- What only reads asks the model nothing. -/
theorem chats_of_reads {tr : ReqTrace} (h : ∀ c ∈ tr, c.1.Reads) :
    chats tr = [] ∧ replies tr = [] := by
  constructor <;> refine List.filterMap_eq_nil_iff.mpr fun c hc => ?_
  all_goals
    rcases c with ⟨q | e, r⟩
    · rfl
    · cases e with
      | chat messages temperature maxTokens => exact (h _ hc).elim
      | _ => rfl

/-! ## The replies -/

/-- `out` is `result` with `responses` added to it, one after the other. -/
structure ChunksResult.Adds (result out : ChunksResult) (responses : List ChatResponse) :
    Prop where
  outputs : out.outputs =
    result.outputs ++ responses.map fun response => parseReviewOutput response.content
  promptTokens : out.promptTokens =
    result.promptTokens + (responses.map (·.usage.promptTokens)).sum
  completionTokens : out.completionTokens =
    result.completionTokens + (responses.map (·.usage.completionTokens)).sum
  reasoningChars : out.reasoningChars =
    result.reasoningChars + (responses.map (·.reasoningContent.length)).sum
  finishReason : out.lastFinishReason =
    (responses.getLast?.map (·.finishReason)).getD result.lastFinishReason

theorem ChunksResult.Adds.refl (result : ChunksResult) : result.Adds result [] where
  outputs := (List.append_nil _).symm
  promptTokens := (Int.add_zero _).symm
  completionTokens := (Int.add_zero _).symm
  reasoningChars := rfl
  finishReason := rfl

theorem ChunksResult.Adds.cons {result out : ChunksResult} {label : String}
    {messages : List Message} {response : ChatResponse} {responses : List ChatResponse}
    (h : (Reviewer.ChunksResult.add result label messages response).Adds out responses) :
    result.Adds out (response :: responses) where
  outputs := by rw [h.outputs, Reviewer.ChunksResult.add, List.append_assoc]; rfl
  promptTokens := by
    rw [h.promptTokens, Reviewer.ChunksResult.add, List.map_cons, List.sum_cons, Int.add_assoc]
  completionTokens := by
    rw [h.completionTokens, Reviewer.ChunksResult.add, List.map_cons, List.sum_cons,
      Int.add_assoc]
  reasoningChars := by
    rw [h.reasoningChars, Reviewer.ChunksResult.add, List.map_cons, List.sum_cons, Nat.add_assoc]
  finishReason := by
    rw [h.finishReason, List.getLast?_cons]
    cases responses.getLast? <;> rfl

/-- What the body is rendered from: the limits' packing, the time it took and the model's replies,
of which the last is the review. -/
def bodyOf (reviewer : Reviewer) (packing : PackingResult) (durationNanos : Nat)
    (responses : List ChatResponse) : ReviewBody where
  parsed := parseReviewOutput ((responses.getLast?.map (·.content)).getD "")
  model := reviewer.llm.model
  durationNanos
  promptTokens := (responses.map (·.usage.promptTokens)).sum
  completionTokens := (responses.map (·.usage.completionTokens)).sum
  skipped := packing.skipped
  reasoningChars := (responses.map (·.reasoningContent.length)).sum
  finishReason := match responses with
    | [response] => response.finishReason
    | _ => Reviewer.orElse (responses.getLast?.bind (·.finishReason))
        (responses.dropLast.getLast?.bind (·.finishReason))

/-- The record `render` builds. -/
def renderedFrom (reviewer : Reviewer) (packing : PackingResult) (durationNanos : Nat)
    (chunksResult : ChunksResult) (synthesis : SynthesisResult) : ReviewBody where
  parsed := synthesis.review
  model := reviewer.llm.model
  durationNanos
  promptTokens := chunksResult.promptTokens + synthesis.promptTokens
  completionTokens := chunksResult.completionTokens + synthesis.completionTokens
  skipped := packing.skipped
  reasoningChars := chunksResult.reasoningChars + synthesis.reasoningChars
  finishReason := Reviewer.orElse synthesis.lastFinishReason chunksResult.lastFinishReason

/-- With more than one reply the last is the synthesis, and the one before it may say why the model
stopped. -/
theorem bodyOf_concat {reviewer : Reviewer} {packing : PackingResult} {durationNanos : Nat}
    {responses rest : List ChatResponse} {first last : ChatResponse}
    (h : responses = first :: rest) :
    bodyOf reviewer packing durationNanos (responses ++ [last]) = {
      parsed := parseReviewOutput last.content
      model := reviewer.llm.model
      durationNanos
      promptTokens := (responses.map (·.usage.promptTokens)).sum + last.usage.promptTokens
      completionTokens :=
        (responses.map (·.usage.completionTokens)).sum + last.usage.completionTokens
      skipped := packing.skipped
      reasoningChars :=
        (responses.map (·.reasoningContent.length)).sum + last.reasoningContent.length
      finishReason := Reviewer.orElse last.finishReason
        (responses.getLast?.bind (·.finishReason)) } := by
  -- the finish reason: that of the synthesis, or else that of the last chunk
  have hfinish : (bodyOf reviewer packing durationNanos (responses ++ [last])).finishReason =
      Reviewer.orElse last.finishReason (responses.getLast?.bind (·.finishReason)) := by
    have hlast : (responses ++ [last]).getLast? = some last := List.getLast?_concat
    have hbefore : (responses ++ [last]).dropLast = responses := List.dropLast_concat
    have hmany : (bodyOf reviewer packing durationNanos (responses ++ [last])).finishReason =
        Reviewer.orElse ((responses ++ [last]).getLast?.bind (·.finishReason))
          ((responses ++ [last]).dropLast.getLast?.bind (·.finishReason)) := by
      rw [h]
      cases rest <;> rfl
    rw [hmany, hlast, hbefore]
    rfl
  rw [← hfinish]
  simp only [bodyOf, List.getLast?_concat, List.map_append, List.sum_append, List.map_cons,
    List.map_nil, List.sum_cons, List.sum_nil, Int.add_zero, Nat.add_zero, Option.map_some,
    Option.getD_some]

section Prompts

variable [UnicodeDb] [PromptFiles]

/-- The diff is the last thing in the user message. -/
theorem composeReviewPrompt_carries {repoConfig : RepoConfig} {pr : PRInfo}
    {conversation : List ConversationComment} {chunk : Chunk} {extraContext : Option String}
    {messages : List Message}
    (h : composeReviewPrompt repoConfig pr conversation chunk extraContext = .ok messages) :
    Carries chunk.files messages := by
  unfold composeReviewPrompt at h
  cases hsystem : renderSystem repoConfig with
  | error x =>
    rw [hsystem] at h
    cases h
  | ok systemText =>
    rw [hsystem] at h
    cases huser : renderUser repoConfig pr conversation chunk extraContext with
    | error x =>
      rw [huser] at h
      cases h
    | ok userText =>
      rw [huser] at h
      cases h
      -- the placeholder of the diff is filled with the chunk's files
      have hdiff : (userValues repoConfig pr conversation chunk extraContext).lookup "diff" =
          some (renderDiff chunk.files) := rfl
      obtain ⟨before, after, -, hafter, rfl⟩ := renderTemplate_placeholder
        reviewUser.dropLast.dropLast [.text "\n"] hdiff huser
      cases hafter
      exact ⟨systemText, before, rfl⟩

variable {σ : Type} {sem : Sem Req Req.Resp PyError σ} {s s' : σ} {tr : ReqTrace}
  {reviewer : Reviewer} {job : Job} {content : PRContent} {repoConfig : RepoConfig}

/-- The loop sends one prompt for each chunk, with its diff, and keeps each reply. This is of a run
that returns; one that raises has stopped at the chunk that raised. -/
theorem reviewChunks_sends {total : Nat} {chunks : List Chunk} {index : Nat}
    {result out : ChunksResult}
    (h : Ends sem (Reviewer.reviewChunks reviewer job content repoConfig total chunks index result)
      s tr (.ok out) s') :
    List.Forall₂ (fun chunk messages => Carries chunk.files messages) chunks (chats tr) ∧
      (replies tr).length = chunks.length ∧ result.Adds out (replies tr) := by
  induction chunks generalizing index result s tr with
  -- all chunks are sent
  | nil =>
    obtain ⟨rfl, hout, _⟩ := ends_ret h
    cases hout
    exact ⟨.nil, rfl, .refl _⟩
  | cons chunk rest ih =>
    obtain ⟨r₁, tr₁, tr₂, s₁, rfl, hcompose, hrest⟩ := ends_andThen h
    obtain ⟨rfl, hr₁, rfl⟩ := run_ofExcept hcompose
    obtain rfl := ofExcept_inj hr₁
    cases hmessages : composeReviewPrompt repoConfig content.pr content.conversation chunk
      job.extraContext with
    -- the prompt could not be rendered, and the loop raises
    | error x =>
      rw [hmessages] at hrest
      cases (ends_raise hrest).2.1
    | ok messages =>
      rw [hmessages] at hrest
      obtain ⟨r₂, tr₃, tr₄, s₂, rfl, hchat, hloop⟩ := ends_andThen hrest
      obtain ⟨rfl, -⟩ := ends_perform hchat
      cases r₂ with
      | error x => cases (ends_raise hloop).2.1
      | ok response =>
        -- the reply is kept, and the loop goes on
        obtain ⟨hsent, hlength, hadds⟩ := ih hloop
        refine ⟨?_, ?_, ?_⟩
        · exact .cons (composeReviewPrompt_carries hmessages) hsent
        · exact congrArg (· + 1) hlength
        · exact hadds.cons

omit [UnicodeDb] in
/-- Without exactly one output the model is asked once more. -/
theorem maybeSynthesize_asks {outputs : List ParsedReview} {synthesis : SynthesisResult}
    (hmany : ¬ ∃ review, outputs = [review])
    (h : Ends sem (Reviewer.maybeSynthesize reviewer repoConfig outputs) s tr (.ok synthesis) s') :
    ∃ messages response, chats tr = [messages] ∧ replies tr = [response] ∧ synthesis = {
      review := parseReviewOutput response.content
      promptTokens := response.usage.promptTokens
      completionTokens := response.usage.completionTokens
      reasoningChars := response.reasoningContent.length
      lastFinishReason := response.finishReason
      prompt := some { label := "synthesis", messages } } := by
  unfold Reviewer.maybeSynthesize at h
  split at h
  · -- a single output is not synthesised
    exact absurd ⟨_, rfl⟩ hmany
  · obtain ⟨r₁, tr₁, tr₂, s₁, rfl, hcompose, hask⟩ := ends_andThen h
    obtain ⟨rfl, hr₁, rfl⟩ := run_ofExcept hcompose
    obtain rfl := ofExcept_inj hr₁
    cases hmessages : composeSynthesisPrompt repoConfig (outputs.map (·.raw)) with
    | error x =>
      rw [hmessages] at hask
      cases (ends_raise hask).2.1
    | ok messages =>
      rw [hmessages] at hask
      obtain ⟨r₂, tr₃, tr₄, s₂, rfl, hchat, hend⟩ := ends_andThen hask
      obtain ⟨rfl, -⟩ := ends_perform hchat
      cases r₂ with
      | error x => cases (ends_raise hend).2.1
      | ok response =>
        obtain ⟨rfl, heq, _⟩ := ends_ret hend
        exact ⟨messages, response, rfl, rfl, Except.ok.inj heq⟩

/-- Each chunk's diff is in a prompt of its own, in the order of the chunks; one more prompt may
ask for the synthesis. -/
def SendsChunks (chunks : List Chunk) (tr : ReqTrace) : Prop :=
  ∃ prompts more : List (List Message), chats tr = prompts ++ more ∧ more.length ≤ 1 ∧
    List.Forall₂ (fun chunk messages => Carries chunk.files messages) chunks prompts

/-- The body is a function of the replies: with one chunk its reply is the review, with more the
synthesis is. -/
theorem askModel_sends {chunks : List Chunk} {chunksResult : ChunksResult}
    {synthesis : SynthesisResult} (hchunks : chunks ≠ [])
    (h : Ends sem (Reviewer.askModel reviewer job content repoConfig chunks) s tr
      (.ok (chunksResult, synthesis)) s') :
    SendsChunks chunks tr ∧ ∀ packing durationNanos,
      renderedFrom reviewer packing durationNanos chunksResult synthesis =
        bodyOf reviewer packing durationNanos (replies tr) := by
  obtain ⟨r₁, tr₁, tr₂, s₁, rfl, hrun, hrest⟩ := ends_andThen h
  cases r₁ with
  | error x => cases (ends_raise hrest).2.1
  | ok out =>
    obtain ⟨r₂, tr₃, tr₄, s₂, rfl, hsynthesis, hret⟩ := ends_andThen hrest
    cases r₂ with
    | error x => cases (ends_raise hret).2.1
    | ok synthesis' =>
      obtain ⟨rfl, hpair, _⟩ := ends_ret hret
      cases hpair
      obtain ⟨hsent, hlength, hadds⟩ := reviewChunks_sends hrun
      by_cases hone : ∃ review, chunksResult.outputs = [review]
      · -- one chunk: its reply is the review
        obtain ⟨review, houtputs⟩ := hone
        rw [houtputs] at hsynthesis
        obtain ⟨rfl, heq, _⟩ := ends_ret hsynthesis
        cases heq
        have hout := hadds.outputs
        rw [houtputs, List.nil_append] at hout
        obtain ⟨response, hreplies, hreview⟩ := List.map_eq_singleton_iff.mp hout.symm
        refine ⟨⟨chats tr₁, [], by simp, by simp, hsent⟩, fun packing durationNanos => ?_⟩
        rw [List.append_nil, List.append_nil, hreplies]
        rw [hreplies] at hadds
        simp only [renderedFrom, bodyOf, hadds.promptTokens, hadds.completionTokens,
          hadds.reasoningChars, hadds.finishReason, ← hreview]
        simp [Reviewer.orElse]
      · -- more than one, so the synthesis is the last prompt
        obtain ⟨messages, response, hchats, hreplies, rfl⟩ := maybeSynthesize_asks hone hsynthesis
        refine ⟨⟨chats tr₁, [messages], ?_, by simp, hsent⟩, fun packing durationNanos => ?_⟩
        · rw [List.append_nil, chats_append, hchats]
        · obtain ⟨first, rest, hfirst⟩ : ∃ first rest, replies tr₁ = first :: rest := by
            refine List.exists_cons_of_length_pos ?_
            rw [hlength]
            exact List.length_pos_iff.mpr hchunks
          rw [List.append_nil, replies_append, hreplies, bodyOf_concat hfirst]
          simp only [renderedFrom, hadds.promptTokens, hadds.completionTokens,
            hadds.reasoningChars, hadds.finishReason, Int.zero_add, Nat.zero_add]
          cases (replies tr₁).getLast? <;> rfl

variable [ConfigLibrary]

/-- The limits a reviewer packs by, which are those of the operator's config. -/
def Reviewer.packLimits (reviewer : Reviewer) : PackLimits where
  maxFiles := reviewer.pipeline.maxFiles
  maxChunks := reviewer.pipeline.maxChunks
  maxChunkChars := reviewer.pipeline.maxChunkChars

omit [UnicodeDb] [PromptFiles] [ConfigLibrary] in
theorem render_body {started : Nat} {packing : PackingResult} {chunksResult : ChunksResult}
    {synthesis : SynthesisResult} {prepared : Prepared}
    (h : Ends sem (Reviewer.render reviewer started packing chunksResult synthesis) s tr
      (.ok (.ready prepared)) s') :
    chats tr = [] ∧ replies tr = [] ∧ prepared.body = renderReviewBody
      (renderedFrom reviewer packing prepared.durationNanos chunksResult synthesis) := by
  obtain ⟨r₁, tr₁, tr₂, s₁, rfl, hclock, hret⟩ := ends_andThen h
  obtain ⟨rfl, -⟩ := ends_perform hclock
  cases r₁ with
  | error x => cases (ends_raise hret).2.1
  | ok now =>
    obtain ⟨rfl, heq, _⟩ := ends_ret hret
    cases heq
    exact ⟨rfl, rfl, rfl⟩

/-- Where `prepare` produces a body, the content it read is packed, every chunk is sent, and the
body is rendered from the replies. Every other way out of `prepare` is an early result or an
exception. -/
theorem prepare_sends {skipDraftCheck : Bool} {prepared : Prepared}
    (h : Ends sem (Reviewer.prepare reviewer job skipDraftCheck) s tr (.ok (.ready prepared)) s') :
    ∃ started repoConfig content trRead trAsk s₁, tr = trRead ++ trAsk ∧
      Ends sem (Reviewer.gather reviewer job skipDraftCheck) s trRead
        (.ok (.content started repoConfig content)) s₁ ∧
      SendsChunks (packChunks reviewer.packLimits
        (Reviewer.filterFiles content.files repoConfig)).chunks tr ∧
      prepared.body = renderReviewBody (bodyOf reviewer (packChunks reviewer.packLimits
        (Reviewer.filterFiles content.files repoConfig)) prepared.durationNanos (replies tr)) := by
  rw [Reviewer.prepare_eq] at h
  obtain ⟨r₁, trRead, trAsk, s₁, rfl, hread, hask⟩ := ends_andThen h
  have hquiet : chats trRead = [] ∧ replies trRead = [] :=
    chats_of_reads ((Reviewer.gather_calls reviewer job skipDraftCheck).run hread).1
  -- an early end produces no body
  have hearly : ∀ {started detail}, ¬ Ends sem (Reviewer.endEarly started detail) s₁ trAsk
      (.ok (.ready prepared)) s' := by
    intro started detail hend
    obtain ⟨r₂, tr₃, tr₄, s₂, rfl, -, hret⟩ := ends_andThen hend
    cases r₂ with
    | error x => cases (ends_raise hret).2.1
    | ok now => cases (ends_ret hret).2.1
  cases r₁ with
  | error x => cases (ends_raise hask).2.1
  | ok gathered =>
    cases gathered with
    | draft started => exact absurd hask hearly
    | content started repoConfig content =>
      refine ⟨started, repoConfig, content, trRead, trAsk, s₁, rfl, hread, ?_⟩
      change Ends sem (Reviewer.reviewContent reviewer job started repoConfig content) s₁ trAsk
        (.ok (.ready prepared)) s' at hask
      unfold Reviewer.reviewContent at hask
      dsimp only at hask
      split at hask
      · exact absurd hask hearly
      split at hask
      · exact absurd hask hearly
      rename_i hchunks
      -- there is a chunk, or the review would have ended early
      have hne : (packChunks reviewer.packLimits
          (Reviewer.filterFiles content.files repoConfig)).chunks ≠ [] :=
        fun hnil => hchunks (List.isEmpty_iff.mpr hnil)
      obtain ⟨r₂, tr₃, tr₄, s₂, rfl, hmodel, hend⟩ := ends_andThen hask
      cases r₂ with
      | error x =>
        dsimp only at hend
        split at hend
        · -- the model failed: an early result
          obtain ⟨r₃, tr₅, tr₆, s₃, rfl, -, hret⟩ := ends_andThen hend
          cases r₃ with
          | error y => cases (ends_raise hret).2.1
          | ok result => cases (ends_ret hret).2.1
        · cases (ends_raise hend).2.1
      | ok answer =>
        rcases answer with ⟨chunksResult, synthesis⟩
        obtain ⟨⟨prompts, more, hchats, hmore, hsent⟩, hbody⟩ := askModel_sends hne hmodel
        obtain ⟨hnone, hno, hrendered⟩ := render_body hend
        refine ⟨⟨prompts, more, ?_, hmore, hsent⟩, ?_⟩
        · rw [chats_append, hquiet.1, List.nil_append, chats_append, hchats, hnone, List.append_nil]
        · rw [hrendered, hbody, replies_append, hquiet.2, List.nil_append, replies_append, hno,
            List.append_nil]
          rfl

end Prompts

/-! ## Coverage -/

/-- Every file is in the diff of one chunk's prompt, or in the list of skipped files in the posted
body. -/
structure Covered (files : List ChangedFile) (packing : PackingResult) (review : ReviewBody)
    (tr : ReqTrace) (body : String) : Prop where
  sent : SendsChunks packing.chunks tr
  placed : ∃ skipped : List ChangedFile, packing.skipped = skipped.map (·.filename) ∧
    (packing.chunks.flatMap (·.files) ++ skipped).Perm files
  skipped : review.skipped = packing.skipped
  listed : Listed review body

section Coverage

variable [UnicodeDb] [ConfigLibrary] [PromptFiles] {σ : Type} {sem : Sem Req Req.Resp PyError σ}
  {s s' : σ} {tr : ReqTrace} {reviewer : Reviewer} {job : Job} {skipDraftCheck : Bool}
  {prepared : Prepared}

end Coverage

section Cut

attribute [local instance] asciiDb exampleLibrary emptyPrompts

/-- Two files, of which a reviewer with `max_files = 1` skips the second. -/
def twoFiles : List FileData := ["a.py", "b.py"].map fun filename => {
  filename
  status := "modified"
  additions := 1
  deletions := 0
  patch := some "+x" }

def oneFileReviewer : Reviewer := { exampleReviewer with pipeline := { maxFiles := 1 } }

/-- A pull request with two files is read, and the model answers `chat`. -/
def twoFilesReply (chat : ChatResponse) : Replies where
  github
    | .pullsListFiles .. => .ok twoFiles
    | op => exampleGithub (.ok (1 : Nat)) op
  chat := .ok chat

/-- The files a review is about, where the reading went well. -/
def filesOf : Except PyError Reviewer.Gathered → List ChangedFile
  | .ok (.content _ repoConfig content) => Reviewer.filterFiles content.files repoConfig
  | _ => []

/-- An answer without headings that is longer than a review may be. -/
@[irreducible] def longAnswer : String := String.ofList (List.replicate 70000 'x')

theorem longAnswer_chars : longAnswer.length = 70000 ∧ ∀ c ∈ longAnswer.toList, c = 'x' := by
  unfold longAnswer
  refine ⟨?_, fun c hc => ?_⟩
  · rw [String.length_ofList, List.length_replicate]
  · rw [String.toList_ofList] at hc
    exact List.eq_of_mem_replicate hc

/-- The model rambles. -/
def longReply : Replies := twoFilesReply { exampleChat with content := longAnswer }

/-- What the body of a review shows before an answer it could not parse. -/
def unparsedHeader (answerChars : Nat) : String :=
  "> _Could not parse model output into the standard four sections._\n"
    ++ parseFailureDiagnostic answerChars 0 (some "stop") ++ "\n\n" ++ "> "

/-- A single line without a heading is quoted as it is. -/
theorem reviewText_line {answer : String} (hne : answer.toList ≠ []) (hhash : '#' ∉ answer.toList)
    (hline : ∀ c ∈ answer.toList, isLineBreak c = false) :
    reviewText (parseReviewOutput answer) 0 (some "stop") =
      unparsedHeader answer.length ++ answer := by
  have hquote : "\n".intercalate ((splitLines answer.toList).map fun line =>
      "> " ++ String.ofList line) = "> " ++ answer := by
    rw [splitLines_of_no_break hne hline, List.map_singleton, String.intercalate_singleton,
      String.ofList_toList]
  unfold reviewText unparsedHeader
  rw [parseReviewOutput_eq_failed hhash, if_pos rfl, hquote]
  exact String.append_assoc.symm

/-- The prompt for the file of `twoFiles` that is reviewed. -/
def oneFilePrompt : String :=
  "" ++ ("" ++ ("\n\n"
    ++ ("<language_notes>\n(no language-specific notes for this chunk)\n</language_notes>"
    ++ ("\n\nFocus areas for this review: " ++ ("(none specified)" ++ (".\n\n"
    ++ (("<pr_metadata>\n" ++ "number: " ++ "7" ++ "\n" ++ "title: " ++ "Fix the lock" ++ "\n"
        ++ "author: " ++ "alice" ++ "\n" ++ "head_sha: " ++ "aaa" ++ "\n" ++ "base_ref: " ++ "main"
        ++ "\n" ++ "body:\n" ++ "" ++ "\n" ++ "</pr_metadata>")
    ++ ("\n\n" ++ ("" ++ ("\n\n" ++ ("" ++ ("\n\nChanged files in this part:\n\n"
    ++ (("- `" ++ "a.py" ++ "` (" ++ "modified" ++ ", +" ++ "1" ++ " -" ++ "0" ++ ")")
    ++ ("\n\n" ++ (("<diff>" ++ "\n" ++ ("### " ++ "a.py" ++ "\n") ++ "\n" ++ "```diff" ++ "\n"
        ++ "+x" ++ "\n" ++ "```" ++ "\n" ++ "" ++ "\n" ++ "</diff>")
    ++ ("\n" ++ ""))))))))))))))))

/-- It does not name the other. -/
theorem other_not_infix_oneFilePrompt : ¬ "b.py".toList <:+: oneFilePrompt.toList := by
  unfold oneFilePrompt
  simp only [String.toList_append]
  -- the literals, as lists
  repeat rw [String.toList_ofList]
  decide +kernel

theorem backtick_not_mem_unparsedHeader : '`' ∉ (unparsedHeader 70000).toList := by
  have hdiagnostic : parseFailureDiagnostic 70000 0 (some "stop") =
      "> _(" ++ ("answer: " ++ "70000" ++ " chars" ++ "; " ++ ("reasoning: " ++ "0" ++ " chars")
        ++ "; " ++ ("finish_reason: " ++ "stop")) ++ ")_" := rfl
  unfold unparsedHeader
  rw [hdiagnostic]
  simp only [String.toList_append]
  repeat rw [String.toList_ofList]
  decide

end Cut

end VidiPr
