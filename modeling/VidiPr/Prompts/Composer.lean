import VidiPr.Config.Repo
import VidiPr.Models.Review

/-!
# The prompts

`prompts/`: the templates and what is put into them. The templates decide what stands where in a
prompt and are given here; the text files of the package only supply text, and are one class,
`PromptFiles`.
-/

namespace VidiPr

open Text

/-! ## Templates -/

/-- A template as `_PLACEHOLDER` splits it. -/
inductive TemplatePart where
  | text (s : String)
  | placeholder (name : String)
deriving DecidableEq, Repr

abbrev Template : Type := List TemplatePart

/-- `render_template`: one pass, so that a value is not looked into. -/
def renderTemplate (values : List (String × String)) : Template → Except PyError String
  | [] => .ok ""
  | .text s :: rest => (renderTemplate values rest).map (s ++ ·)
  | .placeholder name :: rest =>
    match values.lookup name with
    | none => .error (.templateError ("unknown template variable: " ++ name))
    | some value => (renderTemplate values rest).map (value ++ ·)

/-- Rendering raises a `TemplateError` or nothing. -/
theorem renderTemplate_error {values : List (String × String)} {template : Template} {x : PyError}
    (h : renderTemplate values template = .error x) : ∃ m, x = .templateError m := by
  have hmap : ∀ {rest : Except PyError String} {f : String → String},
      rest.map f = .error x → rest = .error x := by
    intro rest f hrest
    cases rest with
    | ok s => cases hrest
    | error y => exact congrArg Except.error (Except.error.inj hrest)
  induction template with
  | nil => cases h
  | cons part rest ih =>
    cases part with
    | text s => exact ih (hmap h)
    | placeholder name =>
      unfold renderTemplate at h
      split at h
      · exact ⟨_, (Except.error.inj h).symm⟩
      · exact ih (hmap h)

/-- A template is rendered exactly where each of its placeholders has a value. -/
theorem exists_renderTemplate_iff {values : List (String × String)} {template : Template} :
    (∃ s, renderTemplate values template = .ok s) ↔
      ∀ name, .placeholder name ∈ template → ∃ value, values.lookup name = some value := by
  have hmap : ∀ {r : Except PyError String} {f : String → String},
      (∃ s, r.map f = .ok s) ↔ ∃ s, r = .ok s := by
    intro r f
    cases r with
    | ok s => exact iff_of_true ⟨f s, rfl⟩ ⟨s, rfl⟩
    | error x => exact iff_of_false nofun nofun
  induction template with
  | nil => exact iff_of_true ⟨"", rfl⟩ nofun
  | cons part rest ih =>
    cases part with
    | text s =>
      refine hmap.trans (ih.trans ?_)
      simp only [List.mem_cons, reduceCtorEq, false_or]
    | placeholder name =>
      rw [renderTemplate]
      split
      · rename_i hnone
        refine iff_of_false nofun fun h => ?_
        obtain ⟨value, hvalue⟩ := h name List.mem_cons_self
        rw [hnone] at hvalue
        cases hvalue
      · rename_i value hvalue
        refine hmap.trans (ih.trans ?_)
        simp only [List.mem_cons, TemplatePart.placeholder.injEq, forall_eq_or_imp, hvalue,
          Option.some.injEq, exists_eq', true_and]

/-- A part of a rendered template: what comes before it and after it is rendered on its own. -/
theorem renderTemplate_append {values : List (String × String)} (first second : Template)
    {s : String} (h : renderTemplate values (first ++ second) = .ok s) :
    ∃ s₁ s₂, renderTemplate values first = .ok s₁ ∧ renderTemplate values second = .ok s₂ ∧
      s = s₁ ++ s₂ := by
  have hmap : ∀ {r : Except PyError String} {f : String → String} {s : String},
      r.map f = .ok s → ∃ s', r = .ok s' ∧ s = f s' := by
    intro r f s hr
    cases r with
    | ok s' => exact ⟨s', rfl, (Except.ok.inj hr).symm⟩
    | error x => cases hr
  induction first generalizing s with
  | nil => exact ⟨"", s, rfl, h, (String.empty_append).symm⟩
  | cons part rest ih =>
    cases part with
    | text text =>
      obtain ⟨s', hs', rfl⟩ := hmap h
      obtain ⟨s₁, s₂, h₁, h₂, rfl⟩ := ih hs'
      exact ⟨text ++ s₁, s₂, by simp only [renderTemplate, h₁, Except.map], h₂,
        (String.append_assoc ..).symm⟩
    | placeholder name =>
      rw [List.cons_append, renderTemplate] at h
      split at h
      · cases h
      · rename_i value hvalue
        obtain ⟨s', hs', rfl⟩ := hmap h
        obtain ⟨s₁, s₂, h₁, h₂, rfl⟩ := ih hs'
        exact ⟨value ++ s₁, s₂, by simp only [renderTemplate, hvalue, h₁, Except.map], h₂,
          (String.append_assoc ..).symm⟩

/-- The value of a placeholder stands in the rendered text as it is. -/
theorem renderTemplate_placeholder {values : List (String × String)} (first second : Template)
    {name value s : String} (hvalue : values.lookup name = some value)
    (h : renderTemplate values (first ++ .placeholder name :: second) = .ok s) :
    ∃ s₁ s₂, renderTemplate values first = .ok s₁ ∧ renderTemplate values second = .ok s₂ ∧
      s = s₁ ++ value ++ s₂ := by
  obtain ⟨s₁, s', h₁, hrest, rfl⟩ := renderTemplate_append first _ h
  obtain ⟨s₂, s₃, h₂, h₃, rfl⟩ :=
    renderTemplate_append [.placeholder name] second hrest
  simp only [renderTemplate, hvalue, Except.map, Except.ok.injEq, String.append_empty] at h₂
  subst h₂
  exact ⟨s₁, s₃, h₁, h₃, (String.append_assoc ..).symm⟩

/-- The text files of `prompts/` beside `review_user.md`: the text before and after the one
placeholder of `system.md` and of `synthesis.md`, and the blocks and notes, which are stripped. -/
class PromptFiles where
  systemHead : String
  systemTail : String
  synthesisHead : String
  synthesisTail : String
  strictnessBlock : Strictness → String
  languageNote : Language → String

/-- `system.md` -/
def PromptFiles.system [PromptFiles] : Template :=
  [.text systemHead, .placeholder "strictness_block", .text systemTail]

/-- `synthesis.md` -/
def PromptFiles.synthesis [PromptFiles] : Template :=
  [.text synthesisHead, .placeholder "chunk_outputs", .text synthesisTail]

/-- Prompt files without text. -/
@[reducible] def emptyPrompts : PromptFiles where
  systemHead := ""
  systemTail := ""
  synthesisHead := ""
  synthesisTail := ""
  strictnessBlock _ := ""
  languageNote _ := ""

/-- `review_user.md` -/
def reviewUser : Template := [
  .placeholder "part_header", .placeholder "project_context_block", .text "\n\n",
  .placeholder "language_notes_block", .text "\n\nFocus areas for this review: ",
  .placeholder "focus", .text ".\n\n",
  .placeholder "pr_metadata", .text "\n\n",
  .placeholder "pr_conversation_block", .text "\n\n",
  .placeholder "extra_context_block", .text "\n\nChanged files in this part:\n\n",
  .placeholder "files_summary", .text "\n\n",
  .placeholder "diff", .text "\n"]

/-! ## Languages -/

namespace Language

/-- The languages in the order of their values. -/
def sorted : List Language :=
  [.bash, .c, .cpp, .drupal, .generic, .javascript, .kotlin, .php, .python, .sql, .typescript,
    .yaml]

/-- `EXTENSION_TO_LANGUAGES`, without the dot. -/
def ofExtension : String → List Language
  | "py" | "pyi" => [.python]
  | "js" | "mjs" | "cjs" | "jsx" => [.javascript]
  | "ts" | "tsx" => [.typescript]
  | "php" => [.php]
  | "module" | "install" | "inc" | "theme" | "profile" => [.drupal, .php]
  | "kt" | "kts" => [.kotlin]
  | "c" | "h" => [.c]
  | "cpp" | "cc" | "cxx" | "hpp" | "hxx" => [.cpp]
  | "sh" | "bash" => [.bash]
  | "yml" | "yaml" => [.yaml]
  | "sql" => [.sql]
  | _ => []

variable [UnicodeDb]

/-- The languages of one file. -/
def ofFile (file : ChangedFile) : List Language :=
  let (head, found, tail) := rpartition '.' file.filename
  let matched := if found ∧ head ≠ "" then ofExtension (UnicodeDb.lower tail) else []
  if matched.isEmpty then [.generic] else matched

/-- `detect_languages`, sorted by value. -/
def detect (files : List ChangedFile) : List Language :=
  sorted.filter fun language => files.any fun file => language ∈ ofFile file

end Language

/-! ## The blocks of a user message -/

/-- `_render_language_notes`: a section for each language that has a built-in note or an override by
the repository. The block is there even where no language has either. -/
def renderLanguageNotes [PromptFiles] (languages : List Language)
    (overrides : List (String × String)) : String :=
  let sectionOf (language : Language) : Option String :=
    let builtIn := PromptFiles.languageNote language
    let override := strip ((overrides.lookup language.value).getD "")
    if builtIn = "" ∧ override = "" then none
    else some ("### " ++ language.value ++ "\n\n" ++ builtIn
      ++ if override = "" then ""
        else (if builtIn = "" then "" else "\n\n") ++ "_Repo override:_\n\n" ++ override)
  let sections := languages.filterMap sectionOf
  if sections.isEmpty then
    "<language_notes>\n(no language-specific notes for this chunk)\n</language_notes>"
  else "<language_notes>\n" ++ "\n\n".intercalate sections ++ "\n</language_notes>"

/-- `_render_project_context`: the text of the context file between its tags, or nothing at all. The
text is stripped and otherwise goes in as it is. -/
def renderProjectContext (context : Option String) : String :=
  let text := context.getD ""
  if text = "" then "" else "<project_context>\n" ++ strip text ++ "\n</project_context>"

/-- The lines `_render_conversation` appends for a comment. -/
def conversationLines (comment : ConversationComment) : List String :=
  ["[" ++ comment.createdAt.isoformat ++ "] " ++ comment.authorLogin ++ ":", comment.body, ""]

/-- `_render_conversation`: every comment whole, with its time and author in a line of its own,
between the tags of the block. There is no limit on their length. -/
def renderConversation (comments : List ConversationComment) : String :=
  "\n".intercalate (["<pr_conversation>"] ++ comments.flatMap conversationLines
    ++ ["</pr_conversation>"])

/-- `_render_extra_context`: what followed the command in the comment that asked for the review,
between its tags, or nothing at all. -/
def renderExtraContext (extra : Option String) : String :=
  let text := extra.getD ""
  if text = "" then "" else "<extra_context>\n" ++ strip text ++ "\n</extra_context>"

/-- `_render_pr_metadata`: a line for each field, and the stripped body in lines of its own. -/
def renderPrMetadata (pr : PRInfo) : String :=
  let body := strip (pr.body.getD "")
  "<pr_metadata>\n"
    ++ "number: " ++ toString pr.number ++ "\n"
    ++ "title: " ++ pr.title ++ "\n"
    ++ "author: " ++ pr.authorLogin ++ "\n"
    ++ "head_sha: " ++ pr.headSha ++ "\n"
    ++ "base_ref: " ++ pr.baseRef ++ "\n"
    ++ "body:\n" ++ body ++ "\n"
    ++ "</pr_metadata>"

/-- `_render_files_summary`: a line for each file, with its status and the numbers of its added and
deleted lines. -/
def renderFilesSummary (files : List ChangedFile) : String :=
  "\n".intercalate (files.map fun f =>
    "- `" ++ f.filename ++ "` (" ++ f.status.value ++ ", +" ++ toString f.additions ++ " -"
      ++ toString f.deletions ++ ")")

/-- The lines `_render_diff` appends for a file. -/
def diffLines (file : ChangedFile) : List String :=
  ["### " ++ file.filename ++ "\n"]
    ++ (match file.patch with
      | some patch => ["```diff", patch, "```"]
      | none => ["_(no patch: binary or oversized)_"])
    ++ [""]

/-- `_render_diff`: the patch of each file in a fence under its name, all of them between the tags
of the block. -/
def renderDiff (files : List ChangedFile) : String :=
  "\n".intercalate (["<diff>"] ++ files.flatMap diffLines ++ ["</diff>"])

/-! ## The messages -/

variable [PromptFiles]

/-- `_render_system`: the strictness of the repository's config decides on the block, and `NORMAL`
does where the config has none. The operator's default is not at hand here. -/
def renderSystem (repoConfig : RepoConfig) : Except PyError String :=
  renderTemplate
    [("strictness_block", PromptFiles.strictnessBlock (repoConfig.review.strictness.getD .normal))]
    PromptFiles.system

variable [UnicodeDb]

/-- The values of `review_user.md`. -/
def userValues (repoConfig : RepoConfig) (pr : PRInfo) (conversation : List ConversationComment)
    (chunk : Chunk) (extraContext : Option String) : List (String × String) :=
  let includeConversation := repoConfig.review.includeConversation.getD true
  [("part_header",
      if 1 < chunk.total then
        "Reviewing part " ++ toString chunk.index ++ " of " ++ toString chunk.total
          ++ " of this pull request.\n\n"
      else ""),
    ("project_context_block", renderProjectContext repoConfig.review.projectContext),
    ("language_notes_block",
      renderLanguageNotes (Language.detect chunk.files) repoConfig.review.languageNotes),
    ("focus",
      if repoConfig.review.focus.isEmpty then "(none specified)"
      else ", ".intercalate repoConfig.review.focus),
    ("pr_metadata", renderPrMetadata pr),
    ("pr_conversation_block",
      if includeConversation ∧ ¬ conversation.isEmpty then renderConversation conversation else ""),
    ("extra_context_block", renderExtraContext extraContext),
    ("files_summary", renderFilesSummary chunk.files),
    ("diff", renderDiff chunk.files)]

/-- `_render_user`: `review_user.md` with a value for each of its placeholders, so that rendering it
cannot fail. -/
def renderUser (repoConfig : RepoConfig) (pr : PRInfo) (conversation : List ConversationComment)
    (chunk : Chunk) (extraContext : Option String) : Except PyError String :=
  renderTemplate (userValues repoConfig pr conversation chunk extraContext) reviewUser

/-- `compose_review_prompt`: a system message, and a user message about one chunk. Only the chunk
differs between the prompts of one review. -/
def composeReviewPrompt (repoConfig : RepoConfig) (pr : PRInfo)
    (conversation : List ConversationComment) (chunk : Chunk) (extraContext : Option String) :
    Except PyError (List Message) := do
  let systemText ← renderSystem repoConfig
  let userText ← renderUser repoConfig pr conversation chunk extraContext
  return [{ role := .system, content := systemText }, { role := .user, content := userText }]

omit [PromptFiles] [UnicodeDb] in
/-- Two rendered texts in a row. -/
theorem rendered_error {α : Type} {first second : Except PyError String} {f : String → String → α}
    {x : PyError} (hfirst : ∀ y, first = .error y → ∃ m, y = .templateError m)
    (hsecond : ∀ y, second = .error y → ∃ m, y = .templateError m)
    (h : (do let a ← first; let b ← second; return f a b) = .error x) :
    ∃ m, x = .templateError m := by
  cases first with
  | error y =>
    cases h
    exact hfirst _ rfl
  | ok a =>
    cases second with
    | error y =>
      cases h
      exact hsecond _ rfl
    | ok b => cases h

theorem composeReviewPrompt_error {repoConfig : RepoConfig} {pr : PRInfo}
    {conversation : List ConversationComment} {chunk : Chunk} {extraContext : Option String}
    {x : PyError}
    (h : composeReviewPrompt repoConfig pr conversation chunk extraContext = .error x) :
    ∃ m, x = .templateError m :=
  rendered_error (fun _ => renderTemplate_error) (fun _ => renderTemplate_error) h

omit [UnicodeDb] in
/-- `compose_synthesis_prompt`: the answers to the chunks, whole and numbered, in one prompt that
asks for one review of them. -/
def composeSynthesisPrompt (repoConfig : RepoConfig) (chunkOutputs : List String) :
    Except PyError (List Message) := do
  let systemText ← renderSystem repoConfig
  let chunksText := "\n\n".intercalate (chunkOutputs.mapIdx fun i output =>
    "### Chunk " ++ toString (i + 1) ++ " output\n\n" ++ output)
  let userText ← renderTemplate [("chunk_outputs", chunksText)] PromptFiles.synthesis
  return [{ role := .system, content := systemText }, { role := .user, content := userText }]

/-! ## What the messages are -/

/-- The system message under a strictness. -/
def PromptFiles.systemText (strictness : Strictness) : String :=
  systemHead ++ (strictnessBlock strictness ++ systemTail)

omit [UnicodeDb] in
theorem renderSystem_eq (repoConfig : RepoConfig) : renderSystem repoConfig =
    .ok (PromptFiles.systemText (repoConfig.review.strictness.getD .normal)) := by
  rw [renderSystem, PromptFiles.system, PromptFiles.systemText]
  exact congrArg (fun s => Except.ok (PromptFiles.systemHead ++ (_ ++ s))) String.append_empty

/-- Each placeholder of `review_user.md` has a value. -/
theorem exists_renderUser (repoConfig : RepoConfig) (pr : PRInfo)
    (conversation : List ConversationComment) (chunk : Chunk) (extraContext : Option String) :
    ∃ userText, renderUser repoConfig pr conversation chunk extraContext = .ok userText := by
  refine exists_renderTemplate_iff.mpr fun name hname => ?_
  simp only [reviewUser, List.mem_cons, TemplatePart.placeholder.injEq, reduceCtorEq,
    List.not_mem_nil, false_or, or_false] at hname
  rcases hname with rfl | rfl | rfl | rfl | rfl | rfl | rfl | rfl | rfl <;> exact ⟨_, rfl⟩

/-- A review prompt is always composed. -/
theorem composeReviewPrompt_eq {repoConfig : RepoConfig} {pr : PRInfo}
    {conversation : List ConversationComment} {chunk : Chunk} {extraContext : Option String}
    {userText : String}
    (h : renderUser repoConfig pr conversation chunk extraContext = .ok userText) :
    composeReviewPrompt repoConfig pr conversation chunk extraContext = .ok [
      { role := .system
        content := PromptFiles.systemText (repoConfig.review.strictness.getD .normal) },
      { role := .user, content := userText }] := by
  rw [composeReviewPrompt, renderSystem_eq, h]
  rfl

/-- The replies of the chunks as the synthesis prompt shows them. -/
def chunksText (chunkOutputs : List String) : String :=
  "\n\n".intercalate (chunkOutputs.mapIdx fun i output =>
    "### Chunk " ++ toString (i + 1) ++ " output\n\n" ++ output)

omit [UnicodeDb] in
theorem composeSynthesisPrompt_eq (repoConfig : RepoConfig) (chunkOutputs : List String) :
    composeSynthesisPrompt repoConfig chunkOutputs = .ok [
      { role := .system
        content := PromptFiles.systemText (repoConfig.review.strictness.getD .normal) },
      { role := .user
        content := PromptFiles.synthesisHead ++
          (chunksText chunkOutputs ++ PromptFiles.synthesisTail) }] := by
  have huser : renderTemplate [("chunk_outputs", chunksText chunkOutputs)] PromptFiles.synthesis =
      .ok (PromptFiles.synthesisHead ++ (chunksText chunkOutputs ++
        PromptFiles.synthesisTail)) :=
    congrArg (fun s => Except.ok (PromptFiles.synthesisHead ++ (chunksText chunkOutputs ++ s)))
      String.append_empty
  rw [composeSynthesisPrompt, renderSystem_eq]
  rw [chunksText] at huser
  simp only [bind, Except.bind, huser]
  rfl

omit [UnicodeDb] in
theorem composeSynthesisPrompt_error {repoConfig : RepoConfig} {chunkOutputs : List String}
    {x : PyError} (h : composeSynthesisPrompt repoConfig chunkOutputs = .error x) :
    ∃ m, x = .templateError m :=
  rendered_error (fun _ => renderTemplate_error) (fun _ => renderTemplate_error) h

end VidiPr
