import VidiPr.Orchestration.TriggerGrammar
import VidiPr.Pipeline.ReviewRuns

/-!
# The conversation of a pull request

`_TRIGGER_PATTERN` of `pipeline/fetcher.py` beside `_TRIGGER` of `orchestration/triggers.py`. The
two agree on where a command is: what `_TRIGGER` goes on with matches wherever it is tried.

* **`ends_trigger_eq_nil`** — at every place, either both patterns match or neither does.
* **`conversation_without_triggers`** — the fetched conversation is the comments of the pull
  request without the bot's own and those that start a review.
-/

namespace VidiPr

open Effect Prog Text Regex

section Conversation

variable [UnicodeDb]

theorem commandPattern_eq : Reviewer.commandPattern = commandThen (boundary isWord) := rfl

/-- The rest of `_TRIGGER` matches wherever a command ends. -/
theorem ends_trigger_eq_nil (m : Cursor) :
    triggerPattern.ends m = [] ↔ Reviewer.commandPattern.ends m = [] := by
  have hne : ∀ r : Regex, ¬ (commandThen r).ends m = [] ↔ ∃ m', m' ∈ (commandThen r).ends m := by
    intro r
    exact ⟨List.exists_mem_of_ne_nil _, fun ⟨m', hmem⟩ => List.ne_nil_of_mem hmem⟩
  rw [triggerPattern_eq, commandPattern_eq, ← not_iff_not, hne, hne]
  constructor
  · rintro ⟨m', hmem⟩
    obtain ⟨hstart, name, gap, word, tail, hafter, hname, hgap, hspace, hword, hends⟩ :=
      mem_ends_commandThen.mp hmem
    obtain ⟨m₁, hboundary, -⟩ := mem_ends_seq.mp hends
    exact ⟨m₁, mem_ends_commandThen.mpr
      ⟨hstart, name, gap, word, tail, hafter, hname, hgap, hspace, hword, hboundary⟩⟩
  · rintro ⟨m₁, hmem⟩
    obtain ⟨hstart, name, gap, word, tail, hafter, hname, hgap, hspace, hword, hboundary⟩ :=
      mem_ends_commandThen.mp hmem
    obtain ⟨m', captured, hhead, -, -⟩ := head?_ends_captureRest m₁
    exact ⟨m', mem_ends_commandThen.mpr ⟨hstart, name, gap, word, tail, hafter, hname, hgap, hspace,
      hword, mem_ends_seq.mpr ⟨m₁, hboundary, List.mem_of_head? hhead⟩⟩⟩

/-- A search finds something in one pattern where it does in the other. -/
theorem search_isSome_iff (body : String) :
    (Reviewer.commandPattern.search body).isSome ↔ (triggerPattern.search body).isSome := by
  have hsame : ∀ before after, (Reviewer.commandPattern.searchFrom before after).isSome ↔
      (triggerPattern.searchFrom before after).isSome := by
    intro before after
    induction after generalizing before with
    | nil =>
      have hnil := ends_trigger_eq_nil { before, after := [] }
      rw [searchFrom, searchFrom, Option.isSome_map, Option.isSome_map, List.isSome_head?,
        List.isSome_head?]
      exact (not_congr hnil).symm
    | cons c rest ih =>
      -- the two patterns match at the same positions
      have hnil := ends_trigger_eq_nil { before, after := c :: rest }
      rw [searchFrom, searchFrom]
      cases htrigger : triggerPattern.ends { before, after := c :: rest } with
      | nil =>
        rw [hnil.mp htrigger]
        exact ih (c :: before)
      | cons m' more =>
        cases hcommand : Reviewer.commandPattern.ends { before, after := c :: rest } with
        | nil =>
          rw [hnil.mpr hcommand] at htrigger
          cases htrigger
        | cons m'' more' => exact iff_of_true rfl rfl
  exact hsame [] body.toList

/-- The fetcher's pattern finds the bodies that start a review. -/
theorem commandPattern_iff (body : String) :
    (Reviewer.commandPattern.search body).isSome ↔ (parseTrigger (some body)).isSome := by
  rw [search_isSome_iff, parseTrigger]
  by_cases hempty : body = ""
  · have hnone : triggerPattern.search "" = none := rfl
    rw [if_pos hempty, hempty, hnone]
    exact Iff.rfl
  · rw [if_neg hempty]
    cases triggerPattern.search body <;> exact Iff.rfl

/-- The comment starts a review. -/
def startsReview (comment : ConversationComment) : Bool := (parseTrigger (some comment.body)).isSome

/-- Both patterns agree on every body; so the conversation is what was said on the pull request, in
order, by others than the bot, without what starts a review. The first part is what makes the second
a statement about `parse_trigger`, which `fetch_pr_content` does not call. -/
theorem conversation_without_triggers (job : Job) (botLogin : String) :
    (∀ body, (Reviewer.commandPattern.search body).isSome ↔ (parseTrigger (some body)).isSome) ∧
    ∀ {σ : Type} {sem : Sem Req Req.Resp PyError σ} {s s' : σ} {tr : ReqTrace}
      {content : PRContent},
      Ends sem (Reviewer.fetchPrContent job true botLogin) s tr (.ok content) s' →
      ∃ (s₁ : σ) (tr₁ tr₂ : ReqTrace) (comments : List ConversationComment), tr = tr₁ ++ tr₂ ∧
        Ends sem (GitHubClient.getPrComments job.installationId job.repo job.prNumber) s₁ tr₂
          (.ok comments) s' ∧
        content.conversation = comments.filter fun comment =>
          comment.authorLogin ≠ botLogin ∧ ¬ startsReview comment := by
  refine ⟨commandPattern_iff, fun {σ sem s s' tr content} h => ?_⟩
  have hsame : ∀ comment, Reviewer.inConversation botLogin comment =
      decide (comment.authorLogin ≠ botLogin ∧ ¬ startsReview comment) := by
    intro comment
    rw [Reviewer.inConversation, decide_eq_decide, Option.isNone_iff_eq_none,
      ← Option.not_isSome_iff_eq_none, commandPattern_iff]
    exact Iff.rfl
  obtain ⟨pr, trPr, t₁, s₁, rfl, -, hfiles⟩ := ends_bind_ok h
  obtain ⟨files, trFiles, t₂, s₂, rfl, -, hcomments⟩ := ends_bind_ok hfiles
  obtain ⟨comments, tr₂, t₃, s₃, rfl, hread, hfilter⟩ := ends_bind_ok hcomments
  obtain ⟨rfl, hcontent, rfl⟩ := ends_ret hfilter
  cases hcontent
  refine ⟨s₂, trPr ++ trFiles, tr₂, comments, ?_, hread, ?_⟩
  · rw [List.append_nil, List.append_assoc]
  · exact List.filter_congr fun comment _ => hsame comment

end Conversation

section Example

attribute [local instance] asciiDb

def commentAt (minute : Nat) (login type body : String) : CommentData where
  user := some { login, type }
  body := some body
  createdAt := {
    year := 2026
    month := 3
    day := 1
    hour := 9
    minute
    second := 0
    microsecond := 0
    utcOffset := some 0 }

/-- The bot, a command and a question. -/
def threeComments : List CommentData :=
  [commentAt 0 "vidi-pr[bot]" "Bot" "Done.",
   commentAt 1 "alice" "User" "hi\n@Vidi-PR review  \n",
   commentAt 2 "alice" "User" "Why?"]

def discussed : Replies where
  github
    | .issuesListComments .. => .ok threeComments
    | op => exampleGithub (.ok (1 : Nat)) op
  chat := .ok exampleChat

theorem conversation_without_triggers_discussed :
    ∃ (content : PRContent) (trRead trComments : ReqTrace)
    (comments : List ConversationComment),
    ((Reviewer.fetchPrContent exampleJob true "vidi-pr[bot]").eval discussed.answer ()).1 =
        trRead ++ trComments ∧
      Ends discussed.sem (GitHubClient.getPrComments 5 "o/r" 7) () trComments (.ok comments) () ∧
      content.conversation.map (·.body) = ["Why?"] ∧
      content.conversation = comments.filter fun comment =>
        comment.authorLogin ≠ "vidi-pr[bot]" ∧ ¬ startsReview comment := by
  have hrun := discussed.ends (Reviewer.fetchPrContent exampleJob true "vidi-pr[bot]")
  obtain ⟨content, hcontent⟩ : ∃ content, ((Reviewer.fetchPrContent exampleJob true
      "vidi-pr[bot]").eval discussed.answer ()).2.1 = .ok content := ⟨_, rfl⟩
  have hbodies : (((Reviewer.fetchPrContent exampleJob true "vidi-pr[bot]").eval discussed.answer
      ()).2.1.toOption.map fun content => content.conversation.map (·.body)) = some ["Why?"] := by
    decide +kernel
  rw [hcontent] at hrun hbodies
  obtain ⟨s₁, trRead, trComments, comments, htr, hread, hfilter⟩ :=
    (conversation_without_triggers exampleJob "vidi-pr[bot]").2 hrun
  exact ⟨content, trRead, trComments, comments, htr, hread, Option.some.inj hbodies, hfilter⟩

end Example

end VidiPr
