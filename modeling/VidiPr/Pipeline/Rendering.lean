import VidiPr.Lib.Regex
import VidiPr.Lib.Unicode
import VidiPr.Models.Review

/-!
# From a reply to a review body

`pipeline/parsing.py`, `prompts/footer.py` and the rendering half of `pipeline/reviewer.py`: the
four sections of a reply, the list of what was not reviewed, the footer, and the cut at GitHub's
length limit. Durations are nanoseconds.
-/

namespace VidiPr

open Text

/-! ## The sections of a reply -/

/-- `_HEADING`: `^##\s+(Summary|Findings|Suggestions|Positives)\s*$`, multi-line. -/
def headingPattern : Regex :=
  .seq .lineStart <| .seq (.chr (· = '#')) <| .seq (.chr (· = '#')) <| .seq (.some' isSpace) <|
    .seq (.group (.alt (.exactly "Summary") (.alt (.exactly "Findings")
      (.alt (.exactly "Suggestions") (.exactly "Positives"))))) <|
    .seq (.many isSpace true) .lineEnd

/-- The name of each heading, with the text between it and the next. -/
def sectionsOf : List (Cursor × Cursor) → List (String × String)
  | [] => []
  | [(_, matched)] =>
    [(String.ofList (matched.group.getD []), strip (String.ofList matched.after))]
  | (_, matched) :: (next, matched') :: rest =>
    (String.ofList (matched.group.getD []), strip (String.ofList (matched.upTo next))) ::
      sectionsOf ((next, matched') :: rest)

/-- `parse_review_output`: of a section that occurs twice the last counts. -/
def parseReviewOutput (text : String) : ParsedReview :=
  let found := headingPattern.findIter text
  if found.isEmpty then {
    summary := ""
    findings := ""
    suggestions := ""
    positives := ""
    raw := text
    parseFailed := true }
  else
    let sections := (sectionsOf found).reverse
    let named (name : String) := (sections.lookup name).getD ""
    { summary := named "Summary"
      findings := named "Findings"
      suggestions := named "Suggestions"
      positives := named "Positives"
      raw := text
      parseFailed := false }

/-! ## The footer -/

/-- `n / d`, rounded to the nearest, halves to even. -/
def roundHalfEven (n d : Nat) : Nat :=
  let quotient := n / d
  if 2 * (n % d) < d then quotient
  else if d < 2 * (n % d) then quotient + 1
  else if quotient % 2 = 0 then quotient else quotient + 1

/-- `format_duration`, of the exact duration. Below a second the source formats a float, which may
round the last digit the other way; the text is as long. -/
def formatDuration (nanos : Nat) : String :=
  let seconds := nanos / 1000000000
  if seconds < 1 then
    let tenths := roundHalfEven nanos 100000000
    toString (tenths / 10) ++ "." ++ toString (tenths % 10) ++ "s"
  else if seconds < 60 then toString seconds ++ "s"
  else if seconds < 3600 then toString (seconds / 60) ++ "m" ++ zeroPad 2 (seconds % 60) ++ "s"
  else toString (seconds / 3600) ++ "h" ++ zeroPad 2 (seconds % 3600 / 60) ++ "m"

/-- `render_footer`. A count is printed whatever its length; Python refuses to print an `int` of more
than 4300 digits. -/
def renderFooter (model : String) (durationNanos : Nat) (promptTokens completionTokens : Int) :
    String :=
  let total := promptTokens + completionTokens
  "---\n_Reviewed by vidi-pr - model: " ++ model ++ " - took " ++ formatDuration durationNanos
    ++ " - tokens: " ++ toString promptTokens ++ "+" ++ toString completionTokens ++ "="
    ++ toString total ++ "_"

/-! ## The body -/

/-- `_MAX_REVIEW_BODY`: GitHub's limit on the length of a review body, in characters. -/
def maxReviewBody : Nat := 65536

/-- `_TRUNCATION_NOTE` -/
def truncationNote : String := "\n\n_(review truncated to fit GitHub's body length limit)_"

/-- `_truncate`: a body that is too long is cut so that with the note behind it it is exactly as
long as it may be. -/
def truncate (body : String) : String :=
  if body.length ≤ maxReviewBody then body
  else
    let available := maxReviewBody - truncationNote.length
    String.ofList (body.toList.take available) ++ truncationNote

/-- `_parse_failure_diagnostic`: how much the model said and why it stopped, with a hint where it
ran out of tokens. It stands in the body above an answer that could not be parsed. -/
def parseFailureDiagnostic (answerChars reasoningChars : Nat) (finishReason : Option String) :
    String :=
  let parts := ["answer: " ++ toString answerChars ++ " chars",
    "reasoning: " ++ toString reasoningChars ++ " chars"]
    ++ (match finishReason with
      | some reason => ["finish_reason: " ++ reason]
      | none => [])
    ++ if finishReason = some "length" then
        ["the model hit `llm.max_tokens` mid-output; raise it, or disable "
          ++ "reasoning via `llm.extra_body`"]
      else []
  "> _(" ++ "; ".intercalate parts ++ ")_"

/-- The model's part of the body. -/
def reviewText (parsed : ParsedReview) (reasoningChars : Nat) (finishReason : Option String) :
    String :=
  if parsed.parseFailed then
    "> _Could not parse model output into the standard four sections._\n"
      ++ parseFailureDiagnostic parsed.raw.length reasoningChars finishReason
      ++ "\n\n"
      ++ "\n".intercalate ((splitLines parsed.raw.toList).map fun line =>
        "> " ++ String.ofList line)
  else
    "\n\n".intercalate <| [("## Summary", parsed.summary), ("## Findings", parsed.findings),
      ("## Suggestions", parsed.suggestions), ("## Positives", parsed.positives)].filterMap
        fun (heading, content) =>
          if content = "" then none else some (heading ++ "\n\n" ++ content)

def skippedHeading : String := "\n\n## Not reviewed due to size\n\n"

/-- A skipped file in the list of them. -/
def skippedLine (name : String) : String := "- `" ++ name ++ "`"

/-- The list of what was not reviewed. -/
def skippedSection (skipped : List String) : String :=
  if skipped.isEmpty then ""
  else skippedHeading ++ "\n".intercalate (skipped.map skippedLine)

/-- What `_render_review_body` is called with. -/
structure ReviewBody where
  parsed : ParsedReview
  model : String
  durationNanos : Nat
  promptTokens : Int
  completionTokens : Int
  skipped : List String
  reasoningChars : Nat
  finishReason : Option String

/-- The body before it is cut. -/
def ReviewBody.full (review : ReviewBody) : String :=
  reviewText review.parsed review.reasoningChars review.finishReason
    ++ skippedSection review.skipped ++ "\n\n"
    ++ renderFooter review.model review.durationNanos review.promptTokens review.completionTokens

/-- `_render_review_body`: the review, the list of the files that were left out, and the
footer, cut to the length a body may have. The cut is made last, so it may take the footer and
the list with it. -/
def renderReviewBody (review : ReviewBody) : String := truncate review.full

section Example

example : parseReviewOutput "## Summary\nFine.\n## Positives\n- short\n" = {
    summary := "Fine."
    findings := ""
    suggestions := ""
    positives := "- short"
    raw := "## Summary\nFine.\n## Positives\n- short\n"
    parseFailed := false } := by decide +kernel

example : formatDuration 250000000 = "0.2s" ∧ formatDuration 3725000000000 = "1h02m" := by
  decide +kernel

end Example

end VidiPr
