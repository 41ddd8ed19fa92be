import VidiPr.Config.Repo
import VidiPr.Lib.Regex

/-!
# Who triggers a review with what

`orchestration/triggers.py` and `orchestration/authz.py`.
-/

namespace VidiPr

open Text

section Triggers

variable [UnicodeDb]

/-- `_TRIGGER`: `^@vidi-pr\s+review\b\s*(.*?)\s*$`, case-insensitive and multi-line. -/
def triggerPattern : Regex :=
  .seq .lineStart <| Regex.literal Regex.caseVariants "@vidi-pr" <|
    .seq (.some' isSpace) <| Regex.literal Regex.caseVariants "review" <|
      .seq (.boundary isWord) <| .seq (.many isSpace true) <|
        .seq (.group (.many Regex.notNewline false)) <| .seq (.many isSpace true) .lineEnd

structure ParsedTrigger where
  extraContext : Option String
deriving DecidableEq, Repr

/-- `parse_trigger`: the first match in the body decides, and the text that it captures goes to the
prompt, stripped, unless it is empty. -/
def parseTrigger (body : Option String) : Option ParsedTrigger :=
  match body with
  | none => none
  | some body =>
    if body = "" then none
    else match triggerPattern.search body with
      | none => none
      | some (_, matched) =>
        let extra := strip (String.ofList (matched.group.getD []))
        some { extraContext := if extra = "" then none else some extra }

/-- `is_authorized`: by name, as the config spells it, or by association, whatever the case of its
letters. -/
def isAuthorized (login authorAssociation : String) (repoConfig : RepoConfig) : Bool :=
  if login ∈ repoConfig.allowedUsers then true
  else
    let allowed := repoConfig.allowedAssociations.map UnicodeDb.upper
    UnicodeDb.upper authorAssociation ∈ allowed

/-- The two ways to be authorised. -/
theorem isAuthorized_iff {login authorAssociation : String} {repoConfig : RepoConfig} :
    isAuthorized login authorAssociation repoConfig = true ↔
      login ∈ repoConfig.allowedUsers ∨ ∃ entry ∈ repoConfig.allowedAssociations,
        UnicodeDb.upper entry = UnicodeDb.upper authorAssociation := by
  unfold isAuthorized
  split
  · rename_i h
    simp [h]
  · rename_i h
    simp [h]

end Triggers

section Example

attribute [local instance] asciiDb

example : parseTrigger (some "hi\n@Vidi-PR  review focus on locks \r\n") =
    some ⟨some "focus on locks"⟩ := by decide +kernel

example : parseTrigger (some "> @vidi-pr review") = none := by decide +kernel

example : parseTrigger (some "@vidi-pr review\nnext line") = some ⟨some "next line"⟩ := by
  decide +kernel

end Example

end VidiPr
