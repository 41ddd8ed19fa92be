/-!
# The records of a review

`models/review.py` and `llm/types.py`: what the service reads from GitHub, what it sends to the
model and what it reads back.
-/

namespace VidiPr

inductive Language where
  | python
  | javascript
  | typescript
  | php
  | drupal
  | kotlin
  | c
  | cpp
  | bash
  | yaml
  | sql
  | generic
deriving DecidableEq, Repr

def Language.value : Language → String
  | .python => "python"
  | .javascript => "javascript"
  | .typescript => "typescript"
  | .php => "php"
  | .drupal => "drupal"
  | .kotlin => "kotlin"
  | .c => "c"
  | .cpp => "cpp"
  | .bash => "bash"
  | .yaml => "yaml"
  | .sql => "sql"
  | .generic => "generic"

inductive FileStatus where
  | added
  | modified
  | removed
  | renamed
deriving DecidableEq, Repr

def FileStatus.value : FileStatus → String
  | .added => "added"
  | .modified => "modified"
  | .removed => "removed"
  | .renamed => "renamed"

structure ChangedFile where
  filename : String
  status : FileStatus
  additions : Nat
  deletions : Nat
  patch : Option String
deriving DecidableEq, Repr

structure PRInfo where
  number : Nat
  title : String
  body : Option String
  headSha : String
  baseRef : String
  authorLogin : String
  draft : Bool
deriving DecidableEq, Repr

/-- A Python `datetime`; the offset of an aware one is in minutes. -/
structure DateTime where
  year : Nat
  month : Nat
  day : Nat
  hour : Nat
  minute : Nat
  second : Nat
  microsecond : Nat
  utcOffset : Option Int
deriving DecidableEq, Repr

/-- A number in at least `width` decimal digits. -/
def zeroPad (width n : Nat) : String :=
  let digits := (Nat.toDigits 10 n)
  String.ofList (List.replicate (width - digits.length) '0' ++ digits)

/-- `datetime.isoformat()`. -/
def DateTime.isoformat (t : DateTime) : String :=
  zeroPad 4 t.year ++ "-" ++ zeroPad 2 t.month ++ "-" ++ zeroPad 2 t.day ++ "T"
    ++ zeroPad 2 t.hour ++ ":" ++ zeroPad 2 t.minute ++ ":" ++ zeroPad 2 t.second
    ++ (if t.microsecond = 0 then "" else "." ++ zeroPad 6 t.microsecond)
    ++ match t.utcOffset with
      | none => ""
      | some offset =>
        (if offset < 0 then "-" else "+")
          ++ zeroPad 2 (offset.natAbs / 60) ++ ":" ++ zeroPad 2 (offset.natAbs % 60)

structure ConversationComment where
  authorLogin : String
  isBot : Bool
  body : String
  createdAt : DateTime
deriving DecidableEq, Repr

structure Chunk where
  index : Nat
  total : Nat
  files : List ChangedFile
deriving DecidableEq, Repr

structure ParsedReview where
  summary : String
  findings : String
  suggestions : String
  positives : String
  raw : String
  parseFailed : Bool
deriving DecidableEq, Repr

structure RepoInfo where
  fullName : String
  defaultBranch : String
  isPrivate : Bool
deriving DecidableEq, Repr

structure PRContent where
  pr : PRInfo
  files : List ChangedFile
  conversation : List ConversationComment
deriving DecidableEq, Repr

/-! ## The chat protocol -/

inductive Role where
  | system
  | user
  | assistant
deriving DecidableEq, Repr

structure Message where
  role : Role
  content : String
deriving DecidableEq, Repr

structure TokenUsage where
  promptTokens : Int := 0
  completionTokens : Int := 0
  totalTokens : Int := 0
deriving DecidableEq, Repr

structure ChatResponse where
  content : String
  model : String
  usage : TokenUsage
  reasoningContent : String
  finishReason : Option String
deriving DecidableEq, Repr

end VidiPr
