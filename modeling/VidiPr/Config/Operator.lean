/-!
# Operator configuration

The sections of `config/operator.py` that the modelled code reads, with the baked-in fallbacks of
`config/defaults.py`.
-/

namespace VidiPr

inductive Strictness where
  | lenient
  | normal
  | strict
deriving DecidableEq, Repr

def Strictness.value : Strictness → String
  | .lenient => "lenient"
  | .normal => "normal"
  | .strict => "strict"

def defaultAllowedAssociations : List String := ["OWNER", "COLLABORATOR"]

def absentConfigAllowedAssociations : List String := ["OWNER"]

structure LLMConfig where
  model : String
  temperature : Rat := 1 / 5
  maxTokens : Nat := 4096

structure PipelineConfig where
  maxFiles : Nat := 50
  maxChunks : Nat := 5
  maxChunkChars : Nat := 80000
  maxConversationChars : Nat := 15000
  jobTimeoutSeconds : Nat := 900
  failureCommentCooldownSeconds : Nat := 3600

structure DefaultsConfig where
  enabled : Bool := true
  allowedAssociations : List String := defaultAllowedAssociations
  strictness : Strictness := .normal
  includeConversation : Bool := true

structure OperatorConfig where
  llm : LLMConfig
  pipeline : PipelineConfig := {}
  defaults : DefaultsConfig := {}
  webhookSecret : String

end VidiPr
