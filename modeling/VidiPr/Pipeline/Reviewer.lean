import VidiPr.Pipeline.Chunking
import VidiPr.Pipeline.Rendering
import VidiPr.Pipeline.ReviewResult
import VidiPr.Prompts.Composer
import VidiPr.Transport.GitHubClient

/-!
# The reviewer

`pipeline/fetcher.py` and `pipeline/reviewer.py`: one review from the first read of the pull
request to the posted body. `prepare` does everything but the post; it ends early, with the result
of the job, or with a body to post.
-/

namespace VidiPr

open Effect Text

/-- `LLMClient.chat`: one request to the model, however often the client sends it to get it
answered. What it makes of the outcomes is `OpenAICompatClient.chat`. -/
def Py.chat (messages : List Message) (temperature : Rat) (maxTokens : Nat) : Py ChatResponse :=
  Prog.perform (Req.ext (.chat messages temperature maxTokens))

/-- `Reviewer`, without its clients. -/
structure Reviewer where
  defaults : DefaultsConfig
  pipeline : PipelineConfig
  llm : LLMConfig
  botLogin : String

structure PromptDump where
  label : String
  messages : List Message
deriving DecidableEq, Repr

/-- A review that is ready to be posted. -/
structure Prepared where
  body : String
  statusDetail : Option JobStatusDetail
  durationNanos : Nat
  chunkCount : Nat
  promptTokens : Int
  completionTokens : Int
  prompts : List PromptDump
deriving DecidableEq, Repr

/-- `RenderedReview`: an early result, or a body. -/
inductive RenderedReview where
  | early (result : ReviewResult)
  | ready (review : Prepared)
deriving DecidableEq, Repr

/-- `_ChunksResult`: what the loop over the chunks has gathered so far, the counts of tokens added
up and the prompts kept in the order they were sent. -/
structure ChunksResult where
  outputs : List ParsedReview := []
  promptTokens : Int := 0
  completionTokens : Int := 0
  reasoningChars : Nat := 0
  lastFinishReason : Option String := none
  prompts : List PromptDump := []

/-- `_SynthesisResult`: the review that is rendered in the end. Its counts are those of the
synthesis alone, zero where a single chunk made one unnecessary. -/
structure SynthesisResult where
  review : ParsedReview
  promptTokens : Int := 0
  completionTokens : Int := 0
  reasoningChars : Nat := 0
  lastFinishReason : Option String := none
  prompt : Option PromptDump := none

namespace Reviewer

variable [UnicodeDb] [ConfigLibrary] [PromptFiles] (reviewer : Reviewer)

/-! ## Fetching -/

/-- `_TRIGGER_PATTERN` of the fetcher: `^@vidi-pr\s+review\b`, case-insensitive and multi-line. -/
def commandPattern : Regex :=
  .seq .lineStart <| Regex.literal Regex.caseVariants "@vidi-pr" <|
    .seq (.some' isSpace) <| Regex.literal Regex.caseVariants "review" (.boundary isWord)

/-- A comment that belongs to the conversation. -/
def inConversation (botLogin : String) (comment : ConversationComment) : Bool :=
  comment.authorLogin ≠ botLogin ∧ (commandPattern.search comment.body).isNone

/-- `fetch_pr_content`. The pull request and its files are always read, the comments only if the
conversation is wanted; of these the bot's own and the trigger commands are left out. -/
def fetchPrContent (job : Job) (includeConversation : Bool) (botLogin : String) : Py PRContent := do
  let pr ← GitHubClient.getPr job.installationId job.repo job.prNumber
  let files ← GitHubClient.getPrFiles job.installationId job.repo job.prNumber
  if ¬ includeConversation then return { pr, files, conversation := [] }
  else do
    let allComments ← GitHubClient.getPrComments job.installationId job.repo job.prNumber
    return { pr, files, conversation := allComments.filter (inConversation botLogin) }

/-- `_load_repo_config`. The default branch is asked of GitHub, and the loader is made for this
call, so that nothing is in its cache yet. -/
def loadRepoConfig (job : Job) (pr : PRInfo) : Py RepoConfig := do
  let repoData ← GitHubClient.getRepo job.installationId job.repo
  let loader ← RepoConfigLoader.new (GitHubClient.forInstallation job.installationId)
    reviewer.defaults
  loader.load job.repo pr.baseRef repoData.defaultBranch

/-- `_filter_files`: the files that have a patch and that no ignore pattern matches, in the order
GitHub lists them. -/
def filterFiles (files : List ChangedFile) (repoConfig : RepoConfig) : List ChangedFile :=
  files.filter fun file => file.patch.isSome && !isIgnored repoConfig file.filename

/-! ## The model -/

/-- The results of the chunks with one more. -/
def ChunksResult.add (result : ChunksResult) (label : String) (messages : List Message)
    (response : ChatResponse) : ChunksResult where
  outputs := result.outputs ++ [parseReviewOutput response.content]
  promptTokens := result.promptTokens + response.usage.promptTokens
  completionTokens := result.completionTokens + response.usage.completionTokens
  reasoningChars := result.reasoningChars + response.reasoningContent.length
  lastFinishReason := response.finishReason
  prompts := result.prompts ++ [{ label, messages }]

/-- The loop of `_run_chunks`, from chunk `index` of `total` on. -/
def reviewChunks (job : Job) (content : PRContent) (repoConfig : RepoConfig) (total : Nat) :
    List Chunk → Nat → ChunksResult → Py ChunksResult
  | [], _, result => return result
  | chunk :: rest, index, result => do
    let messages ← Py.ofExcept
      (composeReviewPrompt repoConfig content.pr content.conversation chunk job.extraContext)
    let label :=
      if 1 < total then "chunk " ++ toString (index + 1) ++ "/" ++ toString total else "review"
    let response ← Py.chat messages reviewer.llm.temperature reviewer.llm.maxTokens
    reviewChunks job content repoConfig total rest (index + 1)
      (ChunksResult.add result label messages response)

/-- `_run_chunks`: one prompt and one answer for each chunk, one after the other. An exception of
one of them ends the loop, and what was gathered before is lost. -/
def runChunks (job : Job) (content : PRContent) (repoConfig : RepoConfig) (chunks : List Chunk) :
    Py ChunksResult :=
  reviewChunks reviewer job content repoConfig chunks.length chunks 0 {}

/-- `_maybe_synthesize`. The answer to a single chunk is the review; the answers to several are put
into one more prompt, and the answer to that is the review. -/
def maybeSynthesize (repoConfig : RepoConfig) (chunkOutputs : List ParsedReview) :
    Py SynthesisResult :=
  match chunkOutputs with
  | [review] => return { review }
  | _ => do
    let messages ← Py.ofExcept
      (composeSynthesisPrompt repoConfig (chunkOutputs.map (·.raw)))
    let response ← Py.chat messages reviewer.llm.temperature reviewer.llm.maxTokens
    return {
      review := parseReviewOutput response.content
      promptTokens := response.usage.promptTokens
      completionTokens := response.usage.completionTokens
      reasoningChars := response.reasoningContent.length
      lastFinishReason := response.finishReason
      prompt := some { label := "synthesis", messages } }

/-- The body of the `try` of `prepare`. -/
def askModel (job : Job) (content : PRContent) (repoConfig : RepoConfig) (chunks : List Chunk) :
    Py (ChunksResult × SynthesisResult) := do
  let chunksResult ← runChunks reviewer job content repoConfig chunks
  let synthesis ← maybeSynthesize reviewer repoConfig chunksResult.outputs
  return (chunksResult, synthesis)

/-! ## Preparing -/

/-- An early end that is not a failure. -/
def endEarly (started : Nat) (detail : JobStatusDetail) : Py RenderedReview := do
  let now ← Py.perfCounter
  return .early {
    status := .done
    statusDetail := some detail
    durationNanos := now - started }

/-- `_failure_from`: a failed result, with the whole text of the exception for the store and its
first 200 characters in the comment. -/
def failureFrom (exc : PyError) (started : Nat) (kind : JobStatusDetail) : Py ReviewResult := do
  let now ← Py.perfCounter
  let message := exc.str
  return {
    status := .failed
    statusDetail := some kind
    durationNanos := now - started
    error := some message
    failureMessage := some ("vidi-pr could not complete the review: " ++ kind.value ++ " ("
      ++ String.ofList (message.toList.take 200) ++ ")") }

/-- `x or y` of two optional strings. -/
def orElse (x y : Option String) : Option String := if x.getD "" = "" then y else x

/-- The end of `prepare`, on what the model said. -/
def render (started : Nat) (packing : PackingResult) (chunksResult : ChunksResult)
    (synthesis : SynthesisResult) : Py RenderedReview := do
  let promptTokens := chunksResult.promptTokens + synthesis.promptTokens
  let completionTokens := chunksResult.completionTokens + synthesis.completionTokens
  let now ← Py.perfCounter
  let durationNanos := now - started
  let body := renderReviewBody {
    parsed := synthesis.review
    model := reviewer.llm.model
    durationNanos
    promptTokens
    completionTokens
    skipped := packing.skipped
    reasoningChars := chunksResult.reasoningChars + synthesis.reasoningChars
    finishReason := orElse synthesis.lastFinishReason chunksResult.lastFinishReason }
  return .ready {
    body
    statusDetail := if synthesis.review.parseFailed then some .parseFailed else none
    durationNanos
    chunkCount := packing.chunks.length
    promptTokens
    completionTokens
    prompts := chunksResult.prompts ++ synthesis.prompt.toList }

/-- `prepare` once the content is there. -/
def reviewContent (job : Job) (started : Nat) (repoConfig : RepoConfig) (content : PRContent) :
    Py RenderedReview :=
  let eligibleFiles := filterFiles content.files repoConfig
  if eligibleFiles.isEmpty then endEarly started .noReviewableFiles
  else
    let packing := packChunks {
      maxFiles := reviewer.pipeline.maxFiles
      maxChunks := reviewer.pipeline.maxChunks
      maxChunkChars := reviewer.pipeline.maxChunkChars } eligibleFiles
    if packing.chunks.isEmpty then endEarly started .noReviewableFiles
    else (askModel reviewer job content repoConfig packing.chunks).andThen fun
      | .ok (chunksResult, synthesis) => render reviewer started packing chunksResult synthesis
      | .error exc =>
        if exc.isLLMError ∨ exc.isGitHubError then do
          let result ← failureFrom exc started .llmFailure
          return .early result
        else Py.throw exc

/-- `prepare`: everything up to the post. The draft check comes before the config is loaded, and the
config decides whether the comments are read. The clock is read first, so that a duration counts
from here. -/
def prepare (job : Job) (skipDraftCheck : Bool) : Py RenderedReview := do
  let started ← Py.perfCounter
  let prNow ← GitHubClient.getPr job.installationId job.repo job.prNumber
  if prNow.draft ∧ ¬ skipDraftCheck then endEarly started .draftedAfterEvent
  else do
    let repoConfig ← loadRepoConfig reviewer job prNow
    let includeConversation :=
      repoConfig.review.includeConversation.getD reviewer.defaults.includeConversation
    let content ← fetchPrContent job includeConversation reviewer.botLogin
    reviewContent reviewer job started repoConfig content

/-! ## Posting -/

/-- The retry loop of `_post_with_retry`, with `retries` attempts left after the next. -/
def postAttempts (job : Job) (body : String) : Nat → Py Nat
  | 0 => GitHubClient.createReview job.installationId job.repo job.prNumber body
  | retries + 1 =>
    (GitHubClient.createReview job.installationId job.repo job.prNumber body).tryCatch fun
      | .gitHubTransientError _ => do
        Py.sleep
        postAttempts job body retries
      | x => Py.throw x

/-- `_post_with_retry`: three attempts. -/
def postWithRetry (job : Job) (body : String) : Py Nat := postAttempts job body 2

/-- What `run` returns once the body is posted, or is not. -/
def conclude (review : Prepared) : Except PyError Nat → Py ReviewResult
  | .ok reviewId => return {
      status := .done
      statusDetail := review.statusDetail
      reviewId := some reviewId
      durationNanos := review.durationNanos
      chunkCount := review.chunkCount
      promptTokens := review.promptTokens
      completionTokens := review.completionTokens }
  | .error (.gitHubPermanentError message) => return {
      status := .done
      statusDetail := some .prClosed
      durationNanos := review.durationNanos
      chunkCount := review.chunkCount
      promptTokens := review.promptTokens
      completionTokens := review.completionTokens
      error := some message }
  | .error exc =>
    if exc.isGitHubError then return {
      status := .failed
      statusDetail := some .githubFailure
      durationNanos := review.durationNanos
      chunkCount := review.chunkCount
      promptTokens := review.promptTokens
      completionTokens := review.completionTokens
      error := some exc.str }
    else Py.throw exc

/-- `run`: an early result is returned as it is. Otherwise the body is posted, and how the post
ended decides on the result. -/
def run (job : Job) : Py ReviewResult := do
  let rendered ← prepare reviewer job false
  match rendered with
  | .early result => return result
  | .ready review => (postWithRetry job review.body).andThen (conclude review)

end Reviewer

end VidiPr
