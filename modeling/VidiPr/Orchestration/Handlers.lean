import VidiPr.Orchestration.Locks
import VidiPr.Orchestration.Triggers
import VidiPr.Transport.GitHubClient

/-!
# The event handlers

`orchestration/handlers.py`. An event is the attributes a handler reads; one that
`getattr(…, None)` may miss is an `Option`. The installation is read as `event.installation.id`,
which raises where the payload has none.
-/

namespace VidiPr

open Effect Text

def defaultBotLogin : String := "vidi-pr[bot]"

structure PullRequestEvent where
  action : Option String
  /-- `getattr(pr, "draft", False)` is truthy -/
  draft : Bool
  prNumber : Nat
  headSha : String
  repo : String
  installation : Option Nat
deriving DecidableEq, Repr

structure IssueCommentEvent where
  action : Option String
  /-- `issue.pull_request` is there -/
  isPullRequest : Bool
  issueNumber : Nat
  senderLogin : String
  commentId : Nat
  commentBody : Option String
  authorAssociation : Option String
  repo : String
  defaultBranch : String
  installation : Option Nat
deriving DecidableEq, Repr

/-- `event.installation.id`, which raises an `AttributeError` where the event comes without an
installation. -/
def installationId (installation : Option Nat) : Except PyError Nat :=
  match installation with
  | some id => .ok id
  | none => .error (.other "'NoneType' object has no attribute 'id'")

structure OrchestrationHandler where
  defaults : DefaultsConfig
  botLogin : String := defaultBotLogin

namespace OrchestrationHandler

/-- `_AUTO_TRIGGER_ACTIONS` -/
def autoTriggerActions : List String := ["opened", "ready_for_review"]

/-- `on_pull_request`: a pull request that is opened, or taken out of draft, is enqueued. Nothing is
asked of GitHub, and the head is that of the event. -/
def onPullRequest (event : PullRequestEvent) : Py Unit :=
  if ¬ event.action.any (· ∈ autoTriggerActions) then return
  else if event.draft then return
  else do
    let id ← Py.ofExcept (installationId event.installation)
    let _ ← Py.withSession (tryEnqueueReview {
      installationId := id
      repo := event.repo
      prNumber := event.prNumber
      headSha := event.headSha
      triggerKind := .auto })
    return

variable [UnicodeDb] [ConfigLibrary] (handler : OrchestrationHandler)

/-- The review an accepted comment asks for. -/
def commentArgs (event : IssueCommentEvent) (id : Nat) (parsed : ParsedTrigger) (pr : PRInfo) :
    EnqueueArgs where
  installationId := id
  repo := event.repo
  prNumber := event.issueNumber
  headSha := pr.headSha
  triggerKind := .comment
  extraContext := parsed.extraContext

/-- What `on_issue_comment` does once the config is known: nothing where the bot is disabled, a
thumbs-down for a sender who may not ask, and otherwise the eyes, and then the job. -/
def actOnComment (event : IssueCommentEvent) (id : Nat) (parsed : ParsedTrigger) (pr : PRInfo)
    (repoConfig : RepoConfig) : Py Unit :=
  if ¬ repoConfig.enabled then return
  else if ¬ isAuthorized event.senderLogin (event.authorAssociation.getD "") repoConfig then
    GitHubClient.reactToComment id event.repo event.commentId .minusOne
  else do
    GitHubClient.reactToComment id event.repo event.commentId .eyes
    let _ ← Py.withSession (tryEnqueueReview (commentArgs event id parsed pr))
    return

/-- `on_issue_comment`. The gates that need no request come first: a new comment, on a pull request,
not by the bot, with a command in it. Then the pull request and the config are read, and the config
decides. -/
def onIssueComment (event : IssueCommentEvent) : Py Unit :=
  if event.action ≠ some "created" then return
  else if ¬ event.isPullRequest then return
  else if event.senderLogin = handler.botLogin then return
  else match parseTrigger event.commentBody with
    | none => return
    | some parsed => do
      let id ← Py.ofExcept (installationId event.installation)
      let pr ← GitHubClient.getPr id event.repo event.issueNumber
      let loader ← RepoConfigLoader.new (GitHubClient.forInstallation id) handler.defaults
      let repoConfig ← loader.load event.repo pr.baseRef event.defaultBranch
      actOnComment event id parsed pr repoConfig

end OrchestrationHandler

end VidiPr
