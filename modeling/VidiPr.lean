import VidiPr.Service.Queue
import VidiPr.Service.Restart
import VidiPr.Service.Survival
import VidiPr.Config.Trust
import VidiPr.Orchestration.CommentTrigger
import VidiPr.Transport.Webhook
import VidiPr.Service.WebhookSpec
import VidiPr.Service.Receiver
import VidiPr.Service.Dispatch
import VidiPr.Service.Redelivery
import VidiPr.Lib.Schedule
import VidiPr.Service.ReceiverSchedule
import VidiPr.Service.LifeCycle
import VidiPr.Service.Isolation
import VidiPr.Service.Commutation
import VidiPr.Transport.RemoteOperations
import VidiPr.Transport.FailurePolicy
import VidiPr.Lib.Json
import VidiPr.Llm.Client
import VidiPr.Pipeline.Chunking
import VidiPr.Pipeline.Rendering
import VidiPr.Pipeline.Reviewer
import VidiPr.Lib.Trace
import VidiPr.Pipeline.ReviewRuns
import VidiPr.Pipeline.Failures
import VidiPr.Pipeline.Coverage
import VidiPr.Pipeline.Headings
import VidiPr.Pipeline.Packing
import VidiPr.Pipeline.Sections
import VidiPr.Orchestration.TriggerGrammar
import VidiPr.Pipeline.Conversation
import VidiPr.Lib.Pool
import VidiPr.Service.Cooldown
import VidiPr.Pipeline.FailureComment
import VidiPr.Config.Staleness
import VidiPr.Storage.Recovery
import VidiPr.Pipeline.PackingOrder
import VidiPr.Prompts.Languages
import VidiPr.Pipeline.Accounting
import VidiPr.Pipeline.Settings
import VidiPr.Lib.Substitution
import VidiPr.Prompts.Loader
import VidiPr.Pipeline.BodyLimit
import VidiPr.DryRun
import VidiPr.Lib.Tagged
import VidiPr.Prompts.Blocks
import VidiPr.Lib.Budget
import VidiPr.Pipeline.Cost
import VidiPr.Service.Journal
import VidiPr.Service.History
import VidiPr.Pipeline.Outcome
import VidiPr.Service.Ledger
import VidiPr.Service.Notifications
import VidiPr.Service.Provenance
import VidiPr.Service.Reception
import VidiPr.Lib.Progress
import VidiPr.Service.Shutdown
import VidiPr.Lib.Base64Encode
import VidiPr.Config.Wire
import VidiPr.Lib.BinPacking
import VidiPr.Pipeline.PackingBound
import VidiPr.Service.Archive
import VidiPr.Service.Starvation
