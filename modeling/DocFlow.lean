import DocFlow.Lib.Machine
import DocFlow.Lib.Table
import DocFlow.Domain
import DocFlow.Database
import DocFlow.Planning.UseCases
import DocFlow.Planning.Dag
import DocFlow.Planning.Replan
import DocFlow.TaskRuntime.Transactions
import DocFlow.TaskRuntime.ClaimSteps
import DocFlow.TaskRuntime.Effects
import DocFlow.TaskRuntime.System
import DocFlow.TaskRuntime.Ownership
import DocFlow.TaskRuntime.Fencing
import DocFlow.TaskRuntime.TaskGraph
import DocFlow.TaskRuntime.DagExecution
import DocFlow.TaskRuntime.RetryBackoff
import DocFlow.TaskRuntime.Workers
import DocFlow.TaskRuntime.Deliveries
import DocFlow.TaskRuntime.Attempts
import DocFlow.TaskRuntime.CompensationBound
import DocFlow.TaskRuntime.Wakeups
import DocFlow.TaskRuntime.Vigilance
import DocFlow.TaskRuntime.Locks
import DocFlow.Context.CompleteTurn
import DocFlow.Lib.EventLog
import DocFlow.Context.EventSourcing
import DocFlow.Aggregation.AggregatePlan
import DocFlow.Context.Footprint
import DocFlow.Aggregation.ExactlyOnce
import DocFlow.Context.Selection
import DocFlow.Planning.Marks
import DocFlow.Workflow.Steps
import DocFlow.Workflow.System
import DocFlow.Workflow.Lineage
import DocFlow.Workflow.Clarifications
import DocFlow.Workflow.Resolution
import DocFlow.Workflow.PlanTasks
import DocFlow.Workflow.RevisionChain
import DocFlow.Planning.RunPlanning
import DocFlow.Workflow.PlannerRun
import DocFlow.Conversation.SendMessage
import DocFlow.Workflow.Replies
import DocFlow.Workflow.ReplanDeliveries
import DocFlow.Workflow.Stranding
import DocFlow.Workflow.Wakefulness
import DocFlow.Document.Domain
import DocFlow.Document.Stages
import DocFlow.Document.Process
import DocFlow.Document.Chunking
import DocFlow.Document.Indexing
import DocFlow.Document.Pipeline
import DocFlow.Document.Steps
import DocFlow.Document.Ownership
import DocFlow.Document.Chunks
import DocFlow.Document.Retry
import DocFlow.Document.Fences
import DocFlow.Document.Vectors
import DocFlow.Document.Files
import DocFlow.Document.Freshness
import DocFlow.Document.Lifecycle
import DocFlow.Context.ResourceQueue
import DocFlow.Context.HotResources
import DocFlow.Context.CacheRebuild
import DocFlow.Context.CacheReads
import DocFlow.Planning.Publication
import DocFlow.Messaging.Outbox
import DocFlow.Messaging.Batches
import DocFlow.Messaging.Bookkeeping
import DocFlow.Messaging.Duplicates
import DocFlow.Messaging.StreamWorker
import DocFlow.Messaging.StreamGroup
import DocFlow.AgentRuntime.ToolCalls
import DocFlow.Lib.Listing
import DocFlow.Context.QueryTools
import DocFlow.Context.ResourceBackfill
import DocFlow.Context.SelectionMigration
import DocFlow.Context.ReadSet
import DocFlow.Context.SelectContext
import DocFlow.TaskRuntime.AgentExecutor
import DocFlow.Lib.Text
import DocFlow.Lib.Pattern
import DocFlow.Document.Markdown
import DocFlow.Document.Splitting
import DocFlow.Document.MarkdownChunks
import DocFlow.Lib.Json
import DocFlow.Lib.Csv
import DocFlow.Document.Csv
import DocFlow.Document.CsvChunks
import DocFlow.Lib.JsonLoads
import DocFlow.Lib.Base64
import DocFlow.Lib.Calendar
import DocFlow.Lib.Paging
import DocFlow.Operations.JsonlLogs
import DocFlow.Operations.LogReading
import DocFlow.Operations.LogPages
import DocFlow.Operations.ToolTimeline
import DocFlow.Lib.JsonLines
import DocFlow.Operations.LogWriting
import DocFlow.Planning.WellFormed
import DocFlow.Document.TextChunks
import DocFlow.Document.CsvBatches
import DocFlow.Document.Cleaning
import DocFlow.Lib.Chains
import DocFlow.TaskRuntime.DeterministicExecutor
import DocFlow.Planning.PlannerInput
import DocFlow.Agents.Collectors
import DocFlow.Context.StrictSchemaReferences
import DocFlow.TaskRuntime.AwaitQuiescence
import DocFlow.Context.RouteLock
import DocFlow.Document.NamedLock
import DocFlow.Document.Upload
import DocFlow.Document.WholeUploads
import DocFlow.Workflow.PlannerGraph
import DocFlow.Operations.CallTimeline
import DocFlow.Messaging.Draining
import DocFlow.TaskRuntime.Completion
