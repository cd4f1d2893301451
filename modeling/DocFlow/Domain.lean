import DocFlow.Lib.Table

/-!
# Turns, plans, tasks, executions, events and clarifications

The rows of the tables the planner and the Task Runtime share, with the
enumerations of their status columns.  Identifiers are opaque: a prefixed
`uuid4` string is a number here, and only equality is ever asked of it.  Time is
counted in microseconds.

Columns that no modelled function reads or writes (`created_at`, `user_input`,
`inbox_id`, `processed_at`) are left out.
-/

namespace DocFlow

abbrev PlanId := Nat
abbrev WorkflowId := Nat
abbrev TurnId := Nat
abbrev ConversationId := Nat
abbrev TaskId := Nat
abbrev ExecutionId := Nat
abbrev OperationId := Nat
abbrev AgentRunId := Nat
abbrev EventId := Nat
abbrev DependencyId := Nat
abbrev DocumentId := Nat
abbrev ClarificationId := Nat
/-- The planner's name for a task inside one plan. -/
abbrev TaskRef := String
/-- A `dict` of task output, which the runtime only copies. -/
abbrev OutputJson := List (String × String)

/-- A point in time, in microseconds. -/
abbrev Time := Int

/-- `timedelta(seconds=s)`. -/
def timedelta (s : Int) : Time := s * 1000000

/-! ## Status columns -/

inductive PlanStatus
  | planning | ready | running | completed | unsupported | needsClarification
  | retryPending | replanPending | failed | cancelled | superseded
deriving DecidableEq, Repr

inductive TaskStatus
  | draft | pending | running | retryWait | succeeded | blocked | failed | cancelled | superseded
deriving DecidableEq, Repr

inductive PlanningCapabilityCode
  | processDocument | buildDocumentChunks | indexDocumentVectors
deriving DecidableEq, Repr

def PlanningCapabilityCode.value : PlanningCapabilityCode → String
  | .processDocument => "process_document"
  | .buildDocumentChunks => "build_document_chunks"
  | .indexDocumentVectors => "index_document_vectors"

inductive TaskExecutionStatus
  | running | compensationRequired | compensationLocked | compensated | succeeded | failed
deriving DecidableEq, Repr

inductive CompensationLockReason
  | retryExhausted | systemFailure | unknown
deriving DecidableEq, Repr

inductive RuntimeEventType
  | planWakeup | replanRequested | aggregationRequested
deriving DecidableEq, Repr

inductive OutboxEventStatus
  | pending | published | deadLetter
deriving DecidableEq, Repr

inductive ContextTurnStatus
  | routing | contextReady | processing | completed | failed | needsClarification
deriving DecidableEq, Repr

inductive ClarificationStatus
  | opened | answered | resolved | expired
deriving DecidableEq, Repr

inductive ClarificationKind
  | resource | intent | missingParameter
deriving DecidableEq, Repr

/-- The exceptions a use case leaves with. -/
inductive Failure
  | valueError (message : String)
  | runtimeError (message : String)
  | integrityError
  | applicationError (statusCode : Nat) (message resultCode : String)
  | clarificationError (statusCode : Nat) (message : String)
  | contextTurnNotFound (message : String)
  | contextConflict (message : String)
  | contextValidation (message : String)
deriving DecidableEq, Repr

/-! ## Rows -/

structure ConversationTurn where
  turnId : TurnId
  conversationId : ConversationId
  status : ContextTurnStatus
  taskIds : List TaskId
  clarificationInput : Option String
  assistantContent : Option String
  assistantCompact : Option String
  taskResultSummary : Option String
  completedAt : Option Time
deriving DecidableEq, Repr

structure Plan where
  planId : PlanId
  workflowId : WorkflowId
  turnId : TurnId
  parentPlanId : Option PlanId
  currentTaskId : Option TaskId
  status : PlanStatus
  revision : Nat
  failureCode : Option String
  failureReason : Option String
  startedAt : Option Time
  completedAt : Option Time
deriving DecidableEq, Repr

/-- The two keys the planner writes into `input_json`; publication removes the
second. -/
structure TaskInput where
  documentId : DocumentId
  dependsOnTaskRefs : Option (List TaskRef)
deriving DecidableEq, Repr

structure Task where
  taskId : TaskId
  planId : PlanId
  turnId : TurnId
  taskRef : TaskRef
  capabilityCode : PlanningCapabilityCode
  inputJson : TaskInput
  sequence : Nat
  status : TaskStatus
  attemptCount : Nat
  maxAttempts : Int
  outputJson : Option OutputJson
  lastErrorCode : Option String
  lastErrorMessage : Option String
  startedAt : Option Time
  completedAt : Option Time
deriving DecidableEq, Repr

/-- `taskId` runs after `dependsOnTaskId`. -/
structure TaskDependency where
  dependencyId : DependencyId
  planId : PlanId
  taskId : TaskId
  dependsOnTaskId : TaskId
deriving DecidableEq, Repr

/-- `(task_id, depends_on_task_id)` is unique. -/
def TaskDependency.edge (d : TaskDependency) : TaskId × TaskId := (d.taskId, d.dependsOnTaskId)

structure TaskExecution where
  executionId : ExecutionId
  taskId : TaskId
  planId : PlanId
  workflowId : WorkflowId
  attempt : Nat
  status : TaskExecutionStatus
  executorCode : String
  inputSnapshotJson : TaskInput
  outputJson : Option OutputJson
  resourceRefsJson : List String
  errorCode : Option String
  errorMessage : Option String
  retryable : Option Bool
  blocked : Bool
  agentRunId : Option AgentRunId
  operationId : OperationId
  compensationAttemptCount : Nat
  compensationLastError : Option String
  compensationLastAttemptAt : Option Time
  compensationLockedAt : Option Time
  compensationLockReason : Option CompensationLockReason
  startedAt : Time
  completedAt : Option Time
deriving DecidableEq, Repr

/-- The payload of a `planning.replan_requested` event. -/
structure ReplanPayload where
  workflowId : WorkflowId
  conversationId : ConversationId
  rootTurnId : TurnId
  previousPlanId : PlanId
  nextRevision : Nat
  triggerType : String
  sourceTaskId : Option TaskId
  errorCode : Option String
  errorMessage : Option String
deriving DecidableEq, Repr

/-- `payload_json`: the default payload names the plan, a compensation wake-up
also names the execution and the operation it is meant for. -/
inductive EventPayload
  | plan (workflowId : WorkflowId) (planId : PlanId)
  | compensation (workflowId : WorkflowId) (planId : PlanId) (executionId : ExecutionId)
      (operationId : OperationId)
  | replan (payload : ReplanPayload)
deriving DecidableEq, Repr

/-- `payload["plan_id"]`. -/
def EventPayload.planId : EventPayload → Option PlanId
  | .plan _ p | .compensation _ p _ _ => some p
  | .replan _ => none

/-- `payload.get("execution_id")`. -/
def EventPayload.executionId : EventPayload → Option ExecutionId
  | .compensation _ _ e _ => some e
  | _ => none

/-- `payload.get("operation_id")`. -/
def EventPayload.operationId : EventPayload → Option OperationId
  | .compensation _ _ _ o => some o
  | _ => none

structure OutboxEvent where
  eventId : EventId
  eventType : RuntimeEventType
  aggregateId : PlanId
  payload : EventPayload
  status : OutboxEventStatus
  attempts : Nat
  availableAt : Time
  publishedAt : Option Time
deriving DecidableEq, Repr

structure InboxEvent where
  consumerName : String
  eventId : EventId
deriving DecidableEq, Repr

/-- `(consumer_name, event_id)` is unique. -/
def InboxEvent.uniqueKey (e : InboxEvent) : String × EventId := (e.consumerName, e.eventId)

structure ClarificationRequest where
  clarificationId : ClarificationId
  conversationId : ConversationId
  sourceTurnId : TurnId
  sourcePlanId : PlanId
  kind : ClarificationKind
  reason : String
  question : Option String
  requiredInformationJson : List String
  knownResourceRefsJson : List String
  status : ClarificationStatus
  answerTurnId : Option TurnId
  resolvedAt : Option Time
deriving DecidableEq, Repr

/-! ## Capabilities -/

structure CapabilityDefinition where
  capabilityCode : PlanningCapabilityCode
  executorCode : String
  compensatorCode : Option String
  maxAttempts : Int
  timeoutSeconds : Int
  sideEffect : Bool
deriving DecidableEq, Repr

/-- Definitions with pairwise different capability codes. -/
abbrev CapabilityRegistry := Table CapabilityDefinition.capabilityCode

def CapabilityRegistry.require (registry : CapabilityRegistry) (code : PlanningCapabilityCode) :
    Except Failure CapabilityDefinition :=
  match registry.get? code with
  | some definition => .ok definition
  | none => .error (.valueError ("未知 Capability: " ++ code.value))

theorem CapabilityRegistry.require_eq_ok {registry : CapabilityRegistry}
    {code : PlanningCapabilityCode} {definition : CapabilityDefinition} :
    registry.require code = .ok definition ↔ registry.get? code = some definition := by
  unfold require
  split <;> simp [*]

/-- The three document capabilities. -/
def buildCapabilityRegistry : CapabilityRegistry where
  rows :=
    [ { capabilityCode := .processDocument, executorCode := "document.process",
        compensatorCode := some "document.process", maxAttempts := 3, timeoutSeconds := 300,
        sideEffect := true },
      { capabilityCode := .buildDocumentChunks, executorCode := "document.build_chunks",
        compensatorCode := some "document.build_chunks", maxAttempts := 3, timeoutSeconds := 300,
        sideEffect := true },
      { capabilityCode := .indexDocumentVectors, executorCode := "document.index_vectors",
        compensatorCode := some "document.index_vectors", maxAttempts := 3, timeoutSeconds := 900,
        sideEffect := true } ]
  nodup := by decide

/-! ## What the runtime hands to its workers -/

/-- `RecoverySnapshot`, and the fields of `TaskSnapshot` that the outcome
transactions read. -/
structure Snapshot where
  taskId : TaskId
  planId : PlanId
  workflowId : WorkflowId
  conversationId : ConversationId
  turnId : TurnId
  capabilityCode : PlanningCapabilityCode
  inputJson : TaskInput
  attempt : Nat
  maxAttempts : Int
  executionId : ExecutionId
  operationId : OperationId
  agentRunId : AgentRunId
deriving DecidableEq, Repr

structure TaskSnapshot extends Snapshot where
  sequence : Nat
  executorCode : String
deriving DecidableEq, Repr

structure TaskExecutionError where
  errorCode : String
  message : String
  retryable : Bool
  blocked : Bool
deriving DecidableEq, Repr

/-- What a claim answers.  The snapshot an outcome needs is an argument of its
constructor. -/
inductive ClaimNextTaskResult
  | claimed (task : TaskSnapshot)
  | compensationRequired (recovery : Snapshot)
  | compensationLocked (recovery : Snapshot)
  | alreadyRunning
  | noTask
  | terminal
deriving DecidableEq, Repr

/-- The snapshot a claim hands to its worker. -/
def ClaimNextTaskResult.snapshot? : ClaimNextTaskResult → Option Snapshot
  | .claimed task => some task.toSnapshot
  | .compensationRequired recovery | .compensationLocked recovery => some recovery
  | _ => none

/-- What one drive of a plan answers. -/
inductive ExecuteOutcome
  | taskSucceeded | compensationRetryScheduled | compensationLocked | retryScheduled
  | replanRequested | alreadyRunning | noTask | terminal
deriving DecidableEq, Repr

end DocFlow
