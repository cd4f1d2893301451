import DocFlow.Aggregation.AggregatePlan
import DocFlow.Context.Selection
import DocFlow.Planning.RunPlanning

/-!
# Sending a message

`SendConversationMessageUseCase`: the answer to a clarification, or a routed turn, a planner run and
the reply to its result.  `dispatch` is the last part, a fall-through over the status that
the planner run has read.

What the router answers and what the planner does are arguments, as they are in
`Context.persistContextSelection` and `Planning.runExistingPlan`.
-/

namespace DocFlow.Conversation

open Planning

inductive ContextSelectionMode
  | noContext | singleContext | multiContext
deriving DecidableEq, Repr

def deriveContextSelectionMode (relevantChainIds : List ChainId) : ContextSelectionMode :=
  match relevantChainIds.length with
  | 0 => .noContext
  | 1 => .singleContext
  | _ => .multiContext

structure ContextSelectionMetadata where
  selectionMode : ContextSelectionMode
  relevantChainIds : List ChainId
  reasonSummary : String
deriving DecidableEq, Repr

inductive ReplyStatus
  | processing | unsupported | needsClarification | retryPending | completed | failed
deriving DecidableEq, Repr

structure SendConversationMessageResult where
  conversationId : ConversationId
  turnId : TurnId
  planId : Option PlanId
  status : ReplyStatus
  assistantMessage : Option String
  taskIds : List TaskId
  contextSelection : Option ContextSelectionMetadata
deriving DecidableEq, Repr

/-- The fields of `ContextSelectionResult` that are read. -/
structure ContextSelectionResult where
  conversationId : ConversationId
  turnId : TurnId
  relevantChainIds : List ChainId
  reasonSummary : String
deriving DecidableEq, Repr

def ContextSelectionResult.metadata (selection : ContextSelectionResult) :
    ContextSelectionMetadata where
  selectionMode := deriveContextSelectionMode selection.relevantChainIds
  relevantChainIds := selection.relevantChainIds
  reasonSummary := selection.reasonSummary

/-! ## The reply -/

/-- A reply on the plan of a planner run. -/
def reply (selection : ContextSelectionResult) (planning : RunPlanningResult) (status : ReplyStatus)
    (assistantMessage : Option String) (taskIds : List TaskId) : SendConversationMessageResult where
  conversationId := selection.conversationId
  turnId := selection.turnId
  planId := some planning.planId
  status := status
  assistantMessage := assistantMessage
  taskIds := taskIds
  contextSelection := some selection.metadata

/-- `planning.failure_reason or ...`: an empty reason counts as none. -/
def unsupportedMessage (failureReason : Option String) : String :=
  match failureReason with
  | none => "当前业务暂不支持该请求。"
  | some reason => if reason = "" then "当前业务暂不支持该请求。" else reason

/-- What the turn of an unsupported plan is completed with. -/
def unsupportedCommand (message : String) (attribution : Context.TurnAttribution) :
    Context.CompleteTurnCommand where
  assistantContent := some message
  assistantCompact := some message
  taskIds := []
  taskResultSummary := some message
  attribution := attribution
  chainUpdates := []

/-- The turn of an unsupported plan is completed before the reply. -/
def replyUnsupported (drawnChainId : ChainId) (now : Time) (selection : ContextSelectionResult)
    (planning : RunPlanningResult) (db : Db) : Except Failure (SendConversationMessageResult × Db) := do
  let attribution ← Aggregation.buildReadSetFallbackAttribution selection.relevantChainIds none
  let message := unsupportedMessage planning.failureReason
  let (_, db) ← Context.completeTurn drawnChainId now selection.turnId
    (unsupportedCommand message attribution) db
  return (reply selection planning .unsupported (some message) [], db)

/-- The reply to the result of a planner run. -/
def dispatch (drawnChainId : ChainId) (now : Time) (selection : ContextSelectionResult)
    (planning : RunPlanningResult) (db : Db) : Except Failure (SendConversationMessageResult × Db) :=
  match planning.status with
  | .ready => .ok (reply selection planning .processing none planning.taskIds, db)
  | .unsupported => replyUnsupported drawnChainId now selection planning db
  | .needsClarification =>
    match planning.clarificationQuestion with
    | none | some "" => .error (.runtimeError "Clarification Agent 未生成问题")
    | some question => .ok (reply selection planning .needsClarification (some question) [], db)
  | .retryPending => .ok (reply selection planning .retryPending none [], db)
  | _ => .ok (reply selection planning .failed planning.failureReason [], db)

/-! ## The call -/

structure SendConversationMessageCommand where
  conversationId : ConversationId
  message : String
  sourceTurnId : Option TurnId
deriving DecidableEq, Repr

/-- What the router decides, or how it fails. -/
inductive Routing
  | decided (relevantChainIds : List ChainId) (reasonSummary : String)
  | failed (failure : Failure)

/-- What a call draws and reads on the way. -/
structure SendDraws where
  newTurnId : TurnId
  newPlanId : PlanId
  newWorkflowId : WorkflowId
  newEventId : EventId
  retry : RetryDraw
  drawnChainId : ChainId
  now : Time
deriving DecidableEq, Repr

/-- `ContextService.send_message`.  A turn whose routing fails is marked. -/
def selectContext (newTurnId : TurnId) (conversationId : ConversationId) (routing : Routing)
    (db : Db) : Except Failure ContextSelectionResult × Db :=
  match Context.createTurn newTurnId conversationId db with
  | .error failure => (.error failure, db)
  | .ok db =>
    match routing with
    | .failed failure => (.error failure, Context.markTurnFailed newTurnId db)
    | .decided relevantChainIds reasonSummary =>
      match Context.persistContextSelection newTurnId conversationId relevantChainIds db with
      | .error failure => (.error failure, Context.markTurnFailed newTurnId db)
      | .ok db => (.ok ⟨conversationId, newTurnId, relevantChainIds, reasonSummary⟩, db)

/-- The reply to the result of a planner run.  The database is the one that is left when the call
raises. -/
def finish (draws : SendDraws) (selection : ContextSelectionResult) :
    Except Failure RunPlanningResult × Db → Except Failure SendConversationMessageResult × Db
  | (.error failure, db) => (.error failure, db)
  | (.ok planning, db) =>
    match dispatch draws.drawnChainId draws.now selection planning db with
    | .error failure => (.error failure, db)
    | .ok (result, db) => (.ok result, db)

/-- The reply to the answer of a clarification names the plan that has asked. -/
def replyAnswered (draws : SendDraws) (conversationId : ConversationId) (sourceTurnId : TurnId)
    (message : String) (db : Db) : Except Failure SendConversationMessageResult × Db :=
  match answerClarification draws.newEventId draws.now conversationId sourceTurnId message db with
  | .error failure => (.error failure, db)
  | .ok answered =>
    (.ok {
      conversationId := conversationId
      turnId := sourceTurnId
      planId := (db.getClarificationBySourceTurnId sourceTurnId).map
        ClarificationRequest.sourcePlanId
      status := .retryPending
      assistantMessage := none
      taskIds := []
      contextSelection := none }, answered)

/-- `execute`, when nobody else is at work. -/
def execute (draws : SendDraws) (command : SendConversationMessageCommand) (routing : Routing)
    (run : PlannerRun) (db : Db) : Except Failure SendConversationMessageResult × Db :=
  match command.sourceTurnId with
  | some sourceTurnId => replyAnswered draws command.conversationId sourceTurnId command.message db
  | none =>
    match selectContext draws.newTurnId command.conversationId routing db with
    | (.error failure, db) => (.error failure, db)
    | (.ok selection, db) =>
      finish draws selection (Planning.execute draws.newPlanId draws.newWorkflowId draws.retry
        ⟨selection.conversationId, selection.turnId, 1, none, none⟩ run db)

end DocFlow.Conversation
