import DocFlow.Context.Domain
import DocFlow.Planning.Marks

/-!
# A planner run

`RunPlanningUseCase`: the checks before a run, the run itself, and `_finish_from_database`, which
reads what the run has made of the plan and marks it for a retry when that is nothing.

The planner is a graph of language models.  Here it is any list of tool calls followed
by any ending (`PlannerRun`); a call that is rejected leaves the database as it was.
-/

namespace DocFlow.Planning

structure RunPlanningInput where
  conversationId : ConversationId
  turnId : TurnId
  revision : Nat
  workflowId : Option WorkflowId
  parentPlanId : Option PlanId
deriving DecidableEq, Repr

structure RunPlanningResult where
  planId : PlanId
  turnId : TurnId
  status : PlanStatus
  taskIds : List TaskId
  failureReason : Option String
  clarificationQuestion : Option String
deriving DecidableEq, Repr

/-! ## Before the run -/

def contextSelectionConflict (message : String) : Failure :=
  .applicationError 409 message "context_selection_conflict"

/-- The chains of a selection, in its order. -/
def plannableChains (conversationId : ConversationId) (t : ContextTables) :
    List ChainId → Except Failure (List ContextChain)
  | [] => .ok []
  | chainId :: chainIds => do
    let chain ← orRaise (t.chains.get? chainId)
      (.applicationError 409 ("Context Selection Chain 不存在: " ++ toString chainId)
        "context_selection_chain_missing")
    ensure (chain.conversationId = conversationId)
      (contextSelectionConflict ("Context Selection Chain 会话归属不一致: " ++ toString chainId))
    let chains ← plannableChains conversationId t chainIds
    return chain :: chains

/-- `_load_plannable_snapshot`: the chains the planner reads. -/
def loadPlannableSnapshot (command : RunPlanningInput) (allowedStatuses : List ContextTurnStatus)
    (db : Db) : Except Failure (List ContextChain) := do
  let turn ← orRaise (db.conversationTurns.get? command.turnId) turnNotFound
  ensure (turn.conversationId = command.conversationId)
    (.applicationError 409 "Conversation Turn 会话归属不一致" "turn_conversation_conflict")
  ensure (turn.status ∈ allowedStatuses)
    (turnStateConflict "Conversation Turn 尚未完成 Context Selection")
  let selection ← orRaise (db.context.selections.get? command.turnId)
    (.applicationError 409 "Conversation Turn 缺少 Context Selection" "context_selection_missing")
  ensure (selection.conversationId = command.conversationId)
    (contextSelectionConflict "Context Selection 会话归属不一致")
  plannableChains command.conversationId db.context selection.relevantChainIds

/-- `_validate_existing_plan`. -/
def validateExistingPlan (command : RunPlanningInput) (planId : PlanId) (db : Db) :
    Except Failure Unit := do
  let plan ← orRaise (db.plans.get? planId) planNotFound
  ensure (plan.turnId = command.turnId ∧ plan.revision = command.revision ∧
      plan.status = .planning)
    (.applicationError 409 "Plan revision 当前不可运行" "plan_state_conflict")

/-! ## The tools -/

/-- The fields of `AgentToolContext` that the planning tools are called with. -/
structure AgentToolContext where
  planId : PlanId
  turnId : TurnId
  conversationId : ConversationId
deriving DecidableEq, Repr

inductive ToolCall
  | createTask (code : PlanningCapabilityCode) (newTaskId : TaskId) (documentId : DocumentId)
      (sequence : Nat) (taskRef : TaskRef) (dependsOnTaskRefs : List TaskRef)
  | finalizePlan (newDependencyId : Nat → DependencyId) (newEventId : EventId) (now : Time)
  | markPlanUnsupported (reason : BoundedText)
  | markPlanNeedsClarification (newClarificationId : ClarificationId) (kind : ClarificationKind)
      (reason : BoundedText) (requiredInformation knownResourceRefs : List String)

def ToolCall.execute (context : AgentToolContext) (db : Db) : ToolCall → Except Failure Db
  | createTask code newTaskId documentId sequence taskRef dependsOnTaskRefs =>
    createDocumentTask code newTaskId
      ⟨context.planId, context.turnId, documentId, sequence, taskRef, dependsOnTaskRefs⟩ db
  | finalizePlan newDependencyId newEventId now =>
    Planning.finalizePlan newDependencyId newEventId now ⟨context.planId, context.turnId⟩ db
  | markPlanUnsupported reason => Planning.markPlanUnsupported context.planId reason db
  | markPlanNeedsClarification newClarificationId kind reason requiredInformation
      knownResourceRefs =>
    Planning.markPlanNeedsClarification newClarificationId
      ⟨context.planId, context.conversationId, kind, reason, requiredInformation,
        knownResourceRefs⟩ db

/-- The database after a call that may be rejected. -/
def ToolCall.attempt (context : AgentToolContext) (db : Db) (call : ToolCall) : Db :=
  match call.execute context db with
  | .ok db => db
  | .error _ => db

def runTools (context : AgentToolContext) : List ToolCall → Db → Db
  | [], db => db
  | call :: calls, db => runTools context calls (call.attempt context db)

def ToolCall.isClarification : ToolCall → Bool
  | markPlanNeedsClarification .. => true
  | _ => false

/-- Whether a call that asks for a clarification has been accepted. -/
def clarificationAccepted (context : AgentToolContext) : List ToolCall → Db → Bool
  | [], _ => false
  | call :: calls, db => (call.isClarification && (call.execute context db).isOk) ||
    clarificationAccepted context calls (call.attempt context db)

/-! ## The run -/

/-- How the runner ends: with the question of its final output, with
`PlanningRetryRequested`, or with another exception. -/
inductive RunnerEnd
  | returned (question : Option BoundedText)
  | retryRequested (reason : BoundedText)
  | raised
deriving DecidableEq, Repr

structure PlannerRun where
  calls : List ToolCall
  ending : RunnerEnd

/-- `_read_result`. -/
def readResult (planId : PlanId) (turnId : TurnId) (db : Db) : Except Failure RunPlanningResult := do
  let plan ← orRaise (db.plans.get? planId) planNotFound
  requireTurnOwnership plan turnId
  let turn ← orRaise (db.conversationTurns.get? turnId) turnNotFound
  let pendingTaskIds :=
    ((db.listByPlanId planId).filter fun task => task.status = .pending).map Task.taskId
  ensure (plan.status = .ready → turn.taskIds = pendingTaskIds)
    (.applicationError 500 "Plan、Task 与 Turn 的发布状态不一致" "planning_state_inconsistent")
  return {
    planId := plan.planId
    turnId := plan.turnId
    status := plan.status
    taskIds := if plan.status = .ready then pendingTaskIds else []
    failureReason := plan.failureReason
    clarificationQuestion :=
      (db.getClarificationByPlanId planId).bind ClarificationRequest.question }

/-- The run has left the plan as it was, or without a question. -/
def RunPlanningResult.needsRetry (result : RunPlanningResult) : Bool :=
  result.status = .planning ∨
    (result.status = .needsClarification ∧ result.clarificationQuestion = none)

/-- What a retry draws and reads. -/
structure RetryDraw where
  newEventId : EventId
  resolvedAt : Time
  availableAt : Time
deriving DecidableEq, Repr

/-- `_finish_from_database`.  The database is the one that is left when it raises. -/
def finishFromDatabase (draw : RetryDraw) (planId : PlanId) (turnId : TurnId)
    (retryReason : BoundedText) (db : Db) : Except Failure RunPlanningResult × Db :=
  match readResult planId turnId db with
  | .error failure => (.error failure, db)
  | .ok result =>
    if result.needsRetry then
      match markPlanRetryPending draw.newEventId draw.resolvedAt draw.availableAt planId
        retryReason db with
      | .error failure => (.error failure, db)
      | .ok db => (readResult planId turnId db, db)
    else (.ok result, db)

def systemExceptionReason : BoundedText := ⟨"Planner Runner 或 Tool 执行发生系统异常", by decide⟩

def notCalledReason : BoundedText :=
  ⟨"Planner 未调用 finalize_plan 或 mark_plan_unsupported", by decide⟩

/-- A question that is not blank is written into the request. -/
def writeQuestion (planId : PlanId) (question : Option BoundedText) (db : Db) : Except Failure Db :=
  match question with
  | none => .ok db
  | some question =>
    if PyString.isBlank question.text then .ok db else setClarificationQuestion planId question db

/-- `_run_existing_plan`. -/
def runExistingPlan (draw : RetryDraw) (context : AgentToolContext) (run : PlannerRun) (db : Db) :
    Except Failure RunPlanningResult × Db :=
  let db := runTools context run.calls db
  match run.ending with
  | .retryRequested reason => finishFromDatabase draw context.planId context.turnId reason db
  | .raised => finishFromDatabase draw context.planId context.turnId systemExceptionReason db
  | .returned question =>
    match writeQuestion context.planId question db with
    | .error failure => (.error failure, db)
    | .ok db => finishFromDatabase draw context.planId context.turnId notCalledReason db

/-- `execute`: a first revision is created and run. -/
def execute (newPlanId : PlanId) (newWorkflowId : WorkflowId) (draw : RetryDraw)
    (command : RunPlanningInput) (run : PlannerRun) (db : Db) :
    Except Failure RunPlanningResult × Db :=
  match loadPlannableSnapshot command [.contextReady] db with
  | .error failure => (.error failure, db)
  | .ok _ =>
    match createPlan newPlanId newWorkflowId
      ⟨command.turnId, command.revision, command.workflowId, command.parentPlanId⟩ db with
    | .error failure => (.error failure, db)
    | .ok db =>
      runExistingPlan draw ⟨newPlanId, command.turnId, command.conversationId⟩ run db

/-- `execute_existing`: a revision that exists is run. -/
def executeExisting (draw : RetryDraw) (command : RunPlanningInput) (planId : PlanId)
    (run : PlannerRun) (db : Db) : Except Failure RunPlanningResult × Db :=
  match loadPlannableSnapshot command [.contextReady, .processing, .completed] db with
  | .error failure => (.error failure, db)
  | .ok _ =>
    match validateExistingPlan command planId db with
    | .error failure => (.error failure, db)
    | .ok _ => runExistingPlan draw ⟨planId, command.turnId, command.conversationId⟩ run db

/-! ## What they answer -/

section Read

variable {db : Db} {planId : PlanId} {turnId : TurnId}

theorem readResult_eq_ok {result : RunPlanningResult} :
    readResult planId turnId db = .ok result ↔
      ∃ plan turn, db.plans.get? planId = some plan ∧ plan.turnId = turnId ∧
        db.conversationTurns.get? turnId = some turn ∧
        (plan.status = .ready → turn.taskIds =
          ((db.listByPlanId planId).filter fun task => task.status = .pending).map Task.taskId) ∧
        result =
          { planId := plan.planId
            turnId := plan.turnId
            status := plan.status
            taskIds := if plan.status = .ready then ((db.listByPlanId planId).filter fun task =>
              task.status = .pending).map Task.taskId else []
            failureReason := plan.failureReason
            clarificationQuestion :=
              (db.getClarificationByPlanId planId).bind ClarificationRequest.question } := by
  simp only [readResult, requireTurnOwnership, bind_eq_ok, orRaise_eq_ok, ensure_eq_ok, pure_eq_ok]
  constructor
  · rintro ⟨plan, hplan, _, hturnId, turn, hturn, _, hready, rfl⟩
    exact ⟨plan, turn, hplan, hturnId, hturn, hready, rfl⟩
  · rintro ⟨plan, turn, hplan, hturnId, hturn, hready, rfl⟩
    exact ⟨plan, hplan, (), hturnId, turn, hturn, (), hready, rfl⟩

theorem finishFromDatabase_of_settled {draw : RetryDraw} {reason : BoundedText}
    {result : RunPlanningResult} (hread : readResult planId turnId db = .ok result)
    (hretry : result.needsRetry = false) :
    finishFromDatabase draw planId turnId reason db = (.ok result, db) := by
  simp only [finishFromDatabase, hread, hretry]
  rfl

theorem finishFromDatabase_of_retry {draw : RetryDraw} {reason : BoundedText}
    {result : RunPlanningResult} (hread : readResult planId turnId db = .ok result)
    (hretry : result.needsRetry = true) :
    finishFromDatabase draw planId turnId reason db =
      match markPlanRetryPending draw.newEventId draw.resolvedAt draw.availableAt planId reason db with
      | .error failure => (.error failure, db)
      | .ok db => (readResult planId turnId db, db) := by
  simp only [finishFromDatabase, hread, hretry, if_true]

/-- A blank reason is refused, and nothing is marked. -/
theorem markPlanRetryPending_blank (newEventId : EventId) (resolvedAt availableAt : Time)
    (planId : PlanId) (db : Db) {reason : BoundedText} (h : PyString.isBlank reason.text = true) :
    ∃ failure, markPlanRetryPending newEventId resolvedAt availableAt planId reason db =
      .error failure := by
  cases hmark : markPlanRetryPending newEventId resolvedAt availableAt planId reason db with
  | error failure => exact ⟨failure, rfl⟩
  | ok db' =>
    rw [(markPlanRetryPending_eq_ok.mp hmark).1] at h
    cases h

end Read

end DocFlow.Planning
