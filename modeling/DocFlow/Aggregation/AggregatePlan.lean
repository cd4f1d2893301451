import DocFlow.Context.CompleteTurn

/-!
# Aggregating a completed plan

`AggregatePlanUseCase.execute` and the part of `RuntimeEventDispatcher.handle` around it: the
snapshot of the plan, the command that completes its turn, and the transactions that resolve
a clarification and record the event.

`str` renders the output of a task the way Python prints a `dict`; it only goes into texts.
-/

namespace DocFlow.Aggregation

open Context

/-- `_AggregationSnapshot`. -/
structure AggregationSnapshot where
  turnId : TurnId
  taskIds : List TaskId
  relevantChainIds : List ChainId
  summaries : List String
  resourceRefs : List String
deriving DecidableEq, Repr

/-- `order_by(started_at)`. -/
def listExecutionsByPlanId (db : Db) (planId : PlanId) : List TaskExecution :=
  (db.taskExecutions.rows.filter fun e => e.planId = planId).insertionSort
    (fun a b => a.startedAt ≤ b.startedAt)

/-- `latest_by_task.values()`: the last execution of each task, in the order of the tasks' first. -/
def latestByTask (executions : List TaskExecution) : List TaskExecution :=
  (PyString.fromKeys (executions.map TaskExecution.taskId)).filterMap fun taskId =>
    executions.reverse.find? fun e => e.taskId = taskId

def planNotCompleted : Failure := .valueError "Plan 尚未完成，不能聚合"

/-- `_load_snapshot`. -/
def loadSnapshot (str : Option OutputJson → String) (planId : PlanId) (db : Db) :
    Except Failure AggregationSnapshot := do
  let plan ← orRaise (db.plans.get? planId) planNotCompleted
  ensure (plan.status = .completed) planNotCompleted
  let tasks := db.listByPlanId planId
  ensure (tasks ≠ [] ∧ ∀ task ∈ tasks, task.status = .succeeded)
    (.valueError "Plan Task 尚未全部成功")
  let executions := (listExecutionsByPlanId db planId).filter fun e => e.status = .succeeded
  let latest := latestByTask executions
  ensure ((∀ e ∈ latest, e.taskId ∈ tasks.map Task.taskId) ∧
      ∀ task ∈ tasks, task.taskId ∈ latest.map TaskExecution.taskId)
    (.valueError "Task 成功执行记录不完整")
  let selection ← orRaise (db.context.selections.get? plan.turnId)
    (.valueError "Turn 缺少 Context Selection 记录")
  return {
    turnId := plan.turnId
    taskIds := tasks.map Task.taskId
    relevantChainIds := selection.relevantChainIds
    summaries := tasks.map fun task => task.capabilityCode.value ++ ": " ++ str task.outputJson
    resourceRefs := PyString.fromKeys (latest.flatMap TaskExecution.resourceRefsJson) }

/-- `_resource`. -/
def resource (resourceRef : String) : Except Failure ContextResourceInput :=
  let (resourceType, separator, resourceId) := PyString.partition resourceRef ':'
  if separator = none ∨ resourceType = "" ∨ resourceId = "" then
    .error (.valueError ("非法资源引用: " ++ resourceRef))
  else
    .ok ⟨resourceType, resourceId, some "task_output", some "Task Runtime 产生的资源"⟩

def resources : List String → Except Failure (List ContextResourceInput)
  | [] => .ok []
  | resourceRef :: resourceRefs => do
    let input ← resource resourceRef
    let inputs ← resources resourceRefs
    return input :: inputs

/-- `build_read_set_fallback_attribution`. -/
def buildReadSetFallbackAttribution (relevantChainIds : List ChainId)
    (newChainId : Option ChainId) : Except Failure TurnAttribution :=
  let existingChainIds := PyString.fromKeys relevantChainIds
  if existingChainIds ≠ [] then do
    ensure (newChainId = none)
      (.valueError "Existing attribution cannot preallocate a new chain")
    return ⟨existingChainIds, false, none⟩
  else
    .ok ⟨[], true, newChainId⟩

/-- The chains the command carries an update for. -/
def attributedChainIds (attribution : TurnAttribution) : List ChainId :=
  attribution.existingChainIds ++
    if attribution.createNewChain = true then attribution.newChainId.toList else []

/-- The command that `execute` completes the turn with. -/
def completionCommand (newChainId : ChainId) (snapshot : AggregationSnapshot) :
    Except Failure CompleteTurnCommand := do
  let summary := String.intercalate "；" snapshot.summaries
  let assistantContent :=
    "已完成 " ++ toString snapshot.taskIds.length ++ " 项任务。" ++ summary
  let resources ← resources snapshot.resourceRefs
  let newChainId := if snapshot.relevantChainIds ≠ [] then none else some newChainId
  let attribution ← buildReadSetFallbackAttribution snapshot.relevantChainIds newChainId
  return {
    assistantContent := some assistantContent
    assistantCompact := some assistantContent
    taskIds := snapshot.taskIds
    taskResultSummary := some summary
    attribution := attribution
    chainUpdates := (attributedChainIds attribution).map fun chainId =>
      ⟨chainId, snapshot.taskIds, resources, []⟩ }

/-- The turn is completed with the command of the snapshot. -/
def completeFromSnapshot (newChainId drawnChainId : ChainId) (now : Time)
    (snapshot : AggregationSnapshot) (db : Db) :
    Except Failure (CompleteTurnTransactionResult × Db) := do
  let command ← completionCommand newChainId snapshot
  completeTurn drawnChainId now snapshot.turnId command db

/-- The row of a request whose answer has led to a completed plan. -/
def resolveRequest (now : Time) (request : ClarificationRequest) : ClarificationRequest :=
  { request with status := .resolved, resolvedAt := some now }

/-- `_resolve_clarification`: the request of the parent plan is resolved. -/
def resolveClarification (now : Time) (planId : PlanId) (db : Db) : Db :=
  match (db.plans.get? planId).bind Plan.parentPlanId with
  | none => db
  | some parentPlanId =>
    match db.getClarificationByPlanId parentPlanId with
    | none => db
    | some request =>
      if request.status = .answered then db.saveClarification (resolveRequest now request) else db

/-- Only requests are written. -/
theorem resolveClarification_eq (now : Time) (planId : PlanId) (db : Db) :
    ∃ requests, resolveClarification now planId db = db.setClarifications requests := by
  unfold resolveClarification
  split
  · exact ⟨db.clarifications, rfl⟩
  · split
    · exact ⟨db.clarifications, rfl⟩
    · split
      · exact ⟨_, rfl⟩
      · exact ⟨db.clarifications, rfl⟩

/-- `RuntimeEventDispatcher.CONSUMER_NAME`. -/
def dispatcherConsumerName : String := "runtime.dispatcher"

/-- `_record_processed`. -/
def recordProcessed (eventId : EventId) (db : Db) : Except Failure Db :=
  if db.inboxExists dispatcherConsumerName eventId then .ok db
  else db.addInbox dispatcherConsumerName eventId

end DocFlow.Aggregation
