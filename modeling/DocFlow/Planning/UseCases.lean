import DocFlow.Database

/-!
# Planning transactions

`CreatePlanUseCase`, the three `Create…TaskUseCase`s and `FinalizePlanUseCase`, with
the validation of the dependency graph that publication rests on.

`depth` is the memoised depth-first search of `_validate_dag`.  Its recursion is
bounded by `fuel`; `visiting` grows by one reference at every level, so the
number of references plus one is enough.
-/

namespace DocFlow.Planning

def maxTasksPerPlan : Nat := 10
def maxPlanDagDepth : Nat := 3

def planNotFound : Failure := .applicationError 404 "Plan 不存在" "plan_not_found"
def turnNotFound : Failure := .applicationError 404 "Conversation Turn 不存在" "turn_not_found"

def PlanStatus.value : PlanStatus → String
  | .planning => "planning"
  | .ready => "ready"
  | .running => "running"
  | .completed => "completed"
  | .unsupported => "unsupported"
  | .needsClarification => "needs_clarification"
  | .retryPending => "retry_pending"
  | .replanPending => "replan_pending"
  | .failed => "failed"
  | .cancelled => "cancelled"
  | .superseded => "superseded"

def requirePlanning (plan : Plan) : Except Failure Unit :=
  ensure (plan.status = .planning)
    (.applicationError 409 ("Plan 当前状态不允许继续规划: " ++ PlanStatus.value plan.status)
      "plan_state_conflict")

def requireTurnOwnership (plan : Plan) (turnId : TurnId) : Except Failure Unit :=
  ensure (plan.turnId = turnId)
    (.applicationError 409 "Plan 与 Conversation Turn 归属不一致" "plan_turn_conflict")

/-! ## Creating plans and tasks -/

structure CreatePlanInput where
  turnId : TurnId
  revision : Nat
  workflowId : Option WorkflowId
  parentPlanId : Option PlanId
deriving DecidableEq, Repr

/-- `CreatePlanUseCase.execute`.  `newPlanId` and `newWorkflowId` are the identifiers
it draws. -/
def createPlan (newPlanId : PlanId) (newWorkflowId : WorkflowId) (command : CreatePlanInput)
    (db : Db) : Except Failure Db := do
  let _ ← orRaise (db.conversationTurns.get? command.turnId) turnNotFound
  let existing := match command.workflowId with
    | some workflowId => db.getByWorkflowAndRevision workflowId command.revision
    | none => db.getByTurnAndRevision command.turnId command.revision
  ensure (existing = none)
    (.applicationError 409 "该 Turn 的 Plan revision 已存在" "plan_revision_conflict")
  db.createPlan (Db.draftPlan newPlanId (command.workflowId.getD newWorkflowId) command.turnId
    command.parentPlanId command.revision)

structure CreateDocumentTaskInput where
  planId : PlanId
  turnId : TurnId
  documentId : DocumentId
  sequence : Nat
  taskRef : TaskRef
  dependsOnTaskRefs : List TaskRef
deriving DecidableEq, Repr

def sequenceConflict : Failure :=
  .applicationError 409 "同一 Plan 的 Task sequence 不得重复" "plan_task_sequence_conflict"

/-- An integrity error of the insert is reported as a sequence conflict. -/
def asSequenceConflict {α : Type} : Except Failure α → Except Failure α
  | .error .integrityError => .error sequenceConflict
  | x => x

theorem asSequenceConflict_eq_ok {α : Type} {x : Except Failure α} {a : α} :
    asSequenceConflict x = .ok a ↔ x = .ok a := by
  unfold asSequenceConflict
  split <;> simp

/-- `_CreateDocumentTaskUseCase._execute`. -/
def createDocumentTask (capabilityCode : PlanningCapabilityCode) (newTaskId : TaskId)
    (command : CreateDocumentTaskInput) (db : Db) : Except Failure Db := do
  let plan ← orRaise (db.plans.get? command.planId) planNotFound
  requirePlanning plan
  requireTurnOwnership plan command.turnId
  let draftTasks := db.listByPlanIdAndStatus plan.planId .draft
  ensure (draftTasks.length < maxTasksPerPlan)
    (.applicationError 409 "Plan 的 draft Task 数量不能超过 10" "plan_task_limit_exceeded")
  ensure (∀ task ∈ draftTasks, task.sequence ≠ command.sequence) sequenceConflict
  ensure (∀ task ∈ draftTasks, task.taskRef ≠ command.taskRef)
    (.applicationError 409 "同一 Plan 的 task_ref 不得重复" "plan_task_ref_conflict")
  let dependencyRefs := command.dependsOnTaskRefs.eraseDups
  ensure (command.taskRef ∉ dependencyRefs)
    (.applicationError 409 "Task 不能依赖自身 task_ref" "plan_task_dependency_invalid")
  asSequenceConflict <| db.createTask
    { taskId := newTaskId
      planId := plan.planId
      turnId := plan.turnId
      taskRef := command.taskRef
      capabilityCode := capabilityCode
      inputJson := { documentId := command.documentId, dependsOnTaskRefs := some dependencyRefs }
      sequence := command.sequence
      status := .draft
      attemptCount := 0
      maxAttempts := 3
      outputJson := none
      lastErrorCode := none
      lastErrorMessage := none
      startedAt := none
      completedAt := none }

def createProcessDocumentTask := createDocumentTask .processDocument
def createBuildChunksTask := createDocumentTask .buildDocumentChunks
def createIndexVectorsTask := createDocumentTask .indexDocumentVectors

/-! ## The dependency graph -/

/-- `graph`: the references of each task to the tasks it waits for. -/
abbrev Graph := List (TaskRef × List TaskRef)

/-- `depths`: the depths found so far. -/
abbrev Depths := List (TaskRef × Nat)

/-- The checks on one task's references, and its entry in `graph`. -/
def checkReferences (refs : List TaskRef) (task : Task) :
    Except Failure (TaskRef × List TaskRef) := do
  let dependencies := task.inputJson.dependsOnTaskRefs.getD []
  ensure dependencies.Nodup
    (.applicationError 409 "Task 依赖引用不得重复" "plan_task_dependency_invalid")
  let missing := dependencies.filter (· ∉ refs)
  ensure (missing = [])
    (.applicationError 409
      ("Task 依赖引用不存在: " ++ String.intercalate ", " (missing.insertionSort (· ≤ ·)))
      "plan_task_dependency_missing")
  ensure (task.taskRef ∉ dependencies)
    (.applicationError 409 "Task 不能依赖自身" "plan_task_dependency_invalid")
  return (task.taskRef, dependencies)

def buildGraph (refs : List TaskRef) : List Task → Except Failure Graph
  | [] => .ok []
  | task :: tasks => do
    let entry ← checkReferences refs task
    let graph ← buildGraph refs tasks
    return entry :: graph

/-- `max((depth(ref) for ref in refs), default=0)`, with `depths` threaded through. -/
def maxDepth (depth : TaskRef → Depths → Except Failure (Nat × Depths)) :
    List TaskRef → Depths → Except Failure (Nat × Depths)
  | [], depths => .ok (0, depths)
  | ref :: refs, depths => do
    let (d, depths) ← depth ref depths
    let (m, depths) ← maxDepth depth refs depths
    return (max d m, depths)

def depth (graph : Graph) :
    Nat → List TaskRef → TaskRef → Depths → Except Failure (Nat × Depths)
  | 0, _, _, _ => .error (.runtimeError "maximum recursion depth exceeded")
  | fuel + 1, visiting, taskRef, depths =>
    match depths.lookup taskRef with
    | some d => .ok (d, depths)
    | none =>
      if taskRef ∈ visiting then
        .error (.applicationError 409 "Task DAG 不能包含循环依赖" "plan_task_dependency_cycle")
      else do
        let (m, depths) ←
          maxDepth (depth graph fuel (taskRef :: visiting)) ((graph.lookup taskRef).getD []) depths
        return (1 + m, (taskRef, 1 + m) :: depths)

/-- `by_ref[ref].task_id`. -/
def idOfRef (tasks : List Task) (ref : TaskRef) : Option TaskId :=
  (tasks.find? fun t => t.taskRef = ref).map Task.taskId

/-- The pairs `_validate_dag` answers with. -/
def dependencyPairs (tasks : List Task) (graph : Graph) : List (TaskId × TaskId) :=
  graph.flatMap fun entry => entry.2.filterMap fun dependencyRef => do
    let taskId ← idOfRef tasks entry.1
    let dependsOnTaskId ← idOfRef tasks dependencyRef
    return (taskId, dependsOnTaskId)

/-- `FinalizePlanUseCase._validate_dag`. -/
def validateDag (tasks : List Task) : Except Failure (List (TaskId × TaskId)) := do
  let refs := tasks.map Task.taskRef
  ensure refs.Nodup (.applicationError 409 "Task task_ref 必须唯一" "plan_task_ref_conflict")
  let graph ← buildGraph refs tasks
  let (deepest, _) ← maxDepth (depth graph (graph.length + 1) []) (graph.map Prod.fst) []
  ensure (deepest ≤ maxPlanDagDepth)
    (.applicationError 409 "Plan DAG 深度不能超过 3" "plan_task_dependency_depth_exceeded")
  return dependencyPairs tasks graph

/-! ## Publication -/

structure FinalizePlanInput where
  planId : PlanId
  turnId : TurnId
deriving DecidableEq, Repr

/-- The rows `FinalizePlanUseCase` adds to `task_dependencies`. -/
def dependencyRows (planId : PlanId) (newDependencyId : Nat → DependencyId)
    (pairs : List (TaskId × TaskId)) : List TaskDependency :=
  pairs.zipIdx.map fun (pair, i) =>
    { dependencyId := newDependencyId i, planId := planId, taskId := pair.1,
      dependsOnTaskId := pair.2 }

/-- A draft becomes pending and loses its temporary dependency key. -/
def publishTask (taskIds : List TaskId) (task : Task) : Task :=
  if task.taskId ∈ taskIds then
    { task with status := .pending, inputJson := { task.inputJson with dependsOnTaskRefs := none } }
  else task

@[simp] theorem publishTask_taskId (taskIds : List TaskId) (task : Task) :
    (publishTask taskIds task).taskId = task.taskId := by
  unfold publishTask; split <;> rfl

theorem publishTask_planId (taskIds : List TaskId) (task : Task) :
    (publishTask taskIds task).planId = task.planId := by
  unfold publishTask; split <;> rfl

theorem publishTask_sequence (taskIds : List TaskId) (task : Task) :
    (publishTask taskIds task).sequence = task.sequence := by
  unfold publishTask; split <;> rfl

def publishPlan (plan : Plan) : Plan :=
  { plan with status := .ready, failureCode := none, failureReason := none }

/-- The wake-up that publication appends. -/
def firstWakeup (newEventId : EventId) (now : Time) (plan : Plan) : OutboxEvent where
  eventId := newEventId
  eventType := .planWakeup
  aggregateId := plan.planId
  payload := .plan plan.workflowId plan.planId
  status := .pending
  attempts := 0
  availableAt := now
  publishedAt := none

/-- `FinalizePlanUseCase.execute`. -/
def finalizePlan (newDependencyId : Nat → DependencyId) (newEventId : EventId) (now : Time)
    (command : FinalizePlanInput) (db : Db) : Except Failure Db := do
  let plan ← orRaise (db.plans.get? command.planId) planNotFound
  requirePlanning plan
  requireTurnOwnership plan command.turnId
  let tasks := db.listByPlanIdAndStatus plan.planId .draft
  ensure (tasks ≠ [])
    (.applicationError 409 "Plan 至少需要一个 draft Task 才能发布" "plan_task_count_invalid")
  ensure (tasks.length ≤ maxTasksPerPlan)
    (.applicationError 409 "Plan 的 Task 数量不能超过 10" "plan_task_limit_exceeded")
  ensure (tasks.map Task.sequence = List.range' 1 tasks.length)
    (.applicationError 409 "Task sequence 必须唯一且从 1 开始连续" "plan_task_sequence_invalid")
  let dependencyPairs ← validateDag tasks
  let turn ← orRaise (db.conversationTurns.get? plan.turnId) turnNotFound
  ensure (turn.status = .contextReady ∨ turn.status = .processing)
    (.applicationError 409 "Conversation Turn 当前状态不允许发布 Plan" "turn_state_conflict")
  let taskIds := tasks.map Task.taskId
  let db ← db.addDependencies (dependencyRows plan.planId newDependencyId dependencyPairs)
  let db := (db.setTasks (db.tasks.mapRows (publishTask taskIds) (publishTask_taskId taskIds)))
    |>.savePlan (publishPlan plan)
    |>.saveTurn { turn with taskIds := taskIds, status := .processing }
  db.addOutbox (firstWakeup newEventId now plan)

end DocFlow.Planning
