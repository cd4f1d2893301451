import DocFlow.Context.Domain
import DocFlow.Domain

/-!
# The database and its repositories

One `Db` holds the tables of the planner, the Task Runtime, the messaging, the clarification
and the context modules; the functions below are the repository methods the transactions call.
A transaction is a function from a `Db` to `Except Failure (α × Db)`: an error
leaves the caller with the database it had, which is the rollback of the unit of
work.

A unique constraint is checked where the row is added.  `order_by(sequence,
task_id)` is an insertion sort, so a listing has the rows of the table and
nothing else (`mem_listByPlanIdAndStatus`).
-/

namespace DocFlow

structure Db where
  conversationTurns : Table ConversationTurn.turnId
  plans : Table Plan.planId
  tasks : Table Task.taskId
  taskDependencies : Table TaskDependency.dependencyId
  taskExecutions : Table TaskExecution.executionId
  outbox : Table OutboxEvent.eventId
  inbox : Table InboxEvent.uniqueKey
  clarifications : Table ClarificationRequest.clarificationId
  context : ContextTables

namespace Db

/-! ## Writing rows -/

@[simps] def setConversationTurns (db : Db) (t : Table ConversationTurn.turnId) : Db :=
  { db with conversationTurns := t }
@[simps] def setPlans (db : Db) (t : Table Plan.planId) : Db := { db with plans := t }
@[simps] def setTasks (db : Db) (t : Table Task.taskId) : Db := { db with tasks := t }
@[simps] def setTaskDependencies (db : Db) (t : Table TaskDependency.dependencyId) : Db :=
  { db with taskDependencies := t }
@[simps] def setTaskExecutions (db : Db) (t : Table TaskExecution.executionId) : Db :=
  { db with taskExecutions := t }
@[simps] def setOutbox (db : Db) (t : Table OutboxEvent.eventId) : Db := { db with outbox := t }
@[simps] def setInbox (db : Db) (t : Table InboxEvent.uniqueKey) : Db := { db with inbox := t }
@[simps] def setClarifications (db : Db) (t : Table ClarificationRequest.clarificationId) : Db :=
  { db with clarifications := t }
@[simps] def setContext (db : Db) (t : ContextTables) : Db := { db with context := t }

/-- A dirty row is flushed under its primary key. -/
@[simps] def savePlan (db : Db) (p : Plan) : Db := { db with plans := db.plans.save p }
@[simps] def saveTask (db : Db) (t : Task) : Db := { db with tasks := db.tasks.save t }
@[simps] def saveExecution (db : Db) (e : TaskExecution) : Db :=
  { db with taskExecutions := db.taskExecutions.save e }
/-- The three rows an outcome writes. -/
@[simps] def saveRows (db : Db) (p : Plan) (t : Task) (e : TaskExecution) : Db :=
  { db with
    plans := db.plans.save p
    tasks := db.tasks.save t
    taskExecutions := db.taskExecutions.save e }
@[simps] def saveTurn (db : Db) (t : ConversationTurn) : Db :=
  { db with conversationTurns := db.conversationTurns.save t }
@[simps] def saveClarification (db : Db) (r : ClarificationRequest) : Db :=
  { db with clarifications := db.clarifications.save r }

end Db

/-- `if not p: raise f`. -/
def ensure (p : Prop) [Decidable p] (f : Failure) : Except Failure Unit :=
  if p then .ok () else .error f

@[simp] theorem ensure_eq_ok {p : Prop} [Decidable p] {f : Failure} {u : Unit} :
    ensure p f = .ok u ↔ p := by
  unfold ensure
  split <;> simp [*]

/-- `if o is None: raise f`. -/
def orRaise {α : Type} (o : Option α) (f : Failure) : Except Failure α :=
  match o with
  | some a => .ok a
  | none => .error f

@[simp] theorem orRaise_eq_ok {α : Type} {o : Option α} {f : Failure} {a : α} :
    orRaise o f = .ok a ↔ o = some a := by
  cases o <;> simp [orRaise]

/-- What a successful bind was made of. -/
theorem bind_eq_ok {α β : Type} {x : Except Failure α} {f : α → Except Failure β} {b : β} :
    (x >>= f) = .ok b ↔ ∃ a, x = .ok a ∧ f a = .ok b := by
  cases x <;> simp [bind, Except.bind]

theorem map_eq_ok {α β : Type} {x : Except Failure α} {f : α → β} {b : β} :
    (f <$> x) = .ok b ↔ ∃ a, x = .ok a ∧ f a = b := by
  cases x <;> simp [Functor.map, Except.map]

theorem pure_eq_ok {α : Type} {a b : α} : (pure a : Except Failure α) = .ok b ↔ b = a := by
  simp [pure, Except.pure, eq_comm]

/-- A bind fails in its first part or, with the result of that, in its second. -/
theorem bind_eq_error {α β : Type} {x : Except Failure α} {f : α → Except Failure β} {e : Failure} :
    (x >>= f) = .error e ↔ x = .error e ∨ ∃ a, x = .ok a ∧ f a = .error e := by
  cases x <;> simp [bind, Except.bind]

theorem ensure_eq_error {p : Prop} [Decidable p] {f e : Failure} :
    ensure p f = .error e ↔ ¬ p ∧ e = f := by
  unfold ensure
  split <;> simp [*, eq_comm]

theorem orRaise_eq_error {α : Type} {o : Option α} {f e : Failure} :
    orRaise o f = .error e ↔ o = none ∧ e = f := by
  cases o <;> simp [orRaise, eq_comm]

theorem pure_ne_error {α : Type} {a : α} {e : Failure} :
    (pure a : Except Failure α) ≠ .error e := by
  simp [pure, Except.pure]

namespace Db

/-! ## Tasks -/

/-- `order_by(sequence, task_id)`. -/
def TaskOrder (a b : Task) : Prop :=
  a.sequence < b.sequence ∨ (a.sequence = b.sequence ∧ a.taskId ≤ b.taskId)

instance : DecidableRel TaskOrder := fun a b => by unfold TaskOrder; infer_instance

/-- Rewriting the rows leaves them with their plans. -/
theorem filter_map_planId {planId : PlanId} {rows : List Task} {f : Task → Task}
    (hf : ∀ t ∈ rows, (f t).planId = t.planId) :
    ((rows.map f).filter fun t => t.planId = planId) =
      (rows.filter fun t => t.planId = planId).map f := by
  rw [List.filter_map]
  congr 1
  exact List.filter_congr fun t ht => by rw [Function.comp_apply, hf t ht]

/-- Rewriting the rows leaves their order alone. -/
theorem insertionSort_map {f : Task → Task} (hseq : ∀ t, (f t).sequence = t.sequence)
    (hid : ∀ t, (f t).taskId = t.taskId) (rows : List Task) :
    (rows.map f).insertionSort TaskOrder = (rows.insertionSort TaskOrder).map f := by
  refine (List.map_insertionSort (r := TaskOrder) (s := TaskOrder) f rows ?_).symm
  intro a _ b _
  simp only [TaskOrder, hseq, hid]

def listByPlanId (db : Db) (planId : PlanId) : List Task :=
  (db.tasks.rows.filter fun t => t.planId = planId).insertionSort TaskOrder

def listByPlanIdAndStatus (db : Db) (planId : PlanId) (status : TaskStatus) : List Task :=
  (db.tasks.rows.filter fun t => t.planId = planId ∧ t.status = status).insertionSort TaskOrder

theorem mem_listByPlanId {db : Db} {planId : PlanId} {t : Task} :
    t ∈ db.listByPlanId planId ↔ t ∈ db.tasks ∧ t.planId = planId := by
  simp [listByPlanId, Table.mem_iff]

theorem mem_listByPlanIdAndStatus {db : Db} {planId : PlanId} {status : TaskStatus} {t : Task} :
    t ∈ db.listByPlanIdAndStatus planId status ↔
      t ∈ db.tasks ∧ t.planId = planId ∧ t.status = status := by
  simp [listByPlanIdAndStatus, Table.mem_iff]

def countByPlanAndStatus (db : Db) (planId : PlanId) (status : TaskStatus) : Nat :=
  (db.tasks.rows.filter fun t => t.planId = planId ∧ t.status = status).length

theorem countByPlanAndStatus_eq_zero {db : Db} {planId : PlanId} {status : TaskStatus} :
    db.countByPlanAndStatus planId status = 0 ↔
      ∀ t ∈ db.tasks, t.planId = planId → t.status ≠ status := by
  simp [countByPlanAndStatus, List.filter_eq_nil_iff, Table.mem_iff]

/-- The tasks a task waits for. -/
def predecessorIds (db : Db) (taskId : TaskId) : List TaskId :=
  (db.taskDependencies.rows.filter fun d => d.taskId = taskId).map TaskDependency.dependsOnTaskId

theorem mem_predecessorIds {db : Db} {taskId p : TaskId} :
    p ∈ db.predecessorIds taskId ↔
      ∃ d ∈ db.taskDependencies, d.taskId = taskId ∧ d.dependsOnTaskId = p := by
  simp [predecessorIds, Table.mem_iff, and_assoc]

/-- How many rows of `ids` carry the given status. -/
def succeededCount (db : Db) (ids : List TaskId) (succeededStatus : TaskStatus) : Nat :=
  (db.tasks.rows.filter fun t => t.taskId ∈ ids ∧ t.status = succeededStatus).length

/-- The test of the loop in `get_next_runnable_for_update`. -/
def isRunnable (db : Db) (succeededStatus : TaskStatus) (task : Task) : Bool :=
  let predecessorIds := db.predecessorIds task.taskId
  predecessorIds.isEmpty || db.succeededCount predecessorIds succeededStatus = predecessorIds.length

def getNextRunnable (db : Db) (planId : PlanId) (pendingStatus succeededStatus : TaskStatus) :
    Option Task :=
  (db.listByPlanIdAndStatus planId pendingStatus).find? (db.isRunnable succeededStatus)

theorem getNextRunnable_eq_some {db : Db} {planId : PlanId} {pendingStatus succeededStatus : TaskStatus}
    {t : Task} (h : db.getNextRunnable planId pendingStatus succeededStatus = some t) :
    t ∈ db.tasks ∧ t.planId = planId ∧ t.status = pendingStatus ∧ db.isRunnable succeededStatus t = true := by
  obtain ⟨ht, hplan, hstatus⟩ := mem_listByPlanIdAndStatus.mp (List.mem_of_find?_eq_some h)
  exact ⟨ht, hplan, hstatus, List.find?_some h⟩

theorem getNextRunnable_eq_none {db : Db} {planId : PlanId} {pendingStatus succeededStatus : TaskStatus} :
    db.getNextRunnable planId pendingStatus succeededStatus = none ↔
      ∀ t ∈ db.tasks, t.planId = planId → t.status = pendingStatus →
        db.isRunnable succeededStatus t = false := by
  simp [getNextRunnable, List.find?_eq_none, mem_listByPlanIdAndStatus]

/-- One row of `set_status`: the listed tasks take the status. -/
def withStatus (tasks : List Task) (status : TaskStatus) (t : Task) : Task :=
  if t.taskId ∈ tasks.map Task.taskId then { t with status := status } else t

theorem withStatus_taskId (tasks : List Task) (status : TaskStatus) (t : Task) :
    (withStatus tasks status t).taskId = t.taskId := by
  unfold withStatus; split <;> rfl

@[simps] def setTaskStatus (db : Db) (tasks : List Task) (status : TaskStatus) : Db :=
  { db with tasks := db.tasks.mapRows (withStatus tasks status) (withStatus_taskId tasks status) }

/-- The statuses `set_unfinished_status` leaves alone. -/
def TaskStatus.isTerminal : TaskStatus → Bool
  | .succeeded | .failed | .cancelled | .superseded => true
  | _ => false

/-- One row of `set_unfinished_status`. -/
def unfinishedWithStatus (planId : PlanId) (status : TaskStatus) (t : Task) : Task :=
  if t.planId = planId ∧ !TaskStatus.isTerminal t.status then { t with status := status } else t

theorem unfinishedWithStatus_taskId (planId : PlanId) (status : TaskStatus) (t : Task) :
    (unfinishedWithStatus planId status t).taskId = t.taskId := by
  unfold unfinishedWithStatus; split <;> rfl

@[simps] def setUnfinishedStatus (db : Db) (planId : PlanId) (status : TaskStatus) : Db :=
  { db with
    tasks := db.tasks.mapRows (unfinishedWithStatus planId status)
      (unfinishedWithStatus_taskId planId status) }

/-- Adds a task under `uq_tasks_plan_sequence` and `uq_tasks_plan_task_ref`. -/
def createTask (db : Db) (task : Task) : Except Failure Db :=
  if db.tasks.rows.any fun t => t.planId = task.planId ∧
      (t.sequence = task.sequence ∨ t.taskRef = task.taskRef) then
    .error .integrityError
  else do
    let tasks ← orRaise (db.tasks.insert task) .integrityError
    return db.setTasks tasks

/-! ## Plans -/

def getByWorkflowAndRevision (db : Db) (workflowId : WorkflowId) (revision : Nat) : Option Plan :=
  db.plans.rows.find? fun p => p.workflowId = workflowId ∧ p.revision = revision

def getByTurnAndRevision (db : Db) (turnId : TurnId) (revision : Nat) : Option Plan :=
  db.plans.rows.find? fun p => p.turnId = turnId ∧ p.revision = revision

/-- A plan row as `plan_factory` makes it for a planner run. -/
def draftPlan (planId : PlanId) (workflowId : WorkflowId) (turnId : TurnId)
    (parentPlanId : Option PlanId) (revision : Nat) : Plan where
  planId := planId
  workflowId := workflowId
  turnId := turnId
  parentPlanId := parentPlanId
  currentTaskId := none
  status := .planning
  revision := revision
  failureCode := none
  failureReason := none
  startedAt := none
  completedAt := none

/-- Adds a plan under `uq_plans_turn_revision` and `uq_plans_workflow_revision`. -/
def createPlan (db : Db) (plan : Plan) : Except Failure Db :=
  if (db.getByTurnAndRevision plan.turnId plan.revision).isSome ∨
      (db.getByWorkflowAndRevision plan.workflowId plan.revision).isSome then
    .error .integrityError
  else do
    let plans ← orRaise (db.plans.insert plan) .integrityError
    return db.setPlans plans

/-! ## Dependencies -/

/-- `add_all` under `uq_task_dependencies_edge` and `ck_task_dependencies_no_self`. -/
def addDependencies (db : Db) : List TaskDependency → Except Failure Db
  | [] => .ok db
  | d :: ds =>
    if d.taskId = d.dependsOnTaskId ∨ db.taskDependencies.rows.any fun e =>
        e.taskId = d.taskId ∧ e.dependsOnTaskId = d.dependsOnTaskId then
      .error .integrityError
    else do
      let table ← orRaise (db.taskDependencies.insert d) .integrityError
      addDependencies (db.setTaskDependencies table) ds

theorem addDependencies_eq_ok {db db' : Db} {ds : List TaskDependency}
    (h : db.addDependencies ds = .ok db') : ∃ table, db' = db.setTaskDependencies table ∧
      table.rows = db.taskDependencies.rows ++ ds ∧
      ((db.taskDependencies.rows.map TaskDependency.edge).Nodup →
        (table.rows.map TaskDependency.edge).Nodup) := by
  induction ds generalizing db with
  | nil =>
    obtain rfl := Except.ok.inj h
    exact ⟨db.taskDependencies, rfl, by simp, id⟩
  | cons d ds ih =>
    rw [addDependencies] at h
    split at h
    · cases h
    · next hnew =>
      simp only [not_or, List.any_eq_true, decide_eq_true_eq, not_exists, not_and] at hnew
      simp only [bind_eq_ok, orRaise_eq_ok] at h
      obtain ⟨mid, hmid, h⟩ := h
      obtain ⟨table, rfl, hrows, hnodup⟩ := ih h
      have hmidRows : mid.rows = db.taskDependencies.rows ++ [d] := Table.rows_insert hmid
      refine ⟨table, rfl, ?_, fun hn => hnodup ?_⟩
      · rw [hrows, setTaskDependencies_taskDependencies, hmidRows, List.append_assoc,
          List.singleton_append]
      · rw [setTaskDependencies_taskDependencies, hmidRows, List.map_append, List.map_singleton]
        refine List.Nodup.append hn (by simp) ?_
        rw [List.disjoint_singleton]
        intro hmem
        obtain ⟨x, hx, he⟩ := List.mem_map.mp hmem
        obtain ⟨h₁, h₂⟩ := Prod.mk.inj he
        exact hnew.2 x hx h₁ h₂

/-! ## Executions -/

/-- `order_by(attempt desc)`. -/
def AttemptOrder (a b : TaskExecution) : Prop := b.attempt ≤ a.attempt

instance : DecidableRel AttemptOrder := fun a b => by unfold AttemptOrder; infer_instance
instance : Std.Total AttemptOrder := ⟨fun a b => Nat.le_total b.attempt a.attempt⟩
instance : IsTrans TaskExecution AttemptOrder := ⟨fun _ _ _ h g => le_trans g h⟩

def getLatestByTask (db : Db) (taskId : TaskId) : Option TaskExecution :=
  ((db.taskExecutions.rows.filter fun e => e.taskId = taskId).insertionSort AttemptOrder).head?

theorem getLatestByTask_eq_some {db : Db} {taskId : TaskId} {e : TaskExecution}
    (h : db.getLatestByTask taskId = some e) :
    e ∈ db.taskExecutions ∧ e.taskId = taskId ∧
      ∀ x ∈ db.taskExecutions, x.taskId = taskId → x.attempt ≤ e.attempt := by
  obtain ⟨tl, htl⟩ := List.head?_eq_some_iff.mp h
  have hmem : ∀ x, x ∈ e :: tl ↔ x ∈ db.taskExecutions ∧ x.taskId = taskId := by
    intro x
    rw [← htl, List.mem_insertionSort, List.mem_filter, decide_eq_true_eq, Table.mem_iff]
  obtain ⟨he, htask⟩ := (hmem e).mp List.mem_cons_self
  have hsorted := List.pairwise_insertionSort AttemptOrder
    (db.taskExecutions.rows.filter fun e => e.taskId = taskId)
  rw [htl, List.pairwise_cons] at hsorted
  refine ⟨he, htask, fun x hx hxt => ?_⟩
  rcases List.mem_cons.mp ((hmem x).mpr ⟨hx, hxt⟩) with rfl | hin
  · exact le_rfl
  · exact hsorted.1 x hin

theorem getLatestByTask_eq_none {db : Db} {taskId : TaskId} :
    db.getLatestByTask taskId = none ↔ ∀ x ∈ db.taskExecutions, x.taskId ≠ taskId := by
  rw [getLatestByTask, List.head?_eq_none_iff, ← List.length_eq_zero_iff,
    List.length_insertionSort, List.length_eq_zero_iff, List.filter_eq_nil_iff]
  simp [Table.mem_iff]

/-- The execution of the highest attempt is the latest one. -/
theorem getLatestByTask_of_max {db : Db} {e : TaskExecution} (he : e ∈ db.taskExecutions)
    (hmax : ∀ x ∈ db.taskExecutions, x.taskId = e.taskId → x ≠ e → x.attempt < e.attempt) :
    db.getLatestByTask e.taskId = some e := by
  cases h : db.getLatestByTask e.taskId with
  | none => exact absurd rfl (getLatestByTask_eq_none.mp h e he)
  | some x =>
    obtain ⟨hx, hxt, hle⟩ := getLatestByTask_eq_some h
    by_cases hxe : x = e
    · rw [hxe]
    · have hlt := hmax x hx hxt hxe
      have hge := hle e he rfl
      omega

/-- Adds an execution under `uq_task_executions_task_attempt`. -/
def addExecution (db : Db) (execution : TaskExecution) : Except Failure Db :=
  if db.taskExecutions.rows.any fun e =>
      e.taskId = execution.taskId ∧ e.attempt = execution.attempt then
    .error .integrityError
  else do
    let table ← orRaise (db.taskExecutions.insert execution) .integrityError
    return db.setTaskExecutions table

theorem addExecution_eq_ok {db db' : Db} {execution : TaskExecution} :
    db.addExecution execution = .ok db' ↔
      (∀ e ∈ db.taskExecutions, ¬ (e.taskId = execution.taskId ∧ e.attempt = execution.attempt)) ∧
      ∃ table, db.taskExecutions.insert execution = some table ∧
        db' = db.setTaskExecutions table := by
  unfold addExecution
  split
  · next h =>
    simp only [List.any_eq_true, decide_eq_true_eq] at h
    obtain ⟨e, he, hk⟩ := h
    exact iff_of_false (by simp) fun ⟨hn, _⟩ => hn e he hk
  · next h =>
    simp only [List.any_eq_true, decide_eq_true_eq, not_exists] at h
    simp only [bind_eq_ok, orRaise_eq_ok, pure_eq_ok]
    exact (and_iff_right fun e he hk => h e ⟨he, hk⟩).symm

/-! ## Outbox and inbox -/

def addOutbox (db : Db) (event : OutboxEvent) : Except Failure Db := do
  let table ← orRaise (db.outbox.insert event) .integrityError
  return db.setOutbox table

theorem addOutbox_eq_ok {db db' : Db} {event : OutboxEvent} :
    db.addOutbox event = .ok db' ↔
      ∃ table, db.outbox.insert event = some table ∧ db' = db.setOutbox table := by
  simp only [addOutbox, bind_eq_ok, orRaise_eq_ok, pure_eq_ok]

def inboxExists (db : Db) (consumerName : String) (eventId : EventId) : Bool :=
  (db.inbox.get? (consumerName, eventId)).isSome

theorem inboxExists_iff {db : Db} {consumerName : String} {eventId : EventId} :
    db.inboxExists consumerName eventId = true ↔ ⟨consumerName, eventId⟩ ∈ db.inbox := by
  rw [inboxExists, Option.isSome_iff_exists]
  constructor
  · rintro ⟨e, h⟩
    obtain ⟨he, hk⟩ := Table.get?_eq_some.mp h
    obtain ⟨rfl, rfl⟩ := Prod.mk.inj hk
    exact he
  · intro h
    exact ⟨_, Table.get?_eq_some.mpr ⟨h, rfl⟩⟩

def addInbox (db : Db) (consumerName : String) (eventId : EventId) : Except Failure Db := do
  let table ← orRaise (db.inbox.insert ⟨consumerName, eventId⟩) .integrityError
  return db.setInbox table

theorem addInbox_eq_ok {db db' : Db} {consumerName : String} {eventId : EventId} :
    db.addInbox consumerName eventId = .ok db' ↔
      ∃ table, db.inbox.insert ⟨consumerName, eventId⟩ = some table ∧
        db' = db.setInbox table := by
  simp only [addInbox, bind_eq_ok, orRaise_eq_ok, pure_eq_ok]

/-! ## Clarifications -/

/-- `clarifications.get_by_plan_id`. -/
def getClarificationByPlanId (db : Db) (planId : PlanId) : Option ClarificationRequest :=
  db.clarifications.rows.find? fun r => r.sourcePlanId = planId

/-- `clarifications.get_by_source_turn_id_for_update`. -/
def getClarificationBySourceTurnId (db : Db) (turnId : TurnId) : Option ClarificationRequest :=
  db.clarifications.rows.find? fun r => r.sourceTurnId = turnId

theorem getClarificationByPlanId_eq_some {db : Db} {planId : PlanId} {r : ClarificationRequest}
    (h : db.getClarificationByPlanId planId = some r) :
    r ∈ db.clarifications ∧ r.sourcePlanId = planId :=
  ⟨List.mem_of_find?_eq_some h, by simpa using List.find?_some h⟩

theorem getClarificationByPlanId_eq_none {db : Db} {planId : PlanId} :
    db.getClarificationByPlanId planId = none ↔
      ∀ r ∈ db.clarifications, r.sourcePlanId ≠ planId := by
  simp [getClarificationByPlanId, List.find?_eq_none, Table.mem_iff]

theorem getClarificationBySourceTurnId_eq_some {db : Db} {turnId : TurnId}
    {r : ClarificationRequest} (h : db.getClarificationBySourceTurnId turnId = some r) :
    r ∈ db.clarifications ∧ r.sourceTurnId = turnId :=
  ⟨List.mem_of_find?_eq_some h, by simpa using List.find?_some h⟩

theorem getClarificationBySourceTurnId_eq_none {db : Db} {turnId : TurnId} :
    db.getClarificationBySourceTurnId turnId = none ↔
      ∀ r ∈ db.clarifications, r.sourceTurnId ≠ turnId := by
  simp [getClarificationBySourceTurnId, List.find?_eq_none, Table.mem_iff]

/-- Adds a request under `uq_clarification_requests_source_plan` and
`uq_clarification_requests_source_turn`. -/
def addClarification (db : Db) (request : ClarificationRequest) : Except Failure Db :=
  if (db.getClarificationByPlanId request.sourcePlanId).isSome ∨
      (db.getClarificationBySourceTurnId request.sourceTurnId).isSome then
    .error .integrityError
  else do
    let table ← orRaise (db.clarifications.insert request) .integrityError
    return db.setClarifications table

theorem addClarification_eq_ok {db db' : Db} {request : ClarificationRequest}
    (h : db.addClarification request = .ok db') :
    ∃ table, db.clarifications.insert request = some table ∧ db' = db.setClarifications table := by
  unfold addClarification at h
  split at h
  · cases h
  · simp only [bind_eq_ok, orRaise_eq_ok, pure_eq_ok] at h
    exact h

/-! ## The inbox of a consumer -/

/-- `record_inbox_once`. -/
def recordInboxOnce (db : Db) (consumerName : String) (eventId : EventId) : Except Failure Db :=
  if db.inboxExists consumerName eventId then .ok db else db.addInbox consumerName eventId

end Db

end DocFlow
