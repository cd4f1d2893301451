import DocFlow.Database
import Mathlib.Algebra.Group.Int.Defs
import Mathlib.Data.Int.ConditionallyCompleteOrder
import Mathlib.Order.ConditionallyCompleteLattice.Basic

/-!
# The transactions of the Task Runtime

`TaskRuntimeService` drives a plan in three stages: a short claim transaction, the
executor outside any transaction, and short outcome transactions.  Here are the
transactions, `claimNext` first; the executor and the compensator in between belong
to the workers.

The identifiers a transaction draws and the readings of the clock are arguments.
-/

namespace DocFlow.TaskRuntime

/-- The delays and bounds of a `TaskRuntimeService`, as its constructor admits them. -/
structure RuntimeSettings where
  retryDelaySeconds : Int
  compensationRetryDelaySeconds : Int
  compensationRetryMaxDelaySeconds : Int
  maxCompensationAttempts : Nat
  compensationRetryDelay_nonneg : 0 ≤ compensationRetryDelaySeconds
  compensationRetryMaxDelay_nonneg : 0 ≤ compensationRetryMaxDelaySeconds
  maxCompensationAttempts_pos : 0 < maxCompensationAttempts

/-- `TaskRuntimeService.__init__`. -/
def RuntimeSettings.init (retryDelaySeconds compensationRetryDelaySeconds
    compensationRetryMaxDelaySeconds maxCompensationAttempts : Int) :
    Except Failure RuntimeSettings :=
  if hd : compensationRetryDelaySeconds < 0 then
    .error (.valueError "补偿重试延迟不能小于 0")
  else if hm : compensationRetryMaxDelaySeconds < 0 then
    .error (.valueError "补偿重试最大延迟不能小于 0")
  else if ha : maxCompensationAttempts < 1 then
    .error (.valueError "最大自动补偿次数必须大于 0")
  else
    .ok
      { retryDelaySeconds := retryDelaySeconds
        compensationRetryDelaySeconds := compensationRetryDelaySeconds
        compensationRetryMaxDelaySeconds := compensationRetryMaxDelaySeconds
        maxCompensationAttempts := maxCompensationAttempts.toNat
        compensationRetryDelay_nonneg := by omega
        compensationRetryMaxDelay_nonneg := by omega
        maxCompensationAttempts_pos := by omega }

/-- The constructor's default arguments. -/
def RuntimeSettings.default : RuntimeSettings where
  retryDelaySeconds := 30
  compensationRetryDelaySeconds := 30
  compensationRetryMaxDelaySeconds := 300
  maxCompensationAttempts := 5
  compensationRetryDelay_nonneg := by decide
  compensationRetryMaxDelay_nonneg := by decide
  maxCompensationAttempts_pos := by decide

/-- The successive readings of `datetime.now()` in one transaction. -/
structure Clock where
  read : Nat → Time
  monotone : Monotone read

/-- A clock that stands still during the transaction. -/
def Clock.at (now : Time) : Clock := ⟨fun _ => now, monotone_const⟩

/-- The inbox consumer the runtime records its events under. -/
def consumerName : String := "task_runtime"

/-- The arguments of `execute_next`. -/
structure ExecuteNextInput where
  planId : PlanId
  eventId : Option EventId
  compensationExecutionId : Option ExecutionId
  compensationOperationId : Option OperationId
deriving DecidableEq, Repr

/-- The identifiers a claim draws. -/
structure ClaimIds where
  executionId : ExecutionId
  operationId : OperationId
  agentRunId : AgentRunId
  eventId : EventId
deriving DecidableEq, Repr

/-! ## Events -/

/-- `_event`. -/
def event (eventId : EventId) (plan : Plan) (eventType : RuntimeEventType)
    (payload : Option EventPayload) (availableAt : Time) : OutboxEvent where
  eventId := eventId
  eventType := eventType
  aggregateId := plan.planId
  payload := payload.getD (.plan plan.workflowId plan.planId)
  status := .pending
  attempts := 0
  availableAt := availableAt
  publishedAt := none

def recordInbox (eventId : Option EventId) (db : Db) : Except Failure Db :=
  match eventId with
  | none => .ok db
  | some eventId => db.addInbox consumerName eventId

/-- `_record_inbox` followed by `if event_id is not None: uow.commit()`: without an
event the transaction is rolled back to `before`. -/
def recordAndCommitIfEvent (eventId : Option EventId) (before written : Db) : Except Failure Db :=
  match eventId with
  | none => .ok before
  | some eventId => written.addInbox consumerName eventId

/-- `if event_id is not None and not uow.inbox.exists(..): self._record_inbox(..)`. -/
def recordInboxOnce (eventId : Option EventId) (db : Db) : Except Failure Db :=
  match eventId with
  | none => .ok db
  | some eventId => db.recordInboxOnce consumerName eventId

def turnConversationId (db : Db) (turnId : TurnId) : Except Failure ConversationId := do
  let turn ← orRaise (db.conversationTurns.get? turnId) (.runtimeError "Plan 对应 Turn 不存在")
  return turn.conversationId

/-! ## The claim -/

/-- What `_recover_stale_execution` answers when there is something to recover. -/
inductive RecoveryClaim
  | locked (recovery : Snapshot)
  | required (recovery : Snapshot)
deriving DecidableEq, Repr

def RecoveryClaim.recovery : RecoveryClaim → Snapshot
  | locked recovery | required recovery => recovery

def recoverySnapshot (db : Db) (plan : Plan) (task : Task) (execution : TaskExecution) :
    Except Failure Snapshot := do
  let agentRunId ← orRaise execution.agentRunId (.runtimeError "TaskExecution 缺少 agent_run_id")
  let conversationId ← turnConversationId db plan.turnId
  return {
    taskId := task.taskId
    planId := plan.planId
    workflowId := plan.workflowId
    conversationId := conversationId
    turnId := plan.turnId
    capabilityCode := task.capabilityCode
    inputJson := execution.inputSnapshotJson
    attempt := execution.attempt
    maxAttempts := task.maxAttempts
    executionId := execution.executionId
    operationId := execution.operationId
    agentRunId := agentRunId }

/-- The lease of a running task has not run out. -/
def leaseHeld (task : Task) (definition : CapabilityDefinition) (now : Time) : Bool :=
  match task.startedAt with
  | none => true
  | some startedAt => now < startedAt + timedelta definition.timeoutSeconds

def leaseExpiredCode : String := "execution_lease_expired"

/-- The execution as a recovery leaves it when its lease has run out. -/
def expireLease (execution : TaskExecution) : TaskExecution :=
  { execution with
    status := .compensationRequired
    errorCode := some leaseExpiredCode
    errorMessage := some "Task Execution 超时未完成"
    retryable := some true
    blocked := false
    completedAt := none }

/-- `_recover_stale_execution`; `none` means that the task is still running. -/
def recoverStaleExecution (registry : CapabilityRegistry) (now : Time) (plan : Plan)
    (currentTaskId : TaskId) (db : Db) : Except Failure (Option RecoveryClaim × Db) := do
  let task ← orRaise (db.tasks.get? currentTaskId)
    (.runtimeError "Plan current_task_id 指向不存在的 Task")
  let definition ← registry.require task.capabilityCode
  let execution ← orRaise (db.getLatestByTask task.taskId)
    (.runtimeError "Running Task 缺少 TaskExecution")
  match execution.status with
  | .compensationLocked =>
    let recovery ← recoverySnapshot db plan task execution
    return (some (.locked recovery), db)
  | .compensationRequired =>
    let recovery ← recoverySnapshot db plan task execution
    return (some (.required recovery), db)
  | .running =>
    if leaseHeld task definition now then
      return (none, db)
    else
      let recovery ← recoverySnapshot db plan task (expireLease execution)
      return (some (.required recovery),
        db.saveExecution (expireLease execution))
  | _ => .error (.runtimeError "Running Task 的 TaskExecution 状态不一致")

/-- The statuses a claim skips without looking further. -/
def isTerminalForClaim : PlanStatus → Bool
  | .completed | .failed | .cancelled | .superseded | .replanPending => true
  | _ => false

/-- The wake-up was meant for another execution or operation. -/
def ExecuteNextInput.Mismatches (call : ExecuteNextInput) (recovery : Snapshot) : Prop :=
  (call.compensationExecutionId ≠ none ∧
    call.compensationExecutionId ≠ some recovery.executionId) ∨
  (call.compensationOperationId ≠ none ∧
    call.compensationOperationId ≠ some recovery.operationId)

instance (call : ExecuteNextInput) (recovery : Snapshot) : Decidable (call.Mismatches recovery) := by
  unfold ExecuteNextInput.Mismatches; infer_instance

/-- The call names an execution or an operation to compensate. -/
def ExecuteNextInput.Directed (call : ExecuteNextInput) : Prop :=
  call.compensationExecutionId ≠ none ∨ call.compensationOperationId ≠ none

instance (call : ExecuteNextInput) : Decidable call.Directed := by
  unfold ExecuteNextInput.Directed; infer_instance

/-- The part of `_claim_next` for a plan with a current task. -/
def claimRecovery (registry : CapabilityRegistry) (clock : Clock) (call : ExecuteNextInput)
    (plan : Plan) (currentTaskId : TaskId) (db : Db) :
    Except Failure (ClaimNextTaskResult × Db) := do
  let (recoveryClaim, written) ←
    recoverStaleExecution registry (clock.read 0) plan currentTaskId db
  match recoveryClaim with
  | some recoveryClaim =>
    if call.Mismatches recoveryClaim.recovery then
      let db ← recordAndCommitIfEvent call.eventId db written
      return (.terminal, db)
    else
      match recoveryClaim with
      | .locked recovery =>
        let db ← recordAndCommitIfEvent call.eventId db written
        return (.compensationLocked recovery, db)
      | .required recovery => return (.compensationRequired recovery, written)
  | none =>
    let db ← recordAndCommitIfEvent call.eventId db written
    return (.alreadyRunning, db)

/-- The task row a claim writes. -/
def startTask (definition : CapabilityDefinition) (clock : Clock) (task : Task) : Task :=
  { task with
    attemptCount := task.attemptCount + 1
    maxAttempts := definition.maxAttempts
    status := .running
    startedAt := some (clock.read 0) }

/-- The plan row a claim writes. -/
def startPlan (clock : Clock) (task : Task) (plan : Plan) : Plan :=
  { plan with
    status := .running
    startedAt := some (plan.startedAt.getD (clock.read 1))
    currentTaskId := some task.taskId }

/-- The execution row a claim adds; `task` is the row after `startTask`. -/
def newExecution (definition : CapabilityDefinition) (ids : ClaimIds) (clock : Clock)
    (plan : Plan) (task : Task) : TaskExecution where
  executionId := ids.executionId
  taskId := task.taskId
  planId := plan.planId
  workflowId := plan.workflowId
  attempt := task.attemptCount
  status := .running
  executorCode := definition.executorCode
  inputSnapshotJson := task.inputJson
  outputJson := none
  resourceRefsJson := []
  errorCode := none
  errorMessage := none
  retryable := none
  blocked := false
  agentRunId := some ids.agentRunId
  operationId := ids.operationId
  compensationAttemptCount := 0
  compensationLastError := none
  compensationLastAttemptAt := none
  compensationLockedAt := none
  compensationLockReason := none
  startedAt := clock.read 2
  completedAt := none

/-- The wake-up that fires when the lease has run out. -/
def leaseWakeup (definition : CapabilityDefinition) (ids : ClaimIds) (clock : Clock)
    (plan : Plan) : OutboxEvent :=
  event ids.eventId plan .planWakeup none (clock.read 3 + timedelta definition.timeoutSeconds)

/-- The snapshot a claim hands out; `task` is the row after `startTask`. -/
def taskSnapshot (definition : CapabilityDefinition) (ids : ClaimIds)
    (conversationId : ConversationId) (plan : Plan) (task : Task) : TaskSnapshot where
  taskId := task.taskId
  planId := plan.planId
  workflowId := plan.workflowId
  conversationId := conversationId
  turnId := plan.turnId
  capabilityCode := task.capabilityCode
  inputJson := task.inputJson
  sequence := task.sequence
  attempt := task.attemptCount
  maxAttempts := task.maxAttempts
  executionId := ids.executionId
  operationId := ids.operationId
  agentRunId := ids.agentRunId
  executorCode := definition.executorCode

/-- The part of `_claim_next` that selects and starts a task. -/
def claimRunnable (registry : CapabilityRegistry) (ids : ClaimIds) (clock : Clock)
    (call : ExecuteNextInput) (plan : Plan) (db : Db) :
    Except Failure (ClaimNextTaskResult × Db) := do
  -- every task in `RETRY_WAIT` goes back to `PENDING`, whenever it is due
  let retrying := db.listByPlanIdAndStatus plan.planId .retryWait
  let resumed := db.setTaskStatus retrying .pending
  match resumed.getNextRunnable plan.planId .pending .succeeded with
  | none =>
    if retrying ≠ [] ∨ call.eventId ≠ none then
      let db ← recordInbox call.eventId resumed
      return (.noTask, db)
    else
      return (.noTask, db)
  | some task =>
    let definition ← registry.require task.capabilityCode
    let started := startTask definition clock task
    let conversationId ← turnConversationId resumed plan.turnId
    let db ← ((resumed.saveTask started).savePlan (startPlan clock task plan)).addExecution
      (newExecution definition ids clock plan started)
    let db ← db.addOutbox (leaseWakeup definition ids clock plan)
    let db ← recordInbox call.eventId db
    return (.claimed (taskSnapshot definition ids conversationId plan started), db)

/-- `_claim_next`.  `seen` is the answer of `inbox.exists`, read before the plan is
locked; the rest reads the database as it is once the lock is held. -/
def claimNext (registry : CapabilityRegistry) (ids : ClaimIds) (clock : Clock) (seen : Bool)
    (call : ExecuteNextInput) (db : Db) : Except Failure (ClaimNextTaskResult × Db) := do
  if seen then
    return (.terminal, db)
  else
    let plan ← orRaise (db.plans.get? call.planId) (.valueError "Plan 不存在")
    if isTerminalForClaim plan.status then
      let db ← recordAndCommitIfEvent call.eventId db db
      return (.terminal, db)
    else
      match plan.currentTaskId with
      | some currentTaskId => claimRecovery registry clock call plan currentTaskId db
      | none =>
        if call.Directed ∨ ¬ (plan.status = .ready ∨ plan.status = .running) then
          let db ← recordAndCommitIfEvent call.eventId db db
          return (.terminal, db)
        else
          claimRunnable registry ids clock call plan db

/-! ## The outcome of an executor -/

/-- `_lock_execution`. -/
def lockExecution (snapshot : Snapshot) (db : Db) :
    Except Failure (Plan × Task × TaskExecution) := do
  let plan ← orRaise (db.plans.get? snapshot.planId) (.runtimeError "Task Runtime 状态记录不存在")
  let task ← orRaise (db.tasks.get? snapshot.taskId) (.runtimeError "Task Runtime 状态记录不存在")
  let execution ← orRaise (db.taskExecutions.get? snapshot.executionId)
    (.runtimeError "Task Runtime 状态记录不存在")
  ensure (plan.currentTaskId = some task.taskId ∧ task.status = .running ∧
      execution.status = .running ∧ execution.attempt = snapshot.attempt ∧
      execution.operationId = snapshot.operationId ∧
      execution.agentRunId = some snapshot.agentRunId)
    (.runtimeError "Task Execution token 已失效")
  return (plan, task, execution)

/-- The payload of the request for the next revision. -/
def replanPayload (conversationId : ConversationId) (plan : Plan) (task : Task) (blocked : Bool)
    (errorCode errorMessage : Option String) : EventPayload :=
  .replan
    { workflowId := plan.workflowId
      conversationId := conversationId
      rootTurnId := plan.turnId
      previousPlanId := plan.planId
      nextRevision := plan.revision + 1
      triggerType := if blocked then "task_blocked" else "task_terminal_failure"
      sourceTaskId := some task.taskId
      errorCode := errorCode
      errorMessage := errorMessage }

/-! ### Success -/

/-- The plan without its current task. -/
def releasePlan (plan : Plan) : Plan := { plan with currentTaskId := none }

def completePlan (now : Time) (plan : Plan) : Plan :=
  { releasePlan plan with status := .completed, completedAt := some now }

def succeedTask (now : Time) (outputJson : OutputJson) (task : Task) : Task :=
  { task with
    status := .succeeded
    outputJson := some outputJson
    lastErrorCode := none
    lastErrorMessage := none
    completedAt := some now }

def succeedExecution (now : Time) (outputJson : OutputJson) (resourceRefs : List String)
    (execution : TaskExecution) : TaskExecution :=
  { execution with
    status := .succeeded
    outputJson := some outputJson
    resourceRefsJson := resourceRefs.eraseDups
    completedAt := some now }

/-- `_complete`. -/
def complete (newEventId : EventId) (clock : Clock) (snapshot : Snapshot) (outputJson : OutputJson)
    (resourceRefs : List String) (db : Db) : Except Failure Db := do
  let (plan, task, execution) ← lockExecution snapshot db
  let now := clock.read 0
  let db := db.saveRows (releasePlan plan) (succeedTask now outputJson task)
    (succeedExecution now outputJson resourceRefs execution)
  if db.countByPlanAndStatus plan.planId .pending ≠ 0 ∨
      db.countByPlanAndStatus plan.planId .retryWait ≠ 0 then
    db.addOutbox (event newEventId plan .planWakeup none (clock.read 1))
  else if ∀ item ∈ db.listByPlanId plan.planId, item.status = .succeeded then
    (db.savePlan (completePlan now plan)).addOutbox
      (event newEventId plan .aggregationRequested none (clock.read 1))
  else
    return db

/-! ### Failure -/

/-- The task of a failed attempt. -/
def failTask (now : Time) (status : TaskStatus) (errorCode errorMessage : Option String)
    (task : Task) : Task :=
  { task with
    status := status
    lastErrorCode := errorCode
    lastErrorMessage := errorMessage
    completedAt := some now }

/-- An execution with the outcome of its executor written down. -/
def recordError (status : TaskExecutionStatus) (completedAt : Option Time)
    (error : TaskExecutionError) (execution : TaskExecution) : TaskExecution :=
  { execution with
    status := status
    errorCode := some error.errorCode
    errorMessage := some error.message
    retryable := some error.retryable
    blocked := error.blocked
    completedAt := completedAt }

/-- The plan that asks for its next revision. -/
def requestReplan (errorCode errorMessage : Option String) (plan : Plan) : Plan :=
  { releasePlan plan with
    status := .replanPending
    failureCode := errorCode
    failureReason := errorMessage }

/-- `_fail`. -/
def fail (settings : RuntimeSettings) (newEventId : EventId) (clock : Clock) (snapshot : Snapshot)
    (error : TaskExecutionError) (db : Db) : Except Failure Db := do
  let (plan, task, execution) ← lockExecution snapshot db
  let now := clock.read 0
  let failed := recordError .failed (some now) error execution
  let errorCode := some error.errorCode
  let errorMessage := some error.message
  if error.retryable ∧ (task.attemptCount : Int) < task.maxAttempts then
    let db := db.saveRows (releasePlan plan) (failTask now .retryWait errorCode errorMessage task)
      failed
    db.addOutbox (event newEventId plan .planWakeup none
      (now + timedelta settings.retryDelaySeconds))
  else
    let conversationId ← turnConversationId db plan.turnId
    let status := if error.blocked then .blocked else .failed
    let db := db.saveRows (requestReplan errorCode errorMessage plan)
      (failTask now status errorCode errorMessage task) failed
    db.addOutbox (event newEventId plan .replanRequested
      (some (replanPayload conversationId plan task error.blocked errorCode errorMessage))
      (clock.read 1))

/-- `_require_compensation`. -/
def requireCompensation (snapshot : Snapshot) (error : TaskExecutionError) (db : Db) :
    Except Failure Db := do
  let (_, _, execution) ← lockExecution snapshot db
  return db.saveExecution (recordError .compensationRequired none error execution)

/-! ## Compensation -/

/-- The rows of a compensation, once `_assert_compensation_token` has admitted them. -/
def lockCompensationToken (snapshot : Snapshot) (db : Db) :
    Except Failure (Plan × Task × TaskExecution) := do
  let plan ← orRaise (db.plans.get? snapshot.planId)
    (.runtimeError "Task Runtime 补偿状态记录不存在")
  let task ← orRaise (db.tasks.get? snapshot.taskId)
    (.runtimeError "Task Runtime 补偿状态记录不存在")
  let execution ← orRaise (db.taskExecutions.get? snapshot.executionId)
    (.runtimeError "Task Runtime 补偿状态记录不存在")
  ensure (plan.currentTaskId = some task.taskId ∧ task.status = .running ∧
      execution.status = .compensationRequired ∧ execution.attempt = snapshot.attempt ∧
      execution.operationId = snapshot.operationId)
    (.runtimeError "Task Execution 补偿 token 已失效")
  return (plan, task, execution)

/-- The execution with one more attempt counted. -/
def countAttempt (now : Time) (execution : TaskExecution) : TaskExecution :=
  { execution with
    compensationAttemptCount := execution.compensationAttemptCount + 1
    compensationLastAttemptAt := some now }

/-- `_begin_compensation_attempt`. -/
def beginCompensationAttempt (clock : Clock) (snapshot : Snapshot) (db : Db) :
    Except Failure (Nat × Db) := do
  let (_, _, execution) ← lockCompensationToken snapshot db
  let counted := countAttempt (clock.read 0) execution
  return (counted.compensationAttemptCount, db.saveExecution counted)

/-- The exponential back-off before the next attempt, in seconds. -/
def compensationDelaySeconds (settings : RuntimeSettings) (attempt : Nat) : Int :=
  min (settings.compensationRetryDelaySeconds * 2 ^ (attempt - 1))
    settings.compensationRetryMaxDelaySeconds

def recordCompensationError (error : String) (execution : TaskExecution) : TaskExecution :=
  { execution with compensationLastError := some error }

/-- The execution whose automatic attempts are used up. -/
def lockExhausted (lockedAt : Time) (execution : TaskExecution) : TaskExecution :=
  { execution with
    status := .compensationLocked
    compensationLockedAt := some lockedAt
    compensationLockReason := some .retryExhausted
    completedAt := none }

/-- `_lock_compensation`. -/
def lockCompensation (eventId : Option EventId) (lockedAt : Time) (execution : TaskExecution)
    (db : Db) : Except Failure (ExecuteOutcome × Db) := do
  let db ← recordInboxOnce eventId (db.saveExecution (lockExhausted lockedAt execution))
  return (.compensationLocked, db)

/-- The wake-up of the next attempt, addressed to the execution. -/
def compensationWakeup (settings : RuntimeSettings) (newEventId : EventId) (now : Time)
    (snapshot : Snapshot) (attempt : Nat) (plan : Plan) : OutboxEvent :=
  event newEventId plan .planWakeup
    (some (.compensation plan.workflowId plan.planId snapshot.executionId snapshot.operationId))
    (now + timedelta (compensationDelaySeconds settings attempt))

/-- `_handle_compensation_failure`. -/
def handleCompensationFailure (settings : RuntimeSettings) (newEventId : EventId) (clock : Clock)
    (snapshot : Snapshot) (eventId : Option EventId) (error : String) (attempt : Nat) (db : Db) :
    Except Failure (ExecuteOutcome × Db) := do
  let (plan, _, execution) ← lockCompensationToken snapshot db
  ensure (execution.compensationAttemptCount = attempt)
    (.runtimeError "Task Execution 补偿 attempt 已失效")
  let now := clock.read 0
  let failedExecution := recordCompensationError error execution
  if settings.maxCompensationAttempts ≤ attempt then
    lockCompensation eventId now failedExecution db
  else
    let db ← (db.saveExecution failedExecution).addOutbox
      (compensationWakeup settings newEventId now snapshot attempt plan)
    let db ← recordInboxOnce eventId db
    return (.compensationRetryScheduled, db)

/-- The execution whose side effects are gone. -/
def compensateExecution (now : Time) (execution : TaskExecution) : TaskExecution :=
  { execution with status := .compensated, completedAt := some now }

/-- `_complete_compensation`. -/
def completeCompensation (settings : RuntimeSettings) (newEventId : EventId) (clock : Clock)
    (snapshot : Snapshot) (eventId : Option EventId) (db : Db) :
    Except Failure (ExecuteOutcome × Db) := do
  let (plan, task, execution) ← lockCompensationToken snapshot db
  let now := clock.read 0
  let compensated := compensateExecution now execution
  let errorCode := execution.errorCode
  let errorMessage := execution.errorMessage
  if execution.retryable = some true ∧ (task.attemptCount : Int) < task.maxAttempts then
    let staleRecovery := errorCode = some leaseExpiredCode
    let status := if staleRecovery then .pending else .retryWait
    let db := db.saveRows (releasePlan plan) (failTask now status errorCode errorMessage task)
      compensated
    let db ← db.addOutbox (event newEventId plan .planWakeup none
      (if staleRecovery then now else now + timedelta settings.retryDelaySeconds))
    let db ← recordInbox eventId db
    return (.retryScheduled, db)
  else
    let status := if execution.blocked then .blocked else .failed
    let db := db.saveRows (requestReplan errorCode errorMessage plan)
      (failTask now status errorCode errorMessage task) compensated
    let db ← db.addOutbox (event newEventId plan .replanRequested
      (some (replanPayload snapshot.conversationId plan task execution.blocked errorCode
        errorMessage))
      (clock.read 1))
    let db ← recordInbox eventId db
    return (.replanRequested, db)

end DocFlow.TaskRuntime
