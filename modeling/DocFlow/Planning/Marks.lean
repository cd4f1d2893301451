import DocFlow.Lib.PyString
import DocFlow.Planning.UseCases

/-!
# Marks and clarifications

The transactions that end a planner run without publishing the plan: `_MarkPlanUseCase` with its
two target statuses, `MarkPlanNeedsClarificationUseCase`, `SetClarificationQuestionUseCase`, and
the user's `AnswerClarificationUseCase`.
-/

namespace DocFlow.Planning

/-- A text that passes `Field(min_length=1, max_length=4000)`. -/
structure BoundedText where
  text : String
  bounded : 1 ≤ text.length ∧ text.length ≤ 4000
deriving DecidableEq, Repr

/-! ## Unsupported and retry pending -/

/-- `plans.set_status`. -/
def setPlanStatus (status : PlanStatus) (failureReason failureCode : Option String) (plan : Plan) :
    Plan :=
  { plan with status := status, failureCode := failureCode, failureReason := failureReason }

def withTurnStatus (status : ContextTurnStatus) (turn : ConversationTurn) : ConversationTurn :=
  { turn with status := status }

/-- A request for the next revision of a plan, as the planner and the user make it. -/
def replanEvent (newEventId : EventId) (availableAt : Time) (plan : Plan)
    (conversationId : ConversationId) (triggerType : String)
    (errorCode errorMessage : Option String) : OutboxEvent where
  eventId := newEventId
  eventType := .replanRequested
  aggregateId := plan.planId
  payload := .replan
    { workflowId := plan.workflowId
      conversationId := conversationId
      rootTurnId := plan.turnId
      previousPlanId := plan.planId
      nextRevision := plan.revision + 1
      triggerType := triggerType
      sourceTaskId := none
      errorCode := errorCode
      errorMessage := errorMessage }
  status := .pending
  attempts := 0
  availableAt := availableAt
  publishedAt := none

/-- Only a retry may overtake a plan that waits for a clarification. -/
def requireMarkable (targetStatus : PlanStatus) (plan : Plan) : Except Failure Unit :=
  if targetStatus = .retryPending ∧ plan.status = .needsClarification then .ok ()
  else requirePlanning plan

def expireRequest (now : Time) (request : ClarificationRequest) : ClarificationRequest :=
  { request with status := .expired, resolvedAt := some now }

/-- The request of a plan expires, when there is one. -/
def expireClarification (now : Time) (planId : PlanId) (db : Db) : Db :=
  match db.getClarificationByPlanId planId with
  | none => db
  | some request => db.saveClarification (expireRequest now request)

def failureCodeOf (targetStatus : PlanStatus) : String :=
  if targetStatus = .retryPending then "planner_system_failure" else "unsupported"

/-- `_MarkPlanUseCase._execute`.  The clock is read for the request and for the event. -/
def markPlan (targetStatus : PlanStatus) (newEventId : EventId) (resolvedAt availableAt : Time)
    (planId : PlanId) (reason : String) (db : Db) : Except Failure Db := do
  let normalizedReason := PyString.strip reason
  ensure (normalizedReason ≠ "")
    (.applicationError 400 "失败原因不能为空" "invalid_plan_failure_reason")
  let plan ← orRaise (db.plans.get? planId) planNotFound
  requireMarkable targetStatus plan
  let marked := setPlanStatus targetStatus (some normalizedReason)
    (some (failureCodeOf targetStatus)) plan
  let db := db.savePlan marked
  if targetStatus = .retryPending then
    let db := expireClarification resolvedAt plan.planId db
    let turn ← orRaise (db.conversationTurns.get? plan.turnId) turnNotFound
    (db.saveTurn (withTurnStatus .processing turn)).addOutbox
      (replanEvent newEventId availableAt plan turn.conversationId "planner_system_failure"
        (some "planner_system_failure") (some normalizedReason))
  else
    return db

/-- `MarkPlanUnsupportedUseCase.execute`; no event is made and no request is touched. -/
def markPlanUnsupported (planId : PlanId) (reason : BoundedText) (db : Db) : Except Failure Db :=
  markPlan .unsupported 0 0 0 planId reason.text db

/-- `MarkPlanRetryPendingUseCase.execute`. -/
def markPlanRetryPending (newEventId : EventId) (resolvedAt availableAt : Time) (planId : PlanId)
    (reason : BoundedText) (db : Db) : Except Failure Db :=
  markPlan .retryPending newEventId resolvedAt availableAt planId reason.text db

/-! ## Clarifications -/

structure MarkPlanNeedsClarificationInput where
  planId : PlanId
  conversationId : ConversationId
  kind : ClarificationKind
  reason : BoundedText
  requiredInformation : List String
  knownResourceRefs : List String
deriving DecidableEq, Repr

def openRequest (newClarificationId : ClarificationId) (command : MarkPlanNeedsClarificationInput)
    (plan : Plan) : ClarificationRequest where
  clarificationId := newClarificationId
  conversationId := command.conversationId
  sourceTurnId := plan.turnId
  sourcePlanId := plan.planId
  kind := command.kind
  reason := command.reason.text
  question := none
  requiredInformationJson := command.requiredInformation
  knownResourceRefsJson := command.knownResourceRefs
  status := .opened
  answerTurnId := none
  resolvedAt := none

def turnStateConflict (message : String) : Failure :=
  .applicationError 409 message "turn_state_conflict"

/-- `MarkPlanNeedsClarificationUseCase.execute`. -/
def markPlanNeedsClarification (newClarificationId : ClarificationId)
    (command : MarkPlanNeedsClarificationInput) (db : Db) : Except Failure Db := do
  let plan ← orRaise (db.plans.get? command.planId) planNotFound
  requirePlanning plan
  let turn ← orRaise (db.conversationTurns.get? plan.turnId) turnNotFound
  ensure (turn.conversationId = command.conversationId)
    (.applicationError 409 "Clarification 会话归属不一致" "clarification_conversation_conflict")
  ensure (turn.status = .contextReady ∨ turn.status = .processing)
    (turnStateConflict "Conversation Turn 当前状态不允许标记需要澄清")
  ensure (db.getClarificationBySourceTurnId plan.turnId = none)
    (.applicationError 409 "Conversation Turn 已存在 ClarificationRequest" "clarification_conflict")
  let db := db.savePlan (setPlanStatus .needsClarification (some command.reason.text)
    (some "clarification_required") plan)
  (db.saveTurn (withTurnStatus .needsClarification turn)).addClarification
    (openRequest newClarificationId command plan)

def askedRequest (question : String) (request : ClarificationRequest) : ClarificationRequest :=
  { request with question := some question }

/-- The turn shows the question while it waits. -/
def askingTurn (question : String) (turn : ConversationTurn) : ConversationTurn :=
  { turn with
    assistantContent := some question
    assistantCompact := some question
    taskResultSummary := some "等待用户补充信息" }

def clarificationNotFound : Failure :=
  .applicationError 404 "ClarificationRequest 不存在" "clarification_not_found"

/-- `SetClarificationQuestionUseCase.execute`. -/
def setClarificationQuestion (planId : PlanId) (question : BoundedText) (db : Db) :
    Except Failure Db := do
  let plan ← orRaise (db.plans.get? planId) clarificationNotFound
  let request ← orRaise (db.getClarificationByPlanId planId) clarificationNotFound
  let turn ← orRaise (db.conversationTurns.get? plan.turnId) turnNotFound
  ensure (plan.status = .needsClarification)
    (.applicationError 409 "Plan 当前不等待澄清" "plan_state_conflict")
  ensure (turn.status = .needsClarification) (turnStateConflict "Conversation Turn 当前不等待澄清")
  return (db.saveClarification (askedRequest question.text request)).saveTurn
    (askingTurn question.text turn)

def answeredRequest (answerTurnId : TurnId) (request : ClarificationRequest) :
    ClarificationRequest :=
  { request with status := .answered, answerTurnId := some answerTurnId }

def answeredTurn (answer : String) (turn : ConversationTurn) : ConversationTurn :=
  { turn with clarificationInput := some answer, status := .processing }

/-- `AnswerClarificationUseCase.execute`. -/
def answerClarification (newEventId : EventId) (now : Time) (conversationId : ConversationId)
    (sourceTurnId : TurnId) (answer : String) (db : Db) : Except Failure Db := do
  let normalizedAnswer := PyString.strip answer
  ensure (normalizedAnswer ≠ "") (.clarificationError 400 "Clarification 回答不能为空")
  let request ← orRaise (db.getClarificationBySourceTurnId sourceTurnId)
    (.clarificationError 404 "Clarification 不存在")
  let sourceTurn ← orRaise (db.conversationTurns.get? sourceTurnId)
    (.clarificationError 409 "Clarification 关联状态不完整")
  let plan ← orRaise (db.plans.get? request.sourcePlanId)
    (.clarificationError 409 "Clarification 关联状态不完整")
  ensure (sourceTurn.conversationId = conversationId ∧ request.conversationId = conversationId)
    (.clarificationError 404 "Clarification 不存在")
  ensure (plan.turnId = sourceTurnId ∧ request.status = .opened ∧
      sourceTurn.status = .needsClarification ∧ plan.status = .needsClarification)
    (.clarificationError 409 "Clarification 当前状态不允许回答")
  ensure (sourceTurn.clarificationInput = none) (.clarificationError 409 "Clarification 已澄清")
  let db := db.saveClarification (answeredRequest sourceTurnId request)
  (db.saveTurn (answeredTurn normalizedAnswer sourceTurn)).addOutbox
    (replanEvent newEventId now plan conversationId "clarification_answered" none none)

/-! ## What they do -/

section Cases

variable {db db' : Db} {planId : PlanId} {reason : BoundedText}

theorem requireMarkable_eq_ok {targetStatus : PlanStatus} {plan : Plan} {u : Unit} :
    requireMarkable targetStatus plan = .ok u ↔
      (targetStatus = .retryPending ∧ plan.status = .needsClarification) ∨
        plan.status = .planning := by
  unfold requireMarkable requirePlanning
  split
  · next h => simp [h]
  · next h =>
    rw [ensure_eq_ok]
    exact ⟨.inr, fun hor => hor.resolve_left h⟩

theorem markPlanUnsupported_eq_ok :
    markPlanUnsupported planId reason db = .ok db' ↔
      PyString.isBlank reason.text = false ∧ ∃ plan, db.plans.get? planId = some plan ∧
        plan.status = .planning ∧ db' = db.savePlan (setPlanStatus .unsupported
          (some (PyString.strip reason.text)) (some "unsupported") plan) := by
  simp only [markPlanUnsupported, markPlan, bind_eq_ok, ensure_eq_ok, orRaise_eq_ok,
    requireMarkable_eq_ok, ne_eq, PyString.strip_eq_empty, Bool.not_eq_true]
  constructor
  · rintro ⟨_, hblank, plan, hplan, _, hst, h⟩
    rw [if_neg (by decide), pure_eq_ok] at h
    exact ⟨hblank, plan, hplan, hst.resolve_left (by rintro ⟨h, -⟩; cases h), h⟩
  · rintro ⟨hblank, plan, hplan, hst, rfl⟩
    refine ⟨(), hblank, plan, hplan, (), .inr hst, ?_⟩
    rw [if_neg (by decide), pure_eq_ok]
    rfl

/-- The table of requests after the one of a plan has expired. -/
def expiredRequests (now : Time) (planId : PlanId) (db : Db) :
    Table ClarificationRequest.clarificationId :=
  match db.getClarificationByPlanId planId with
  | none => db.clarifications
  | some request => db.clarifications.save (expireRequest now request)

theorem expireClarification_eq (now : Time) (planId : PlanId) (db : Db) :
    expireClarification now planId db = db.setClarifications (expiredRequests now planId db) := by
  unfold expireClarification expiredRequests
  split <;> rfl

theorem markPlanRetryPending_eq_ok {newEventId : EventId} {resolvedAt availableAt : Time} :
    markPlanRetryPending newEventId resolvedAt availableAt planId reason db = .ok db' ↔
      PyString.isBlank reason.text = false ∧ ∃ plan turn outbox,
        db.plans.get? planId = some plan ∧
        (plan.status = .needsClarification ∨ plan.status = .planning) ∧
        db.conversationTurns.get? plan.turnId = some turn ∧
        db.outbox.insert (replanEvent newEventId availableAt plan turn.conversationId
          "planner_system_failure" (some "planner_system_failure")
          (some (PyString.strip reason.text))) = some outbox ∧
        db' = (((db.savePlan (setPlanStatus .retryPending (some (PyString.strip reason.text))
            (some "planner_system_failure") plan)).setClarifications
              (expiredRequests resolvedAt planId db)).saveTurn
                (withTurnStatus .processing turn)).setOutbox outbox := by
  simp only [markPlanRetryPending, markPlan, bind_eq_ok, ensure_eq_ok, orRaise_eq_ok,
    requireMarkable_eq_ok, ne_eq, PyString.strip_eq_empty, Bool.not_eq_true, if_true, true_and,
    expireClarification_eq, Db.addOutbox_eq_ok]
  constructor
  · rintro ⟨_, hblank, plan, hplan, _, hst, turn, hturn, outbox, hout, rfl⟩
    obtain rfl := Table.key_of_get? hplan
    exact ⟨hblank, plan, turn, outbox, hplan, hst, hturn, hout, rfl⟩
  · rintro ⟨hblank, plan, turn, outbox, hplan, hst, hturn, hout, rfl⟩
    obtain rfl := Table.key_of_get? hplan
    exact ⟨(), hblank, plan, hplan, (), hst, turn, hturn, outbox, hout, rfl⟩

theorem markPlanNeedsClarification_eq_ok {newClarificationId : ClarificationId}
    {command : MarkPlanNeedsClarificationInput}
    (h : markPlanNeedsClarification newClarificationId command db = .ok db') :
    ∃ plan turn table, db.plans.get? command.planId = some plan ∧ plan.status = .planning ∧
      db.conversationTurns.get? plan.turnId = some turn ∧
      turn.conversationId = command.conversationId ∧
      (turn.status = .contextReady ∨ turn.status = .processing) ∧
      (∀ r ∈ db.clarifications, r.sourceTurnId ≠ plan.turnId) ∧
      db.clarifications.insert (openRequest newClarificationId command plan) = some table ∧
      db' = ((db.savePlan (setPlanStatus .needsClarification (some command.reason.text)
        (some "clarification_required") plan)).saveTurn
          (withTurnStatus .needsClarification turn)).setClarifications table := by
  simp only [markPlanNeedsClarification, bind_eq_ok, ensure_eq_ok, orRaise_eq_ok,
    requirePlanning] at h
  obtain ⟨plan, hplan, _, hst, turn, hturn, _, hconv, _, hturnSt, _, hnone, h⟩ := h
  obtain ⟨table, htable, rfl⟩ := Db.addClarification_eq_ok h
  exact ⟨plan, turn, table, hplan, hst, hturn, hconv, hturnSt,
    Db.getClarificationBySourceTurnId_eq_none.mp hnone, htable, rfl⟩

theorem setClarificationQuestion_eq_ok {question : BoundedText} :
    setClarificationQuestion planId question db = .ok db' ↔
      ∃ plan request turn, db.plans.get? planId = some plan ∧
        db.getClarificationByPlanId planId = some request ∧
        db.conversationTurns.get? plan.turnId = some turn ∧ plan.status = .needsClarification ∧
        turn.status = .needsClarification ∧
        db' = (db.saveClarification (askedRequest question.text request)).saveTurn
          (askingTurn question.text turn) := by
  simp only [setClarificationQuestion, bind_eq_ok, ensure_eq_ok, orRaise_eq_ok, pure_eq_ok]
  constructor
  · rintro ⟨plan, hplan, request, hrequest, turn, hturn, _, hst, _, hturnSt, rfl⟩
    exact ⟨plan, request, turn, hplan, hrequest, hturn, hst, hturnSt, rfl⟩
  · rintro ⟨plan, request, turn, hplan, hrequest, hturn, hst, hturnSt, rfl⟩
    exact ⟨plan, hplan, request, hrequest, turn, hturn, (), hst, (), hturnSt, rfl⟩

theorem answerClarification_eq_ok {newEventId : EventId} {now : Time}
    {conversationId : ConversationId} {sourceTurnId : TurnId} {answer : String}
    (h : answerClarification newEventId now conversationId sourceTurnId answer db = .ok db') :
    ∃ request turn plan outbox, db.getClarificationBySourceTurnId sourceTurnId = some request ∧
      db.conversationTurns.get? sourceTurnId = some turn ∧
      db.plans.get? request.sourcePlanId = some plan ∧ plan.turnId = sourceTurnId ∧
      request.status = .opened ∧ turn.status = .needsClarification ∧
      plan.status = .needsClarification ∧
      db.outbox.insert (replanEvent newEventId now plan conversationId "clarification_answered" none
        none) = some outbox ∧
      db' = ((db.saveClarification (answeredRequest sourceTurnId request)).saveTurn
        (answeredTurn (PyString.strip answer) turn)).setOutbox outbox := by
  simp only [answerClarification, bind_eq_ok, ensure_eq_ok, orRaise_eq_ok,
    Db.addOutbox_eq_ok] at h
  obtain ⟨_, -, request, hrequest, turn, hturn, plan, hplan, _, -, _,
    ⟨hturnId, hopen, hturnSt, hst⟩, _, -, outbox, hout, rfl⟩ := h
  exact ⟨request, turn, plan, outbox, hrequest, hturn, hplan, hturnId, hopen, hturnSt, hst, hout,
    rfl⟩

end Cases

end DocFlow.Planning
