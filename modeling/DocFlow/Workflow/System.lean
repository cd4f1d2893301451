import DocFlow.Context.EventSourcing
import DocFlow.Context.Selection
import DocFlow.Workflow.Steps

/-!
# Workflows under any interleaving

The machine of everything that writes turns, plans, tasks, clarifications and the outbox: the
transactions of a sent message, of the planner, of the user's answer, of the runtime and of
the aggregation, in any order.  `workflow_step_cases` reads a step off its view.

A plan is created for a sent message with revision 1 and no parent; every further revision comes
from a request in the outbox, which may be answered any number of times.
-/

namespace DocFlow.Workflow

open Planning TaskRuntime

/-- `aggregated` lists the plans whose aggregation has reached its last transaction. -/
structure WorkflowState where
  runtime : RuntimeState
  aggregated : List PlanId

inductive WorkflowAction
  | createTurn (turnId : TurnId) (conversationId : ConversationId)
  | persistContextSelection (turnId : TurnId) (conversationId : ConversationId)
      (relevantChainIds : List ChainId)
  | markTurnFailed (turnId : TurnId)
  | createPlan (newPlanId : PlanId) (newWorkflowId : WorkflowId) (turnId : TurnId)
  | runtime (action : RuntimeAction)
  | markPlanUnsupported (planId : PlanId) (reason : BoundedText)
  | markPlanRetryPending (newEventId : EventId) (resolvedAt availableAt : Time) (planId : PlanId)
      (reason : BoundedText)
  | markPlanNeedsClarification (newClarificationId : ClarificationId)
      (command : MarkPlanNeedsClarificationInput)
  | setClarificationQuestion (planId : PlanId) (question : BoundedText)
  | answerClarification (newEventId : EventId) (now : Time) (conversationId : ConversationId)
      (sourceTurnId : TurnId) (answer : String)
  | completeTurn (drawnChainId : ChainId) (now : Time) (turnId : TurnId)
      (command : Context.CompleteTurnCommand)
  | resolveClarification (now : Time) (planId : PlanId)

/-- A turn is completed with the answer of one of its plans. -/
def HasAnswer (db : Db) (turnId : TurnId) : Prop :=
  ∃ p ∈ db.plans.rows, p.turnId = turnId ∧ isAnswer p.status = true

instance (db : Db) (turnId : TurnId) : Decidable (HasAnswer db turnId) :=
  inferInstanceAs (Decidable (∃ p ∈ db.plans.rows, p.turnId = turnId ∧ isAnswer p.status = true))

/-- The aggregation resolves requests for a completed plan whose turn it has completed. -/
def Aggregates (db : Db) (planId : PlanId) : Prop :=
  ∃ p ∈ db.plans.rows, p.planId = planId ∧ p.status = .completed ∧
    ∃ turn ∈ db.conversationTurns.rows, turn.turnId = p.turnId ∧ turn.status = .completed

instance (db : Db) (planId : PlanId) : Decidable (Aggregates db planId) :=
  inferInstanceAs (Decidable (∃ p ∈ db.plans.rows, p.planId = planId ∧ p.status = .completed ∧
    ∃ turn ∈ db.conversationTurns.rows, turn.turnId = p.turnId ∧ turn.status = .completed))

/-- The transaction of an action outside the runtime. -/
def WorkflowAction.transaction (db : Db) : WorkflowAction → Except Failure Db
  | createTurn turnId conversationId => Context.createTurn turnId conversationId db
  | persistContextSelection turnId conversationId relevantChainIds =>
    Context.persistContextSelection turnId conversationId relevantChainIds db
  | markTurnFailed turnId => .ok (Context.markTurnFailed turnId db)
  | createPlan newPlanId newWorkflowId turnId =>
    Planning.createPlan newPlanId newWorkflowId ⟨turnId, 1, none, none⟩ db
  | runtime _ => .ok db
  | markPlanUnsupported planId reason => Planning.markPlanUnsupported planId reason db
  | markPlanRetryPending newEventId resolvedAt availableAt planId reason =>
    Planning.markPlanRetryPending newEventId resolvedAt availableAt planId reason db
  | markPlanNeedsClarification newClarificationId command =>
    Planning.markPlanNeedsClarification newClarificationId command db
  | setClarificationQuestion planId question =>
    Planning.setClarificationQuestion planId question db
  | answerClarification newEventId now conversationId sourceTurnId answer =>
    Planning.answerClarification newEventId now conversationId sourceTurnId answer db
  | completeTurn drawnChainId now turnId command =>
    Prod.snd <$> Context.completeTurn drawnChainId now turnId command db
  | resolveClarification now planId => .ok (Aggregation.resolveClarification now planId db)

/-- The callers of two transactions have read a row before. -/
def WorkflowAction.Enabled (db : Db) : WorkflowAction → Prop
  | completeTurn _ _ turnId _ => HasAnswer db turnId
  | resolveClarification _ planId => Aggregates db planId
  | _ => True

instance (db : Db) (a : WorkflowAction) : Decidable (a.Enabled db) :=
  match a with
  | .completeTurn _ _ turnId _ => inferInstanceAs (Decidable (HasAnswer db turnId))
  | .resolveClarification _ planId => inferInstanceAs (Decidable (Aggregates db planId))
  | .createTurn .. | .persistContextSelection .. | .markTurnFailed .. | .createPlan .. | .runtime ..
  | .markPlanUnsupported .. | .markPlanRetryPending .. | .markPlanNeedsClarification ..
  | .setClarificationQuestion .. | .answerClarification .. => isTrue trivial

/-- The plan whose aggregation an action finishes. -/
def WorkflowAction.aggregates : WorkflowAction → Option PlanId
  | resolveClarification _ planId => some planId
  | _ => none

/-- The plan that an action marks for a retry.  A blank reason is refused. -/
def WorkflowAction.retries : WorkflowAction → Option PlanId
  | markPlanRetryPending _ _ _ planId reason =>
    if PyString.isBlank reason.text then none else some planId
  | _ => none

/-- The state after a transaction: a failure keeps the database. -/
def WorkflowState.after (s : WorkflowState) (a : WorkflowAction) : Except Failure Db → WorkflowState
  | .ok db => ⟨{ s.runtime with db := db }, a.aggregates.toList ++ s.aggregated⟩
  | .error _ => s

def isCreatePlan : RuntimeAction → Bool
  | .createPlan .. => true
  | _ => false

def WorkflowState.Fresh (s : WorkflowState) : Prop :=
  s.runtime.Fresh ∧ s.runtime.db.conversationTurns.rows = [] ∧
    s.runtime.db.clarifications.rows = [] ∧ s.aggregated = []

/-- **Workflows under any interleaving.** -/
def workflows (config : RuntimeConfig) : Machine WorkflowState WorkflowAction where
  init := WorkflowState.Fresh
  step s
    | .runtime action =>
      if isCreatePlan action then none
      else ((runtime config).step s.runtime action).map fun r => { s with runtime := r }
    | a => if a.Enabled s.runtime.db then some (s.after a (a.transaction s.runtime.db)) else none

/-! ## What a step does to the view -/

section Steps

variable {config : RuntimeConfig} {retries : Option PlanId} {db db' : Db}

theorem find?_eq_none_of {p : Plan → Prop} [DecidablePred p] {plans : Table Plan.planId}
    (h : (plans.rows.find? fun q => p q) = none) : ∀ q ∈ plans, ¬ p q := by
  simpa [List.find?_eq_none, Table.mem_iff] using h

theorem createTurn_step {turnId : TurnId} {conversationId : ConversationId}
    (h : Context.createTurn turnId conversationId db = .ok db') :
    WorkflowStep retries (view db) (view db') := by
  simp only [Context.createTurn, bind_eq_ok, orRaise_eq_ok, pure_eq_ok] at h
  obtain ⟨turns, hturns, rfl⟩ := h
  exact .turnCreated _ turns rfl hturns rfl

theorem persistContextSelection_step {turnId : TurnId} {conversationId : ConversationId}
    {relevantChainIds : List ChainId}
    (h : Context.persistContextSelection turnId conversationId relevantChainIds db = .ok db') :
    WorkflowStep retries (view db) (view db') := by
  obtain ⟨turn, selections, hturn, hst, rfl⟩ := Context.persistContextSelection_eq_ok h
  exact .turnRouted turn .contextReady (Table.mem_of_get? hturn) hst (.inl rfl) rfl

theorem markTurnFailed_step (turnId : TurnId) :
    WorkflowStep retries (view db) (view (Context.markTurnFailed turnId db)) := by
  unfold Context.markTurnFailed
  split
  · exact .quiet rfl
  · next turn hturn =>
    split
    · next hst => exact .turnRouted turn .failed (Table.mem_of_get? hturn) hst (.inr rfl) rfl
    · exact .quiet rfl

theorem insertPlan_eq_ok {p : Plan} (h : db.createPlan p = .ok db') :
    ∃ plans, (∀ q ∈ db.plans, ¬ (q.turnId = p.turnId ∧ q.revision = p.revision)) ∧
      (∀ q ∈ db.plans, ¬ (q.workflowId = p.workflowId ∧ q.revision = p.revision)) ∧
      db.plans.insert p = some plans ∧ db' = db.setPlans plans := by
  rw [Db.createPlan] at h
  split at h
  · cases h
  · next hfree =>
    simp only [bind_eq_ok, orRaise_eq_ok, pure_eq_ok] at h
    obtain ⟨plans, hplans, rfl⟩ := h
    simp only [not_or, Bool.not_eq_true, Option.isSome_eq_false_iff, Option.isNone_iff_eq_none] at hfree
    exact ⟨plans, find?_eq_none_of hfree.1, find?_eq_none_of hfree.2, hplans, rfl⟩

theorem createPlan_step {newPlanId : PlanId} {newWorkflowId : WorkflowId} {turnId : TurnId}
    (h : Planning.createPlan newPlanId newWorkflowId ⟨turnId, 1, none, none⟩ db = .ok db') :
    WorkflowStep retries (view db) (view db') := by
  simp only [Planning.createPlan, bind_eq_ok, orRaise_eq_ok, ensure_eq_ok] at h
  obtain ⟨turn, hturn, _, -, h⟩ := h
  obtain ⟨hturnm, rfl⟩ := Table.get?_eq_some.mp hturn
  obtain ⟨plans, hfree, hfree', hplans, rfl⟩ := insertPlan_eq_ok h
  exact .planCreated newPlanId newWorkflowId turn plans hturnm hfree hfree' hplans rfl

theorem createDocumentTask_step {code : PlanningCapabilityCode} {newTaskId : TaskId}
    {command : CreateDocumentTaskInput}
    (h : createDocumentTask code newTaskId command db = .ok db') :
    WorkflowStep retries (view db) (view db') := by
  simp only [createDocumentTask, bind_eq_ok, orRaise_eq_ok, requirePlanning, ensure_eq_ok] at h
  obtain ⟨p, hp, -, hst, -, -, -, -, -, -, -, -, -, -, h⟩ := h
  rw [asSequenceConflict_eq_ok, Db.createTask] at h
  split at h
  · cases h
  · simp only [bind_eq_ok, orRaise_eq_ok, pure_eq_ok] at h
    obtain ⟨tasks, htasks, rfl⟩ := h
    exact .taskCreated p _ tasks (Table.mem_of_get? hp) hst rfl rfl htasks rfl

theorem isOpen_of {status : ContextTurnStatus} (h : status = .contextReady ∨ status = .processing) :
    isOpen status = true := by
  rcases h with rfl | rfl <;> rfl

theorem finalizePlan_step {newDependencyId : Nat → DependencyId} {newEventId : EventId}
    {now : Time} {command : FinalizePlanInput}
    (h : finalizePlan newDependencyId newEventId now command db = .ok db') :
    WorkflowStep retries (view db) (view db') := by
  simp only [finalizePlan, bind_eq_ok, orRaise_eq_ok, requirePlanning, ensure_eq_ok] at h
  obtain ⟨p, hp, -, hst, -, -, -, -, -, -, -, -, pairs, -, turn, hturn, -, hturnSt, mid, hdeps, h⟩ := h
  obtain ⟨table, rfl, -⟩ := Db.addDependencies_eq_ok hdeps
  obtain ⟨outbox, rfl, hreplans⟩ := outbox_append h
  obtain ⟨hturnm, hturnId⟩ := Table.get?_eq_some.mp hturn
  refine .published p turn _ (Table.mem_of_get? hp) hst hturnm hturnId (isOpen_of hturnSt) rfl ?_
  rw [replanOf_wakeup (firstWakeup newEventId now p) (by simp [firstWakeup])] at hreplans
  simp only [view, Db.setOutbox, hreplans, Option.toList_none, List.append_nil]
  rfl

theorem prepareRevision_step {newPlanId : PlanId} {now : Time} {seen : Bool}
    {event : ReplanRequested} (hev : event ∈ requestsIn db.outbox)
    (h : prepareRevision newPlanId now seen event db = .ok db') :
    WorkflowStep retries (view db) (view db') := by
  rw [prepareRevision] at h
  split at h
  · rw [pure_eq_ok.mp h]
    exact .quiet rfl
  · simp only [bind_eq_ok, orRaise_eq_ok, ensure_eq_ok] at h
    obtain ⟨p, hp, turn, hturn, -, -, h⟩ := h
    obtain ⟨hpm, hkey⟩ := Table.get?_eq_some.mp hp
    obtain ⟨hturnm, hturnId⟩ := Table.get?_eq_some.mp hturn
    split at h
    · next hmax =>
      rw [view_of_inboxOnly (db_recordInboxOnce_inboxOnly h)]
      exact .exhausted p event turn now hpm hev hkey.symm hmax hturnm hturnId rfl
    · next hmax =>
      split at h
      · rw [view_of_inboxOnly (db_recordInboxOnce_inboxOnly h)]
        exact .quiet rfl
      · next hnone =>
        simp only [bind_eq_ok] at h
        obtain ⟨mid, hmid, h⟩ := h
        rw [view_of_inboxOnly (db_recordInboxOnce_inboxOnly h)]
        obtain ⟨plans, hfree, -, hplans, rfl⟩ := insertPlan_eq_ok hmid
        refine .revised p event newPlanId now plans hpm hev hkey.symm (Nat.le_of_not_lt hmax)
          (fun q hq hqk => ?_) (find?_eq_none_of hnone) hplans rfl
        -- the previous plan is saved first, and keeps its turn and its revision
        by_cases hqp : q = p
        · subst hqp
          refine hfree (supersedePlan now q) ?_ hqk
          exact (Table.mem_save_of_mem (r := supersedePlan now q) hpm rfl).mpr (.inl rfl)
        · refine hfree q ?_ hqk
          exact (Table.mem_save_of_mem (r := supersedePlan now p) hpm rfl).mpr (.inr ⟨hq, hqp⟩)

theorem markPlanUnsupported_step {planId : PlanId} {reason : BoundedText}
    (h : markPlanUnsupported planId reason db = .ok db') : WorkflowStep retries (view db) (view db') := by
  obtain ⟨-, p, hp, hst, rfl⟩ := markPlanUnsupported_eq_ok.mp h
  exact .unsupported p _ (Table.mem_of_get? hp) hst rfl

theorem expiredRequests_expires (now : Time) (planId : PlanId) :
    Expires planId db.clarifications (expiredRequests now planId db) := by
  unfold expiredRequests
  split
  · next hnone => exact .none (Db.getClarificationByPlanId_eq_none.mp hnone) rfl
  · next r hsome =>
    obtain ⟨hr, hid⟩ := Db.getClarificationByPlanId_eq_some hsome
    exact .some r now hr hid rfl

theorem replanEvent_asks {newEventId : EventId} {availableAt : Time} {p : Plan}
    {conversationId : ConversationId} {triggerType : String}
    {errorCode errorMessage : Option String} :
    ∃ ev, replanOf (replanEvent newEventId availableAt p conversationId triggerType errorCode
      errorMessage) = some ev ∧ Asks p ev.payload :=
  ⟨_, rfl, ⟨rfl, rfl, rfl, rfl⟩⟩

theorem markPlanRetryPending_step {newEventId : EventId} {resolvedAt availableAt : Time}
    {planId : PlanId} {reason : BoundedText}
    (h : markPlanRetryPending newEventId resolvedAt availableAt planId reason db = .ok db') :
    WorkflowStep (WorkflowAction.markPlanRetryPending newEventId resolvedAt availableAt planId
      reason).retries (view db) (view db') := by
  obtain ⟨hblank, p, turn, outbox, hp, hst, hturn, hout, rfl⟩ := markPlanRetryPending_eq_ok.mp h
  obtain ⟨hpm, rfl⟩ := Table.get?_eq_some.mp hp
  obtain ⟨hturnm, hturnId⟩ := Table.get?_eq_some.mp hturn
  obtain ⟨ev, hev, hasks⟩ := replanEvent_asks (p := p)
  have hreplans := requestsIn_insert hout
  rw [hev] at hreplans
  refine .retried p turn (PyString.strip reason.text) _ ev ?_ hpm hst hturnm hturnId
    (expiredRequests_expires resolvedAt p.planId) hasks ?_
  · simp only [WorkflowAction.retries, hblank]
    rfl
  · simp only [view, Db.setOutbox, hreplans]
    rfl

theorem markPlanNeedsClarification_step {newClarificationId : ClarificationId}
    {command : MarkPlanNeedsClarificationInput}
    (h : markPlanNeedsClarification newClarificationId command db = .ok db') :
    WorkflowStep retries (view db) (view db') := by
  obtain ⟨p, turn, table, hp, hst, hturn, -, hturnSt, hnone, htable, rfl⟩ :=
    markPlanNeedsClarification_eq_ok h
  obtain ⟨hturnm, hturnId⟩ := Table.get?_eq_some.mp hturn
  exact .asked p turn newClarificationId command table (Table.mem_of_get? hp) hst hturnm hturnId
    (isOpen_of hturnSt) hnone htable rfl

theorem setClarificationQuestion_step {planId : PlanId} {question : BoundedText}
    (h : setClarificationQuestion planId question db = .ok db') :
    WorkflowStep retries (view db) (view db') := by
  obtain ⟨p, r, turn, hp, hr, hturn, hst, hturnSt, rfl⟩ := setClarificationQuestion_eq_ok.mp h
  obtain ⟨hpm, rfl⟩ := Table.get?_eq_some.mp hp
  obtain ⟨hrm, hrp⟩ := Db.getClarificationByPlanId_eq_some hr
  obtain ⟨hturnm, hturnId⟩ := Table.get?_eq_some.mp hturn
  exact .questioned p r turn question.text hpm hst hrm hrp hturnm hturnId hturnSt rfl

theorem answerClarification_step {newEventId : EventId} {now : Time}
    {conversationId : ConversationId} {sourceTurnId : TurnId} {answer : String}
    (h : answerClarification newEventId now conversationId sourceTurnId answer db = .ok db') :
    WorkflowStep retries (view db) (view db') := by
  obtain ⟨r, turn, p, outbox, hr, hturn, hp, rfl, hopen, hturnSt, hst, hout, rfl⟩ :=
    answerClarification_eq_ok h
  obtain ⟨hpm, hpid⟩ := Table.get?_eq_some.mp hp
  obtain ⟨hrm, hrt⟩ := Db.getClarificationBySourceTurnId_eq_some hr
  obtain ⟨hturnm, hturnId⟩ := Table.get?_eq_some.mp hturn
  obtain ⟨ev, hev, hasks⟩ := replanEvent_asks (p := p)
  have hreplans := requestsIn_insert hout
  rw [hev] at hreplans
  refine .answered p r turn (PyString.strip answer) ev hpm hst hrm hpid.symm hrt hopen hturnm
    hturnId hturnSt hasks ?_
  simp only [view, Db.setOutbox, hreplans]
  rfl

theorem completeTurn_step {drawnChainId : ChainId} {now : Time} {turnId : TurnId}
    {command : Context.CompleteTurnCommand} {result : Context.CompleteTurnTransactionResult}
    (hanswer : HasAnswer db turnId)
    (h : Context.completeTurn drawnChainId now turnId command db = .ok (result, db')) :
    WorkflowStep retries (view db) (view db') := by
  cases Context.completeTurn_cases h with
  | before _ _ _ _ _ hdb =>
    rw [hdb]
    exact .quiet rfl
  | now turn _ _ _ _ _ hturn hopen _ _ _ _ _ hdb =>
    rw [hdb]
    obtain ⟨p, hp, hpt, hpst⟩ := hanswer
    obtain ⟨hturnm, hturnId⟩ := Table.get?_eq_some.mp hturn
    exact .turnCompleted p turn (Context.completedTurn now command turn) hp hpst hturnm
      (hturnId.trans hpt.symm) (isOpen_of hopen) rfl rfl rfl

theorem resolveClarification_step {now : Time} {planId : PlanId} (h : Aggregates db planId) :
    WorkflowStep retries (view db) (view (Aggregation.resolveClarification now planId db)) := by
  obtain ⟨p, hp, rfl, hst, -⟩ := h
  have hget : db.plans.get? p.planId = some p := Table.get?_of_mem hp
  unfold Aggregation.resolveClarification
  rw [hget]
  cases hparent : p.parentPlanId with
  | none =>
    simp only [Option.bind_some, hparent]
    exact .quiet rfl
  | some parentPlanId =>
    simp only [Option.bind_some, hparent]
    split
    · exact .quiet rfl
    · next r hr =>
      obtain ⟨hrm, hrp⟩ := Db.getClarificationByPlanId_eq_some hr
      split
      · next hanswered => exact .resolved p r now hp hst (hparent.trans (by rw [hrp])) hrm hanswered rfl
      · exact .quiet rfl

/-- The tables behind the view, as the transactions outside the runtime leave them. -/
theorem consistent_of_marked (h : Consistent config.registry db)
    (hplans : Table.Corr Consistent.PlanKept db.plans db'.plans) (htasks : db'.tasks = db.tasks)
    (hexecutions : db'.taskExecutions = db.taskExecutions)
    (hout : ∀ ev ∈ db'.outbox, ev ∈ db.outbox ∨ ∃ p ∈ db'.plans, isClosed p.status = true ∧
      ∀ r, ev.payload = .replan r → r.previousPlanId = p.planId) :
    Consistent config.registry db' := by
  have base : Consistent config.registry (db'.setOutbox db.outbox) :=
    h.rewrite hplans (.of_eq .refl htasks) (.of_eq .refl hexecutions) fun _ hev _ => hev
  refine ⟨base.planOfTask, base.current, base.running, base.taskOfExecution, base.attempts,
    base.unique, base.active, base.bounded, base.started, ?_⟩
  intro ev hev htype r hr
  rcases hout ev hev with hold | ⟨p, hp, hclosed, hprev⟩
  · exact base.replanned ev hold htype r hr
  · exact ⟨p, hp, (hprev r hr).symm, hclosed⟩

theorem planKept_of_status {p p' : Plan} (hid : p'.planId = p.planId)
    (hcur : p'.currentTaskId = p.currentTaskId) (hrun : p.status ≠ .running)
    (hclosed : isClosed p.status = true → isClosed p'.status = true) :
    Consistent.PlanKept p p' := ⟨hid, hcur, fun h => absurd h hrun, hclosed⟩

theorem consistent_of_same (h : Consistent config.registry db) (hplans : db'.plans = db.plans)
    (htasks : db'.tasks = db.tasks) (hexecutions : db'.taskExecutions = db.taskExecutions)
    (hout : db'.outbox = db.outbox) : Consistent config.registry db' :=
  consistent_of_marked h (.of_eq .refl hplans) htasks hexecutions fun _ hev => .inl (hout ▸ hev)

/-- **The transactions outside the runtime keep its invariant**, run no task and record no
event. -/
theorem transaction_consistent (h : Consistent config.registry db) {a : WorkflowAction}
    (htx : a.transaction db = .ok db') :
    Consistent config.registry db' ∧ db'.taskExecutions = db.taskExecutions ∧
      db'.inbox = db.inbox := by
  cases a with
  | createTurn turnId conversationId =>
    simp only [WorkflowAction.transaction, Context.createTurn, bind_eq_ok, orRaise_eq_ok,
      pure_eq_ok] at htx
    obtain ⟨turns, -, rfl⟩ := htx
    exact ⟨consistent_of_same h rfl rfl rfl rfl, rfl, rfl⟩
  | persistContextSelection turnId conversationId relevantChainIds =>
    obtain ⟨turn, selections, -, -, rfl⟩ := Context.persistContextSelection_eq_ok htx
    exact ⟨consistent_of_same h rfl rfl rfl rfl, rfl, rfl⟩
  | markTurnFailed turnId =>
    obtain rfl := Except.ok.inj htx
    unfold Context.markTurnFailed
    split
    · exact ⟨h, rfl, rfl⟩
    · split
      · exact ⟨consistent_of_same h rfl rfl rfl rfl, rfl, rfl⟩
      · exact ⟨h, rfl, rfl⟩
  | createPlan newPlanId newWorkflowId turnId =>
    simp only [WorkflowAction.transaction, Planning.createPlan, bind_eq_ok] at htx
    obtain ⟨_, -, _, -, htx⟩ := htx
    obtain ⟨plans, -, -, hplans, rfl⟩ := insertPlan_eq_ok htx
    exact ⟨h.planCreated rfl hplans rfl rfl rfl, rfl, rfl⟩
  | runtime action =>
    obtain rfl := Except.ok.inj htx
    exact ⟨h, rfl, rfl⟩
  | markPlanUnsupported planId reason =>
    obtain ⟨-, p, hp, hst, rfl⟩ := markPlanUnsupported_eq_ok.mp htx
    refine ⟨consistent_of_marked h (.save .refl (Table.mem_of_get? hp) rfl ?_) rfl rfl
      fun _ hev => .inl hev, rfl, rfl⟩
    exact planKept_of_status rfl rfl (by simp [hst]) (by simp [hst, isClosed])
  | markPlanRetryPending newEventId resolvedAt availableAt planId reason =>
    obtain ⟨-, p, turn, outbox, hp, hst, -, hout, rfl⟩ := markPlanRetryPending_eq_ok.mp htx
    refine ⟨consistent_of_marked h (.save .refl (Table.mem_of_get? hp) rfl ?_) rfl rfl ?_, rfl, rfl⟩
    · refine planKept_of_status rfl rfl ?_ fun _ => rfl
      rcases hst with hst | hst <;> simp [hst]
    · intro ev hev
      rcases (Table.mem_insert hout).mp hev with hev | rfl
      · exact .inl hev
      · refine .inr ⟨setPlanStatus .retryPending (some (PyString.strip reason.text))
          (some "planner_system_failure") p, ?_, rfl, ?_⟩
        · exact (Table.mem_save_of_mem
            (r := setPlanStatus .retryPending (some (PyString.strip reason.text))
              (some "planner_system_failure") p) (Table.mem_of_get? hp) rfl).mpr (.inl rfl)
        · intro r hr
          obtain rfl := EventPayload.replan.inj hr
          rfl
  | markPlanNeedsClarification newClarificationId command =>
    obtain ⟨p, turn, table, hp, hst, -, -, -, -, -, rfl⟩ := markPlanNeedsClarification_eq_ok htx
    refine ⟨consistent_of_marked h (.save .refl (Table.mem_of_get? hp) rfl ?_) rfl rfl
      fun _ hev => .inl hev, rfl, rfl⟩
    exact planKept_of_status rfl rfl (by simp [hst]) fun _ => rfl
  | setClarificationQuestion planId question =>
    obtain ⟨p, r, turn, -, -, -, -, -, rfl⟩ := setClarificationQuestion_eq_ok.mp htx
    exact ⟨consistent_of_same h rfl rfl rfl rfl, rfl, rfl⟩
  | answerClarification newEventId now conversationId sourceTurnId answer =>
    obtain ⟨r, turn, p, outbox, -, -, hp, -, -, -, hst, hout, rfl⟩ := answerClarification_eq_ok htx
    refine ⟨consistent_of_marked h (.of_eq .refl rfl) rfl rfl ?_, rfl, rfl⟩
    intro ev hev
    rcases (Table.mem_insert hout).mp hev with hev | rfl
    · exact .inl hev
    · refine .inr ⟨p, Table.mem_of_get? hp, by rw [hst]; rfl, ?_⟩
      intro r' hr'
      obtain rfl := EventPayload.replan.inj hr'
      rfl
  | completeTurn drawnChainId now turnId command =>
    obtain ⟨⟨_, _⟩, hcomplete, rfl⟩ := map_eq_ok.mp htx
    cases Context.completeTurn_cases hcomplete with
    | before _ _ _ _ _ hdb =>
      rw [hdb]
      exact ⟨h, rfl, rfl⟩
    | now _ _ _ _ _ _ _ _ _ _ _ _ _ hdb =>
      rw [hdb]
      exact ⟨consistent_of_same h rfl rfl rfl rfl, rfl, rfl⟩
  | resolveClarification now planId =>
    obtain rfl := Except.ok.inj htx
    obtain ⟨requests, hresolve⟩ := Aggregation.resolveClarification_eq now planId db
    rw [hresolve]
    exact ⟨consistent_of_same h rfl rfl rfl rfl, rfl, rfl⟩

/-- A transaction of the runtime that is not the creation of a plan. -/
theorem runtimeAction_step (hc : Consistent config.registry db) {a : RuntimeAction}
    (ha : isCreatePlan a = false) {x : Option Snapshot} (h : a.transaction config db = .ok (x, db')) :
    WorkflowStep retries (view db) (view db') := by
  cases a with
  | createPlan => cases ha
  | createTask code newTaskId command =>
    obtain ⟨_, hx, he⟩ := map_eq_ok.mp h
    obtain ⟨-, rfl⟩ := Prod.mk.inj he
    exact createDocumentTask_step hx
  | finalizePlan newDependencyId newEventId clock command =>
    obtain ⟨_, hx, he⟩ := map_eq_ok.mp h
    obtain ⟨-, rfl⟩ := Prod.mk.inj he
    exact finalizePlan_step hx
  | prepareRevision newPlanId clock seen eventId =>
    simp only [RuntimeAction.transaction] at h
    split at h
    · next event hreq =>
      obtain ⟨_, hx, he⟩ := map_eq_ok.mp h
      obtain ⟨-, rfl⟩ := Prod.mk.inj he
      exact prepareRevision_step (mem_replans_of_request hreq) hx
    · obtain ⟨-, rfl⟩ := Prod.mk.inj (Except.ok.inj h)
      exact .quiet rfl
  | claim | complete | fail | requireCompensation | beginCompensation | handleCompensationFailure
  | completeCompensation => exact .worked (runtime_worked hc rfl h)

/-- A transaction outside the runtime. -/
theorem transaction_step {a : WorkflowAction} (hen : a.Enabled db) (h : a.transaction db = .ok db') :
    WorkflowStep a.retries (view db) (view db') := by
  cases a with
  | createTurn => exact createTurn_step h
  | persistContextSelection => exact persistContextSelection_step h
  | markTurnFailed turnId =>
    obtain rfl := Except.ok.inj h
    exact markTurnFailed_step turnId
  | createPlan => exact createPlan_step h
  | runtime =>
    obtain rfl := Except.ok.inj h
    exact .quiet rfl
  | markPlanUnsupported => exact markPlanUnsupported_step h
  | markPlanRetryPending => exact markPlanRetryPending_step h
  | markPlanNeedsClarification => exact markPlanNeedsClarification_step h
  | setClarificationQuestion => exact setClarificationQuestion_step h
  | answerClarification => exact answerClarification_step h
  | completeTurn =>
    obtain ⟨⟨_, _⟩, hcomplete, rfl⟩ := map_eq_ok.mp h
    exact completeTurn_step hen hcomplete
  | resolveClarification =>
    obtain rfl := Except.ok.inj h
    exact resolveClarification_step hen

end Steps

/-! ## Every run -/

section Runs

variable {config : RuntimeConfig} {s s' : WorkflowState} {a : WorkflowAction}

/-- A step is one of the runtime, or commits a transaction outside it, or fails. -/
theorem workflow_step (h : (workflows config).step s a = some s') :
    (∃ action r, a = .runtime action ∧ isCreatePlan action = false ∧
      (runtime config).step s.runtime action = some r ∧ s' = { s with runtime := r }) ∨
    (∃ db, a.Enabled s.runtime.db ∧ a.transaction s.runtime.db = .ok db ∧
      s' = ⟨{ s.runtime with db := db }, a.aggregates.toList ++ s.aggregated⟩) ∨ s' = s := by
  cases a with
  | runtime action =>
    simp only [workflows] at h
    split at h
    · cases h
    · next hc =>
      obtain ⟨r, hr, rfl⟩ := Option.map_eq_some_iff.mp h
      exact .inl ⟨action, r, rfl, eq_false_of_ne_true hc, hr, rfl⟩
  | createTurn | persistContextSelection | markTurnFailed | createPlan | markPlanUnsupported
  | markPlanRetryPending | markPlanNeedsClarification | setClarificationQuestion
  | answerClarification | completeTurn | resolveClarification =>
    simp only [workflows] at h
    split at h
    · next hen =>
      obtain rfl := Option.some.inj h
      refine .inr ?_
      cases hx : WorkflowAction.transaction s.runtime.db _ with
      | ok db => exact .inl ⟨db, hen, rfl, rfl⟩
      | error f => exact .inr rfl
    · cases h

theorem Owned.workflowStep (hs : Owned config.registry s.runtime)
    (h : (workflows config).step s a = some s') : Owned config.registry s'.runtime := by
  rcases workflow_step h with ⟨action, r, -, -, hr, rfl⟩ | ⟨db, -, htx, rfl⟩ | rfl
  · exact hs.step hr
  · obtain ⟨hcons, hexec, -⟩ := transaction_consistent hs.consistent htx
    refine ⟨hcons, fun x hx => ?_⟩
    obtain ⟨e, he, hcoh⟩ := hs.coherent x hx
    exact ⟨e, by rw [hexec]; exact he, hcoh⟩
  · exact hs

/-- **The view takes a workflow step.** -/
theorem workflow_step_cases (hs : Owned config.registry s.runtime)
    (h : (workflows config).step s a = some s') :
    WorkflowStep a.retries (view s.runtime.db) (view s'.runtime.db) := by
  rcases workflow_step h with ⟨action, r, -, hcreate, hr, rfl⟩ | ⟨db, hen, htx, rfl⟩ | rfl
  · rcases runtime_step_cases hr with ⟨x, db, htx, rfl, -⟩ | ⟨f, -, hdb, -⟩
    · exact runtimeAction_step hs.consistent hcreate htx
    · refine .quiet ?_
      rw [hdb]
  · exact transaction_step hen htx
  · exact .quiet rfl

theorem workflow_owned {ok : WorkflowState → WorkflowAction → Prop}
    (h : (workflows config).ReachableVia ok s) : Owned config.registry s.runtime := by
  refine h.invariant (P := fun s => Owned config.registry s.runtime) ?_ ?_
  · exact fun s hi => RuntimeState.Fresh.owned hi.1
  · exact fun _ _ _ _ ho _ hs => Owned.workflowStep ho hs

/-- Nothing has happened yet. -/
def View.Blank (v : View) : Prop :=
  v.turns.rows = [] ∧ v.plans.rows = [] ∧ v.tasks.rows = [] ∧ v.clarifications.rows = [] ∧
    v.replans = []

theorem WorkflowState.Fresh.blank (h : s.Fresh) : (view s.runtime.db).Blank := by
  obtain ⟨⟨hplans, htasks, -, -, hout, -⟩, hturns, hclarifications, -⟩ := h
  refine ⟨hturns, hplans, htasks, hclarifications, ?_⟩
  show requestsIn s.runtime.db.outbox = []
  rw [requestsIn, hout]
  rfl

/-- **An invariant of the view** holds in every state reached. -/
theorem view_invariant {ok : WorkflowState → WorkflowAction → Prop} {P : View → Prop}
    (blank : ∀ v, v.Blank → P v)
    (step : ∀ s a v', ok s a → P (view s.runtime.db) →
      WorkflowStep a.retries (view s.runtime.db) v' → P v')
    (h : (workflows config).ReachableVia ok s) : P (view s.runtime.db) :=
  h.invariant (P := fun s => P (view s.runtime.db))
    (fun _ hi => blank _ (WorkflowState.Fresh.blank hi)) fun _ _ _ hr hP hok hs =>
      step _ _ _ hok hP (workflow_step_cases (workflow_owned hr) hs)

end Runs

/-! ## A concrete workflow -/

/-- Nothing has been sent. -/
def nothingSent : WorkflowState where
  runtime :=
    { db :=
        { conversationTurns := .empty
          plans := .empty
          tasks := .empty
          taskDependencies := .empty
          taskExecutions := .empty
          outbox := .empty
          inbox := .empty
          clarifications := .empty
          context := .empty }
      handedOut := []
      clock := 0 }
  aggregated := []

theorem nothingSent_fresh : nothingSent.Fresh := ⟨⟨rfl, rfl, rfl, rfl, rfl, rfl, rfl⟩, rfl, rfl, rfl⟩

/-- A message is routed, and a planner run starts. -/
def sendFirstMessage : List WorkflowAction :=
  [.createTurn 1 1, .persistContextSelection 1 1 [], .createPlan 1 1 1]

/-- Why a planner run gives up. -/
def modelTimeout : BoundedText := ⟨"model timeout", by decide⟩

/-- The state after a list of transactions. -/
def WorkflowState.afterAll (s : WorkflowState) (as : List WorkflowAction) : WorkflowState :=
  ((workflows defaultConfig).run s as).getD s

theorem reachable_of_workflowRun (as : List WorkflowAction) {s' : WorkflowState}
    (h : (workflows defaultConfig).run nothingSent as = some s') :
    (workflows defaultConfig).Reachable s' :=
  Machine.Reachable.run (.init nothingSent_fresh) h

end DocFlow.Workflow
