import DocFlow.Aggregation.AggregatePlan
import DocFlow.Workflow.View

/-!
# What happens to a workflow

`WorkflowStep` lists what one transaction of the planner, the user, the runtime or the aggregation
does to the view.  Every invariant of a workflow is proved by cases on it; that there
is nothing else is `workflow_step_cases`.
-/

namespace DocFlow.Workflow

open Planning TaskRuntime

/-- The tasks of a plan in the order of `list_by_plan_id`. -/
def View.tasksOf (v : View) (planId : PlanId) : List Task :=
  (v.tasks.rows.filter fun t => t.planId = planId).insertionSort Db.TaskOrder

def View.draftsOf (v : View) (planId : PlanId) : List Task :=
  (v.tasks.rows.filter fun t => t.planId = planId ∧ t.status = .draft).insertionSort Db.TaskOrder

/-- The requests after the one of a plan, if any, has expired. -/
inductive Expires (planId : PlanId) (requests requests' : Table ClarificationRequest.clarificationId) :
    Prop
  | none : (∀ r ∈ requests, r.sourcePlanId ≠ planId) → requests' = requests →
      Expires planId requests requests'
  | some (r : ClarificationRequest) (now : Time) : r ∈ requests → r.sourcePlanId = planId →
      requests' = requests.save (expireRequest now r) → Expires planId requests requests'

/-- A turn that can still go on. -/
def isOpen : ContextTurnStatus → Bool
  | .contextReady | .processing => true
  | _ => false

/-- A plan that has an answer for its turn. -/
def isAnswer : PlanStatus → Bool
  | .unsupported | .completed => true
  | _ => false

/-- `retries` is the plan that a step marks for a retry, if it marks one. -/
inductive WorkflowStep (retries : Option PlanId) (v v' : View) : Prop
  | quiet : v' = v → WorkflowStep retries v v'
  | turnCreated (turn : ConversationTurn) (turns : Table ConversationTurn.turnId) :
      turn.status = .routing → v.turns.insert turn = some turns → v' = { v with turns := turns } →
      WorkflowStep retries v v'
  | turnRouted (turn : ConversationTurn) (status : ContextTurnStatus) : turn ∈ v.turns →
      turn.status = .routing → status = .contextReady ∨ status = .failed →
      v' = { v with turns := v.turns.save (withTurnStatus status turn) } → WorkflowStep retries v v'
  | planCreated (newPlanId : PlanId) (newWorkflowId : WorkflowId) (turn : ConversationTurn)
      (plans : Table Plan.planId) : turn ∈ v.turns →
      (∀ q ∈ v.plans, ¬ (q.turnId = turn.turnId ∧ q.revision = 1)) →
      (∀ q ∈ v.plans, ¬ (q.workflowId = newWorkflowId ∧ q.revision = 1)) →
      v.plans.insert (Db.draftPlan newPlanId newWorkflowId turn.turnId none 1) = some plans →
      v' = { v with plans := plans } → WorkflowStep retries v v'
  | taskCreated (p : Plan) (t : Task) (tasks : Table Task.taskId) : p ∈ v.plans →
      p.status = .planning → t.planId = p.planId → t.status = .draft →
      v.tasks.insert t = some tasks → v' = { v with tasks := tasks } → WorkflowStep retries v v'
  | published (p : Plan) (turn : ConversationTurn) (taskIds : List TaskId) : p ∈ v.plans →
      p.status = .planning → turn ∈ v.turns → turn.turnId = p.turnId → isOpen turn.status = true →
      taskIds = (v.draftsOf p.planId).map Task.taskId →
      v' = { v with
        plans := v.plans.save (publishPlan p)
        tasks := v.tasks.mapRows (publishTask taskIds) (publishTask_taskId taskIds)
        turns := v.turns.save { turn with taskIds := taskIds, status := .processing } } →
      WorkflowStep retries v v'
  | worked : Worked v v' → WorkflowStep retries v v'
  | revised (p : Plan) (ev : ReplanRequested) (newPlanId : PlanId) (now : Time)
      (plans : Table Plan.planId) : p ∈ v.plans → ev ∈ v.replans →
      ev.payload.previousPlanId = p.planId → ev.payload.nextRevision ≤ maxPlanRevisions →
      (∀ q ∈ v.plans, ¬ (q.turnId = ev.payload.rootTurnId ∧
        q.revision = ev.payload.nextRevision)) →
      (∀ q ∈ v.plans, ¬ (q.workflowId = ev.payload.workflowId ∧
        q.revision = ev.payload.nextRevision)) →
      (v.plans.save (supersedePlan now p)).insert (Db.draftPlan newPlanId ev.payload.workflowId
        ev.payload.rootTurnId (some ev.payload.previousPlanId) ev.payload.nextRevision) =
          some plans →
      v' = { v with
        plans := plans
        tasks := v.tasks.mapRows (Db.unfinishedWithStatus p.planId .superseded)
          (Db.unfinishedWithStatus_taskId p.planId .superseded) } → WorkflowStep retries v v'
  | exhausted (p : Plan) (ev : ReplanRequested) (turn : ConversationTurn) (now : Time) :
      p ∈ v.plans → ev ∈ v.replans → ev.payload.previousPlanId = p.planId →
      maxPlanRevisions < ev.payload.nextRevision → turn ∈ v.turns →
      turn.turnId = ev.payload.rootTurnId →
      v' = { v with
        plans := v.plans.save (exhaustPlan now p)
        tasks := v.tasks.mapRows (Db.unfinishedWithStatus p.planId .failed)
          (Db.unfinishedWithStatus_taskId p.planId .failed)
        turns := v.turns.save (withTurnStatus .failed turn) } → WorkflowStep retries v v'
  | unsupported (p : Plan) (reason : String) : p ∈ v.plans → p.status = .planning →
      v' = { v with
        plans := v.plans.save
          (setPlanStatus .unsupported (some reason) (some "unsupported") p) } → WorkflowStep retries v v'
  | retried (p : Plan) (turn : ConversationTurn) (reason : String)
      (requests : Table ClarificationRequest.clarificationId) (ev : ReplanRequested) :
      retries = some p.planId → p ∈ v.plans →
      p.status = .needsClarification ∨ p.status = .planning → turn ∈ v.turns →
      turn.turnId = p.turnId → Expires p.planId v.clarifications requests → Asks p ev.payload →
      v' = { v with
        plans := v.plans.save
          (setPlanStatus .retryPending (some reason) (some "planner_system_failure") p)
        clarifications := requests
        turns := v.turns.save (withTurnStatus .processing turn)
        replans := v.replans ++ [ev] } → WorkflowStep retries v v'
  | asked (p : Plan) (turn : ConversationTurn) (newClarificationId : ClarificationId)
      (command : MarkPlanNeedsClarificationInput)
      (requests : Table ClarificationRequest.clarificationId) : p ∈ v.plans →
      p.status = .planning → turn ∈ v.turns → turn.turnId = p.turnId → isOpen turn.status = true →
      (∀ r ∈ v.clarifications, r.sourceTurnId ≠ p.turnId) →
      v.clarifications.insert (openRequest newClarificationId command p) = some requests →
      v' = { v with
        plans := v.plans.save (setPlanStatus .needsClarification (some command.reason.text)
          (some "clarification_required") p)
        clarifications := requests
        turns := v.turns.save (withTurnStatus .needsClarification turn) } → WorkflowStep retries v v'
  | questioned (p : Plan) (r : ClarificationRequest) (turn : ConversationTurn) (question : String) :
      p ∈ v.plans → p.status = .needsClarification → r ∈ v.clarifications →
      r.sourcePlanId = p.planId → turn ∈ v.turns → turn.turnId = p.turnId →
      turn.status = .needsClarification →
      v' = { v with
        clarifications := v.clarifications.save (askedRequest question r)
        turns := v.turns.save (askingTurn question turn) } → WorkflowStep retries v v'
  | answered (p : Plan) (r : ClarificationRequest) (turn : ConversationTurn) (answer : String)
      (ev : ReplanRequested) : p ∈ v.plans → p.status = .needsClarification →
      r ∈ v.clarifications → r.sourcePlanId = p.planId → r.sourceTurnId = p.turnId →
      r.status = .opened → turn ∈ v.turns → turn.turnId = p.turnId →
      turn.status = .needsClarification → Asks p ev.payload →
      v' = { v with
        clarifications := v.clarifications.save (answeredRequest p.turnId r)
        turns := v.turns.save (answeredTurn answer turn)
        replans := v.replans ++ [ev] } → WorkflowStep retries v v'
  | turnCompleted (p : Plan) (turn turn' : ConversationTurn) : p ∈ v.plans →
      isAnswer p.status = true → turn ∈ v.turns → turn.turnId = p.turnId →
      isOpen turn.status = true → turn'.turnId = turn.turnId → turn'.status = .completed →
      v' = { v with turns := v.turns.save turn' } → WorkflowStep retries v v'
  | resolved (p : Plan) (r : ClarificationRequest) (now : Time) : p ∈ v.plans →
      p.status = .completed → p.parentPlanId = some r.sourcePlanId → r ∈ v.clarifications →
      r.status = .answered →
      v' = { v with clarifications := v.clarifications.save (Aggregation.resolveRequest now r) } →
      WorkflowStep retries v v'

end DocFlow.Workflow
