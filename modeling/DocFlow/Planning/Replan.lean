import DocFlow.Database

/-!
# Replanning

`ReplanUseCase._prepare_revision`, the transaction that answers a
`planning.replan_requested` event: it closes the previous plan and opens the next
revision.  The planner run that follows it is left out, and so is the plan
identifier the transaction returns to start that run.
-/

namespace DocFlow.Planning

def maxPlanRevisions : Nat := 3

/-- `ReplanUseCase.CONSUMER_NAME`. -/
def replanConsumerName : String := "planning.replan"

structure ReplanRequested where
  eventId : EventId
  payload : ReplanPayload
deriving DecidableEq, Repr

/-- The row of a plan that was answered by a revision. -/
def supersedePlan (now : Time) (previous : Plan) : Plan :=
  { previous with status := .superseded, completedAt := some now }

/-- The row of a plan that has no revision left. -/
def exhaustPlan (now : Time) (previous : Plan) : Plan :=
  { previous with
    status := .failed
    failureCode := some "max_plan_revisions_exceeded"
    failureReason := some "Plan revision 次数已达上限"
    completedAt := some now }

/-- `_prepare_revision`.  `seen` is the answer of `inbox.exists`, read before the
previous plan is locked; an event seen before changes no row that is modelled. -/
def prepareRevision (newPlanId : PlanId) (now : Time) (seen : Bool) (event : ReplanRequested)
    (db : Db) : Except Failure Db := do
  if seen then
    return db
  else
    let previous ← orRaise (db.plans.get? event.payload.previousPlanId)
      (.valueError "Replan 关联的 Plan 或 Turn 不存在")
    let turn ← orRaise (db.conversationTurns.get? event.payload.rootTurnId)
      (.valueError "Replan 关联的 Plan 或 Turn 不存在")
    ensure (previous.workflowId = event.payload.workflowId ∧
        turn.conversationId = event.payload.conversationId)
      (.valueError "Replan 关联上下文不一致")
    if maxPlanRevisions < event.payload.nextRevision then
      let db := (db.setUnfinishedStatus previous.planId .failed).savePlan (exhaustPlan now previous)
      (db.saveTurn { turn with status := .failed }).recordInboxOnce replanConsumerName
        event.eventId
    else
      match db.getByWorkflowAndRevision event.payload.workflowId event.payload.nextRevision with
      | some _ => db.recordInboxOnce replanConsumerName event.eventId
      | none =>
        let db := (db.setUnfinishedStatus previous.planId .superseded).savePlan
          (supersedePlan now previous)
        let db ← db.createPlan (Db.draftPlan newPlanId event.payload.workflowId event.payload.rootTurnId
            (some event.payload.previousPlanId) event.payload.nextRevision)
        db.recordInboxOnce replanConsumerName event.eventId

end DocFlow.Planning
