import DocFlow.Conversation.SendMessage
import DocFlow.Workflow.PlannerRun

/-!
# Replies

A published plan is handed to the runtime before the call that planned it has read it back, so the
read can find any later status (`published_run`).  The read itself never raises; the dispatch on
it knows `READY` and takes every status it does not name for a failure, and
`published_reply` says when that is right.
-/

namespace DocFlow.Workflow

open Planning TaskRuntime Conversation

variable {config : RuntimeConfig} {s s' : WorkflowState}

/-- The statuses of a plan that has been published. -/
def isPublished : PlanStatus → Bool
  | .ready | .running | .completed | .replanPending | .superseded | .failed => true
  | _ => false

theorem isPublished_of_worked {status : PlanStatus} (h : isWorked status = true) :
    isPublished status = true := by
  cases status <;> first | rfl | cases h

theorem Advance.published {status status' : PlanStatus} (h : Advance status status')
    (hp : isPublished status = true) : isPublished status' = true := by
  cases h with
  | publish | unsupported | ask => cases hp
  | retry hst => rcases hst with rfl | rfl <;> cases hp
  | work _ hworked => exact isPublished_of_worked hworked
  | supersede | exhaust => rfl

theorem PlanMove.published {p p' : Plan} (h : PlanMove p p') (hp : isPublished p.status = true) :
    isPublished p'.status = true := by
  rcases h.moved with rfl | hm
  · exact hp
  · exact hm.published hp

/-- **A published plan stays published**, whoever works on it. -/
theorem published_run {as : List WorkflowAction} (hs : (workflows config).Reachable s)
    (hrun : (workflows config).run s as = some s') {p : Plan} (hp : p ∈ s.runtime.db.plans)
    (hst : isPublished p.status = true) :
    ∃ p' ∈ s'.runtime.db.plans, SamePlan p p' ∧ isPublished p'.status = true := by
  refine (Machine.RunVia.of_run hrun).preserves
    (P := fun s' => ∃ p' ∈ s'.runtime.db.plans, SamePlan p p' ∧ isPublished p'.status = true) ?_ hs
    ⟨p, hp, .refl p, hst⟩
  rintro s₁ a s₂ hr ⟨q, hq, hsame, hqst⟩ - hstep
  have hcases := workflow_step_cases (workflow_owned hr) hstep
  obtain ⟨q', hq', hmove⟩ := ((workflow_lineage hr).plansStep hcases).forth q hq
  exact ⟨q', hq', hsame.trans hmove.same, hmove.published hqst⟩

/-! ## The reply -/

section Reply

variable {p : Plan} {ending : RunnerEnd}

/-- The rest of a call whose plan has been published: the plan is read, and not marked. -/
theorem runExistingPlan_of_published (hs : (workflows config).Reachable s)
    (hp : p ∈ s.runtime.db.plans) (hst : isPublished p.status = true)
    (hending : ∀ question, ending ≠ .returned (some question)) (conversationId : ConversationId)
    (draw : RetryDraw) :
    runExistingPlan draw ⟨p.planId, p.turnId, conversationId⟩ ⟨[], ending⟩ s.runtime.db =
      (.ok (planResult p s.runtime.db), s.runtime.db) := by
  have hread := readResult_reachable hs hp
  have hretry : (planResult p s.runtime.db).needsRetry = false := by
    rw [← Bool.not_eq_true, needsRetry_iff]
    show ¬ (p.status = .planning ∨ p.status = .needsClarification ∧ _)
    rintro (h | ⟨h, -⟩) <;> rw [h] at hst <;> cases hst
  cases ending with
  | raised | retryRequested => exact finishFromDatabase_of_settled hread hretry
  | returned question =>
    cases question with
    | none => exact finishFromDatabase_of_settled hread hretry
    | some question => exact absurd rfl (hending question)

/-- The status that a published plan is reported with. -/
def publishedReply : PlanStatus → ReplyStatus
  | .ready => .processing
  | _ => .failed

/-- The dispatch on a published plan does not raise. -/
theorem dispatch_published (draws : SendDraws) (selection : ContextSelectionResult)
    (planning : RunPlanningResult) (db : Db) (hst : isPublished planning.status = true) :
    ∃ result, dispatch draws.drawnChainId draws.now selection planning db = .ok (result, db) ∧
      result.status = publishedReply planning.status := by
  unfold dispatch
  cases hplan : planning.status <;> rw [hplan] at hst <;> first | exact ⟨_, rfl, rfl⟩ | cases hst

/-- **The reply on a published plan**, after any work of others on it: the call returns,
and it reports a failure that did not happen unless the plan is still ready, or has failed. -/
theorem published_reply (hs : (workflows config).Reachable s) (hp : p ∈ s.runtime.db.plans)
    (hst : p.status = .ready) (as : List WorkflowAction)
    (hrun : (workflows config).run s as = some s') (draws : SendDraws)
    (selection : ContextSelectionResult) (hturn : selection.turnId = p.turnId)
    (hending : ∀ question, ending ≠ .returned (some question)) :
    ∃ p' ∈ s'.runtime.db.plans, SamePlan p p' ∧ ∃ result,
      (finish draws selection (runExistingPlan draws.retry
        ⟨p.planId, selection.turnId, selection.conversationId⟩ ⟨[], ending⟩ s'.runtime.db)).1 =
          .ok result ∧
      ((result.status = .failed → p'.status = .failed) ↔
        p'.status = .ready ∨ p'.status = .failed) := by
  obtain ⟨p', hp', hsame, hst'⟩ := published_run hs hrun hp (by rw [hst]; rfl)
  have hplanning := runExistingPlan_of_published (hs.run hrun) hp' hst' hending
    selection.conversationId draws.retry
  obtain ⟨result, hdispatch, hreply⟩ := dispatch_published draws selection
    (planResult p' s'.runtime.db) s'.runtime.db hst'
  refine ⟨p', hp', hsame, result, ?_, ?_⟩
  · rw [hturn, ← hsame.planId, ← hsame.turnId, hplanning]
    simp only [finish, hdispatch]
  · rw [hreply]
    show (publishedReply p'.status = _ → _) ↔ _
    cases p'.status <;> decide

end Reply

/-! ## A worker that is faster than the reply -/

/-- The plan of the first message is published. -/
def publishFirst : List WorkflowAction :=
  sendFirstMessage ++ [.runtime (.createTask .processDocument 1 ⟨1, 1, 7, 1, "process", []⟩),
    .runtime (.finalizePlan id 1 (.at 0) ⟨1, 1⟩)]

def published : WorkflowState := nothingSent.afterAll publishFirst

theorem published_reachable : (workflows defaultConfig).Reachable published :=
  reachable_of_workflowRun publishFirst rfl

/-- A worker handles the wake-up of the plan, and claims its task. -/
def claimFirst : WorkflowAction :=
  .runtime (.claim ⟨1, 1, 1, 2⟩ (.at 0) false ⟨1, some 1, none, none⟩)

def firstDraws : SendDraws := ⟨1, 1, 1, 2, ⟨3, 0, 0⟩, 1, 0⟩

def firstSelection : ContextSelectionResult := ⟨1, 1, [], "nothing to read"⟩

/-- The task of the plan is running when the reply says that the plan has failed. -/
theorem running_reported_failed :
    ∃ s s' : WorkflowState, (workflows defaultConfig).Reachable s ∧
      (s.runtime.db.plans.rows.map fun p => (p.planId, p.status)) = [(1, .ready)] ∧
      (workflows defaultConfig).run s [claimFirst] = some s' ∧
      (s'.runtime.db.plans.rows.map fun p => (p.planId, p.status)) = [(1, .running)] ∧
      ((finish firstDraws firstSelection (runExistingPlan firstDraws.retry ⟨1, 1, 1⟩
        ⟨[], .returned none⟩ s'.runtime.db)).1.map fun result => (result.planId, result.status)) =
          .ok (some 1, .failed) :=
  ⟨published, published.afterAll [claimFirst], published_reachable, rfl, rfl, rfl, rfl⟩

/-- Between publication and read, a plan of another conversation is published and claimed. -/
def otherPlan : List WorkflowAction :=
  [.createTurn 2 2, .persistContextSelection 2 2 [], .createPlan 2 2 2,
    .runtime (.createTask .processDocument 2 ⟨2, 2, 8, 1, "process", []⟩),
    .runtime (.finalizePlan id 2 (.at 0) ⟨2, 2⟩),
    .runtime (.claim ⟨1, 1, 1, 3⟩ (.at 0) false ⟨2, some 2, none, none⟩)]

theorem published_reply_at_once :
    ∃ p ∈ (published.afterAll otherPlan).runtime.db.plans, ∃ result,
      ((published.afterAll otherPlan).runtime.db.plans.rows.map fun q => (q.planId, q.status)) =
        [(p.planId, .ready), (2, .running)] ∧
      (finish firstDraws firstSelection (runExistingPlan firstDraws.retry
        ⟨p.planId, 1, 1⟩ ⟨[], .returned none⟩ (published.afterAll otherPlan).runtime.db)).1 =
          .ok result ∧ result.status = .processing := by
  have hending : ∀ question, RunnerEnd.returned none ≠ .returned (some question) := nofun
  have hrun : (workflows defaultConfig).run published otherPlan = some (published.afterAll otherPlan) :=
    rfl
  obtain ⟨p, hp, hsame, result, hresult, -⟩ := published_reply published_reachable (.head _) rfl
    otherPlan hrun firstDraws firstSelection rfl hending
  have hid : p.planId = 1 := hsame.planId
  refine ⟨p, hp, result, ?_, ?_, by cases hresult; rfl⟩
  · rw [hid]
    rfl
  · rw [hid]
    exact hresult

end DocFlow.Workflow
