import DocFlow.Workflow.Clarifications

/-!
# Resolving a clarification

The aggregation of a completed plan resolves the request of the plan's parent.  An answer that
was given to an earlier ancestor stays answered: `clarification_resolved_iff` says which requests
are resolved once the plan of their turn has been aggregated.
-/

namespace DocFlow.Workflow

open Planning TaskRuntime

/-- The plans that have been aggregated are completed, and no request of a parent is left
answered. -/
def Resolves (s : WorkflowState) : Prop :=
  ∀ planId ∈ s.aggregated, ∃ p ∈ s.runtime.db.plans, p.planId = planId ∧ p.status = .completed ∧
    ∀ r ∈ s.runtime.db.clarifications, p.parentPlanId = some r.sourcePlanId → r.status ≠ .answered

section Step

variable {retries : Option PlanId} {v v' : View} {p : Plan}

/-- A completed plan and the requests of its parent, over one step. -/
theorem resolves_step (hl : Lineage v) (hc : Clarified v) (h : WorkflowStep retries v v')
    (hp : p ∈ v.plans) (hst : p.status = .completed)
    (hnone : ∀ r ∈ v.clarifications, p.parentPlanId = some r.sourcePlanId → r.status ≠ .answered) :
    ∃ p' ∈ v'.plans, p'.planId = p.planId ∧ p'.status = .completed ∧
      ∀ r ∈ v'.clarifications, p'.parentPlanId = some r.sourcePlanId → r.status ≠ .answered := by
  obtain ⟨p', hp', hm⟩ := (hl.plansStep h).forth p hp
  refine ⟨p', hp', hm.same.planId, (hm.ended (by rw [hst]; rfl)).trans hst, ?_⟩
  intro r' hr' hparent hanswered
  rw [hm.same.parentPlanId] at hparent
  have hmoved : ∀ r ∈ v.clarifications, RequestMove retries v v' r r' → False := by
    intro r hr hrm
    have hsource : p.parentPlanId = some r.sourcePlanId := hrm.same.sourcePlanId ▸ hparent
    cases hrm with
    | kept => exact hnone r' hr hsource hanswered
    | questioned _ _ _ _ _ _ _ _ => exact hnone r hr hsource hanswered
    | answered _ hopen _ =>
      -- the plan of an open request still waits, and so it has no successor
      obtain ⟨-, ⟨q, hq, hid, hqst⟩, -⟩ := hc.opened r hr hopen
      rw [← hid] at hsource
      rw [hl.parent_superseded hp hq hsource] at hqst
      cases hqst
    | expired => cases hanswered
    | resolved => cases hanswered
  rcases (requestsStep h).back with hback | ⟨n, hn, hback⟩
  · obtain ⟨r, hr, hrm⟩ := hback r' hr'
    exact hmoved r hr hrm
  · rcases hback r' hr' with rfl | ⟨r, hr, hrm⟩
    · rw [hn.status] at hanswered
      cases hanswered
    · exact hmoved r hr hrm

end Step

/-- The transaction leaves no request of the parent answered. -/
theorem resolveClarification_resolves {db : Db} {now : Time} {p : Plan} (hc : Clarified (view db))
    (hp : p ∈ db.plans) {r : ClarificationRequest}
    (hr : r ∈ (Aggregation.resolveClarification now p.planId db).clarifications)
    (hparent : p.parentPlanId = some r.sourcePlanId) : r.status ≠ .answered := by
  unfold Aggregation.resolveClarification at hr
  rw [Table.get?_of_mem hp, Option.bind_some, hparent] at hr
  simp only at hr
  split at hr
  · next hnone => exact absurd rfl (Db.getClarificationByPlanId_eq_none.mp hnone r hr)
  · next x hx =>
    obtain ⟨hxm, hxp⟩ := Db.getClarificationByPlanId_eq_some hx
    split at hr
    · rcases (Table.mem_save_of_mem (r := Aggregation.resolveRequest now x) hxm rfl).mp hr with
        rfl | ⟨hold, hne⟩
      · nofun
      · exact absurd (hc.planUnique hold hxm hxp.symm) hne
    · next hst =>
      obtain rfl := hc.planUnique hxm hr hxp
      exact hst

section Runs

variable {config : RuntimeConfig} {s s' : WorkflowState} {a : WorkflowAction}

theorem Resolves.step {ok : WorkflowState → WorkflowAction → Prop} (hv : Resolves s)
    (hr : (workflows config).ReachableVia ok s) (h : (workflows config).step s a = some s') :
    Resolves s' := by
  have hl := workflow_lineage hr
  have hc := workflow_clarified hr
  have hcases := workflow_step_cases (workflow_owned hr) h
  have hold : ∀ planId ∈ s.aggregated, ∃ p ∈ s'.runtime.db.plans, p.planId = planId ∧
      p.status = .completed ∧ ∀ r ∈ s'.runtime.db.clarifications,
        p.parentPlanId = some r.sourcePlanId → r.status ≠ .answered := by
    intro planId hin
    obtain ⟨p, hp, hid, hst, hnone⟩ := hv planId hin
    obtain ⟨p', hp', hid', hrest⟩ := resolves_step hl hc hcases hp hst hnone
    exact ⟨p', hp', hid'.trans hid, hrest⟩
  rcases workflow_step h with ⟨action, r, rfl, -, -, rfl⟩ | ⟨db, hen, htx, rfl⟩ | rfl
  · exact hold
  · intro planId hin
    rcases List.mem_append.mp hin with hin | hin
    · rw [Option.mem_toList] at hin
      cases a with
      | resolveClarification now planId' =>
        obtain rfl := Option.some.inj hin
        obtain rfl := Except.ok.inj htx
        obtain ⟨p, hp, rfl, hst, -⟩ := hen
        refine ⟨p, ?_, rfl, hst, fun r hr => resolveClarification_resolves hc hp hr⟩
        obtain ⟨requests, heq⟩ := Aggregation.resolveClarification_eq now p.planId s.runtime.db
        rw [heq]
        exact hp
      | createTurn | persistContextSelection | markTurnFailed | createPlan | runtime
      | markPlanUnsupported | markPlanRetryPending | markPlanNeedsClarification
      | setClarificationQuestion | answerClarification | completeTurn => cases hin
    · exact hold planId hin
  · exact hv

theorem workflow_resolves {ok : WorkflowState → WorkflowAction → Prop}
    (h : (workflows config).ReachableVia ok s) : Resolves s := by
  refine h.invariant (P := Resolves) ?_ ?_
  · intro s hi planId hin
    rw [hi.2.2.2] at hin
    cases hin
  · exact fun _ _ _ hr hv _ hs => hv.step hr hs

/-- **Which requests an aggregation resolves**: of the requests of the turn that were answered,
the one of the parent of the completed plan, unless a late retry has let it expire. -/
theorem clarification_resolved_iff (hs : (workflows config).Reachable s) {p : Plan}
    {r : ClarificationRequest} (hp : p ∈ s.runtime.db.plans) (hagg : p.planId ∈ s.aggregated)
    (hr : r ∈ s.runtime.db.clarifications) (hturn : r.sourceTurnId = p.turnId)
    (hanswered : r.answerTurnId ≠ none) :
    r.status = .resolved ↔ p.parentPlanId = some r.sourcePlanId ∧ r.status ≠ .expired := by
  have hl := workflow_lineage hs
  have hc := workflow_clarified hs
  obtain ⟨p', hp', hid, hst, hnone⟩ := workflow_resolves hs p.planId hagg
  obtain rfl := Table.eq_of_key hp' hp hid
  constructor
  · intro hrst
    refine ⟨?_, by rw [hrst]; nofun⟩
    obtain ⟨x, hx, hxst, hparent⟩ := hc.resolved r hr hrst
    obtain ⟨q, hq, hqid, hqturn, -⟩ := hc.source r hr
    have hxturn : x.turnId = q.turnId := by
      cases hl.origin x hx with
      | root _ hroot =>
        rw [hroot] at hparent
        cases hparent
      | revision y hy _ hpy _ ht _ =>
        obtain rfl : y = q :=
          Table.eq_of_key hy hq ((Option.some.inj (hpy.symm.trans hparent)).trans hqid.symm)
        exact ht.symm
    obtain rfl : x = p' := hl.eq_of_turn hx hp (hxturn.trans (hqturn.trans hturn))
      (by rw [hxst]; nofun) (by rw [hst]; nofun)
    exact hparent
  · rintro ⟨hparent, hexpired⟩
    cases hrst : r.status with
    | opened => exact absurd (hc.opened r hr hrst).unanswered hanswered
    | answered => exact absurd hrst (hnone r hr hparent)
    | expired => exact absurd hrst hexpired
    | resolved => rfl

end Runs

/-! ## Two chains of revisions -/

/-- A plan of one task is published, run to its end and aggregated; the events are numbered from
`eventId`. -/
def finishPlan (planId : PlanId) (eventId : EventId) : List WorkflowAction :=
  [ .runtime (.createTask .processDocument planId ⟨planId, 1, 7, 1, "process", []⟩),
    .runtime (.finalizePlan id eventId (.at 0) ⟨planId, 1⟩),
    .runtime (.claim ⟨1, 1, 1, eventId + 1⟩ (.at 0) false ⟨planId, some eventId, none, none⟩),
    .runtime (.complete (eventId + 2) (.at 1)
      ⟨planId, planId, 1, 1, 1, .processDocument, ⟨7, none⟩, 1, 3, 1, 1, 1⟩ [] ["document:7"]),
    .completeTurn 1 2 1 ⟨some "done", some "done", [planId], some "done", ⟨[], true, none⟩, []⟩,
    .resolveClarification 3 planId ]

/-- The second revision, made for the answer, runs to its end. -/
def answerThenFinish : List WorkflowAction := answerEarly ++ [answerWithRevision] ++ finishPlan 2 10

/-- The second revision fails, and the third one runs to its end. -/
def answerThenFailThenFinish : List WorkflowAction :=
  answerEarly ++ [answerWithRevision, .markPlanRetryPending 2 0 0 2 modelTimeout,
    .runtime (.prepareRevision 3 (.at 0) false 2)] ++ finishPlan 3 10

/-- An answered request whose turn has been aggregated is left answered. -/
theorem answered_request_left :
    ∃ s : WorkflowState, (workflows defaultConfig).Reachable s ∧ s.aggregated = [3] ∧
      (s.runtime.db.plans.rows.map fun p => (p.turnId, p.revision, p.status)) =
        [(1, 1, .superseded), (1, 2, .superseded), (1, 3, .completed)] ∧
      (s.runtime.db.clarifications.rows.map fun r => (r.sourceTurnId, r.status)) =
        [(1, .answered)] :=
  ⟨nothingSent.afterAll answerThenFailThenFinish,
    reachable_of_workflowRun answerThenFailThenFinish rfl, rfl, rfl, rfl⟩

def finished : WorkflowState := nothingSent.afterAll answerThenFinish

theorem clarification_resolved_finished :
    ∃ p ∈ finished.runtime.db.plans, ∃ r ∈ finished.runtime.db.clarifications,
      r.sourceTurnId = p.turnId ∧ (r.status = .resolved ↔
        p.parentPlanId = some r.sourcePlanId ∧ r.status ≠ .expired) ∧ r.status = .resolved := by
  have hreach : (workflows defaultConfig).Reachable finished :=
    reachable_of_workflowRun answerThenFinish rfl
  have hiff := clarification_resolved_iff hreach (.tail _ (.head _)) (.head _) (.head _) rfl nofun
  exact ⟨_, .tail _ (.head _), _, .head _, rfl, hiff, rfl⟩

end DocFlow.Workflow
