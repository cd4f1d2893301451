import DocFlow.Planning.RunPlanning
import DocFlow.Workflow.Clarifications
import DocFlow.Workflow.PlanTasks

/-!
# Every planner run settles its plan

The tool calls of a run are steps of the workflow, so the invariants hold of what they leave
(`runTools_reachable`), and only the last accepted one can have ended the planning (`ToolsOutcome`).
`planner_run_settles` says when `_run_existing_plan` then settles the plan: always, unless the planner
asks for a retry with a blank reason.
-/

namespace DocFlow.Workflow

open Planning TaskRuntime

variable {config : RuntimeConfig} {s : WorkflowState} {context : AgentToolContext}

/-! ## Tool calls are steps -/

/-- The step of a call. -/
def toolAction (context : AgentToolContext) : ToolCall → WorkflowAction
  | .createTask code newTaskId documentId sequence taskRef dependsOnTaskRefs =>
    .runtime (.createTask code newTaskId
      ⟨context.planId, context.turnId, documentId, sequence, taskRef, dependsOnTaskRefs⟩)
  | .finalizePlan newDependencyId newEventId now =>
    .runtime (.finalizePlan newDependencyId newEventId (.at now) ⟨context.planId, context.turnId⟩)
  | .markPlanUnsupported reason => .markPlanUnsupported context.planId reason
  | .markPlanNeedsClarification newClarificationId kind reason requiredInformation
      knownResourceRefs =>
    .markPlanNeedsClarification newClarificationId
      ⟨context.planId, context.conversationId, kind, reason, requiredInformation,
        knownResourceRefs⟩

/-- What a transaction leaves, whether it commits or not. -/
def committedOr (db : Db) : Except Failure Db → Db
  | .ok db' => db'
  | .error _ => db

theorem WorkflowState.after_db (a : WorkflowAction) (x : Except Failure Db) :
    (s.after a x).runtime.db = committedOr s.runtime.db x := by
  cases x <;> rfl

theorem RuntimeState.after_db {st : RuntimeState} (a : RuntimeAction) (x : Except Failure Db) :
    (st.after a ((none, ·) <$> x)).db = committedOr st.db x := by
  cases x <;> rfl

theorem attempt_eq (call : ToolCall) (db : Db) :
    call.attempt context db = committedOr db (call.execute context db) := rfl

theorem toolAction_step (context : AgentToolContext) (call : ToolCall) :
    ∃ s', (workflows config).step s (toolAction context call) = some s' ∧
      s'.runtime.db = call.attempt context s.runtime.db := by
  rw [attempt_eq]
  cases call with
  | createTask => exact ⟨_, rfl, RuntimeState.after_db _ _⟩
  | finalizePlan => exact ⟨_, rfl, RuntimeState.after_db _ _⟩
  | markPlanUnsupported => exact ⟨_, rfl, WorkflowState.after_db _ _⟩
  | markPlanNeedsClarification => exact ⟨_, rfl, WorkflowState.after_db _ _⟩

theorem runTools_reachable (context : AgentToolContext) (hs : (workflows config).Reachable s)
    (calls : List ToolCall) :
    ∃ s', (workflows config).Reachable s' ∧
      s'.runtime.db = runTools context calls s.runtime.db := by
  induction calls generalizing s with
  | nil => exact ⟨s, hs, rfl⟩
  | cons call calls ih =>
    obtain ⟨m, hstep, hdb⟩ := toolAction_step context call
    obtain ⟨s', hs', hdb'⟩ := ih (.step hs trivial hstep)
    exact ⟨s', hs', by rw [hdb', hdb, runTools]⟩

/-! ## What an accepted call does -/

/-- A call that ends the planning of a plan; the index says whether it asks for a
clarification. -/
inductive Ends (p : Plan) (db db' : Db) : Bool → Prop
  | published : db'.plans = db.plans.save (publishPlan p) → Ends p db db' false
  | unsupported (reason : String) : db'.plans = db.plans.save
      (setPlanStatus .unsupported (some reason) (some "unsupported") p) → Ends p db db' false
  | asked (reason : String) (turn : ConversationTurn) (request : ClarificationRequest) :
      turn ∈ db.conversationTurns → turn.turnId = p.turnId → request.sourcePlanId = p.planId →
      request.question = none → db.clarifications.insert request = some db'.clarifications →
      db'.plans = db.plans.save
        (setPlanStatus .needsClarification (some reason) (some "clarification_required") p) →
      db'.conversationTurns = db.conversationTurns.save (withTurnStatus .needsClarification turn) →
      db'.outbox = db.outbox → Ends p db db' true

/-- What an accepted call does to the plan of its context. -/
inductive CallEffect (p : Plan) (db db' : Db) (clarification : Bool) : Prop
  | drafted : clarification = false → db'.plans = db.plans → db'.outbox = db.outbox →
      CallEffect p db db' clarification
  | ended : Ends p db db' clarification → CallEffect p db db' clarification

section Calls

variable {db db' : Db} {p : Plan}

theorem call_effect {call : ToolCall} (h : call.execute context db = .ok db') :
    ∃ p, db.plans.get? context.planId = some p ∧ p.status = .planning ∧
      CallEffect p db db' call.isClarification := by
  cases call with
  | createTask code newTaskId documentId sequence taskRef dependsOnTaskRefs =>
    simp only [ToolCall.execute, createDocumentTask, bind_eq_ok, orRaise_eq_ok, requirePlanning,
      ensure_eq_ok] at h
    obtain ⟨p, hp, -, hst, -, -, -, -, -, -, -, -, -, -, h⟩ := h
    rw [asSequenceConflict_eq_ok, Db.createTask] at h
    split at h
    · cases h
    · simp only [bind_eq_ok, orRaise_eq_ok, pure_eq_ok] at h
      obtain ⟨tasks, -, rfl⟩ := h
      exact ⟨p, hp, hst, .drafted rfl rfl rfl⟩
  | finalizePlan newDependencyId newEventId now =>
    simp only [ToolCall.execute, Planning.finalizePlan, bind_eq_ok, orRaise_eq_ok, requirePlanning,
      ensure_eq_ok] at h
    obtain ⟨p, hp, -, hst, -, -, -, -, -, -, -, -, _, -, turn, -, -, -, mid, hdeps, h⟩ := h
    obtain ⟨table, rfl, -⟩ := Db.addDependencies_eq_ok hdeps
    obtain ⟨outbox, -, rfl⟩ := Db.addOutbox_eq_ok.mp h
    exact ⟨p, hp, hst, .ended (.published rfl)⟩
  | markPlanUnsupported reason =>
    obtain ⟨-, p, hp, hst, rfl⟩ := markPlanUnsupported_eq_ok.mp h
    exact ⟨p, hp, hst, .ended (.unsupported _ rfl)⟩
  | markPlanNeedsClarification newClarificationId kind reason requiredInformation
      knownResourceRefs =>
    obtain ⟨p, turn, table, hp, hst, hturn, -, -, -, htable, rfl⟩ :=
      markPlanNeedsClarification_eq_ok h
    obtain ⟨hturnm, hturnId⟩ := Table.get?_eq_some.mp hturn
    exact ⟨p, hp, hst, .ended (.asked reason.text turn _ hturnm hturnId rfl rfl htable rfl rfl rfl)⟩

/-- The plan after the call that has ended its planning. -/
theorem Ends.plan {accepted : Bool} (h : Ends p db db' accepted) (hp : p ∈ db.plans) :
    ∃ p' ∈ db'.plans, SamePlan p p' ∧
      (accepted = false ∧ (p'.status = .ready ∨ p'.status = .unsupported) ∨
        accepted = true ∧ p'.status = .needsClarification) := by
  have hsaved : ∀ saved : Plan, saved.planId = p.planId → db'.plans = db.plans.save saved →
      saved ∈ db'.plans := by
    intro saved hid hplans
    rw [hplans]
    exact (Table.mem_save_of_mem hp hid).mpr (.inl rfl)
  cases h with
  | published hplans =>
    exact ⟨_, hsaved (publishPlan p) rfl hplans, ⟨rfl, rfl, rfl, rfl, rfl⟩, .inl ⟨rfl, .inl rfl⟩⟩
  | unsupported reason hplans =>
    exact ⟨_, hsaved (setPlanStatus .unsupported (some reason) (some "unsupported") p) rfl hplans,
      ⟨rfl, rfl, rfl, rfl, rfl⟩, .inl ⟨rfl, .inr rfl⟩⟩
  | asked reason _ _ _ _ _ _ _ hplans =>
    exact ⟨_, hsaved (setPlanStatus .needsClarification (some reason)
      (some "clarification_required") p) rfl hplans, ⟨rfl, rfl, rfl, rfl, rfl⟩, .inr ⟨rfl, rfl⟩⟩

/-- Once the planning has ended, every call is rejected. -/
theorem runTools_of_ended {p' : Plan} (hp' : p' ∈ db.plans) (hid : p'.planId = context.planId)
    (hst : p'.status ≠ .planning) (calls : List ToolCall) :
    runTools context calls db = db ∧ clarificationAccepted context calls db = false := by
  have hreject : ∀ call : ToolCall, ∃ failure, call.execute context db = .error failure := by
    intro call
    cases hx : call.execute context db with
    | error failure => exact ⟨failure, rfl⟩
    | ok db' =>
      obtain ⟨p, hp, hpst, -⟩ := call_effect hx
      rw [← hid, Table.get?_of_mem hp'] at hp
      rw [Option.some.inj hp] at hst
      exact absurd hpst hst
  induction calls with
  | nil => exact ⟨rfl, rfl⟩
  | cons call calls ih =>
    obtain ⟨failure, hx⟩ := hreject call
    have hsame : call.attempt context db = db := by rw [attempt_eq, hx]; rfl
    rw [runTools, clarificationAccepted, hsame, hx]
    exact ⟨ih.1, by rw [ih.2]; exact Bool.or_false _ |>.trans (Bool.and_false _)⟩

/-- What all calls of a run do to a plan that is being planned. -/
inductive ToolsOutcome (context : AgentToolContext) (p : Plan) (db db' : Db) (accepted : Bool) :
    Prop
  | planning : p ∈ db'.plans → accepted = false → db'.outbox = db.outbox →
      ToolsOutcome context p db db' accepted
  | ended (before : List ToolCall) : p ∈ (runTools context before db).plans →
      (runTools context before db).outbox = db.outbox →
      Ends p (runTools context before db) db' accepted → ToolsOutcome context p db db' accepted

theorem tools_outcome (hp : p ∈ db.plans) (hid : p.planId = context.planId) (calls : List ToolCall) :
    ToolsOutcome context p db (runTools context calls db)
      (clarificationAccepted context calls db) := by
  induction calls generalizing db with
  | nil => exact .planning hp rfl rfl
  | cons call calls ih =>
    rw [runTools, clarificationAccepted]
    cases hx : call.execute context db with
    | error failure =>
      have hsame : call.attempt context db = db := by rw [attempt_eq, hx]; rfl
      rw [hsame]
      have hflag : (call.isClarification && (Except.error failure : Except Failure Db).isOk ||
          clarificationAccepted context calls db) = clarificationAccepted context calls db := by
        rw [show (Except.error failure : Except Failure Db).isOk = false from rfl, Bool.and_false,
          Bool.false_or]
      rw [hflag]
      exact ih hp
    | ok db' =>
      have hnext : call.attempt context db = db' := by rw [attempt_eq, hx]; rfl
      rw [hnext, show (Except.ok db' : Except Failure Db).isOk = true from rfl, Bool.and_true]
      obtain ⟨q, hq, -, heffect⟩ := call_effect hx
      rw [← hid, Table.get?_of_mem hp] at hq
      obtain rfl := Option.some.inj hq
      cases heffect with
      | drafted hflag hplans hout =>
        rw [hflag, Bool.false_or]
        have hmem : p ∈ db'.plans := hplans ▸ hp
        cases ih hmem with
        | planning hp' haccepted hout' => exact .planning hp' haccepted (hout'.trans hout)
        | ended before hp' hout' hends =>
          refine .ended (call :: before) ?_ ?_ ?_
          · rw [runTools, hnext]
            exact hp'
          · rw [runTools, hnext]
            exact hout'.trans hout
          · rw [runTools, hnext]
            exact hends
      | ended hends =>
        obtain ⟨p', hp', hsame, hst'⟩ := hends.plan hp
        have hnot : p'.status ≠ .planning := by
          rcases hst' with ⟨-, hst' | hst'⟩ | ⟨-, hst'⟩ <;> rw [hst'] <;> nofun
        obtain ⟨hrest, hflag⟩ :=
          runTools_of_ended hp' (hsame.planId.trans hid) hnot calls
        rw [hrest, hflag, Bool.or_false]
        exact .ended [] hp rfl hends

end Calls

/-! ## Reading and marking -/

/-- What `_read_result` answers of a plan. -/
def planResult (p : Plan) (db : Db) : RunPlanningResult where
  planId := p.planId
  turnId := p.turnId
  status := p.status
  taskIds := if p.status = .ready then (db.listByPlanId p.planId).map Task.taskId else []
  failureReason := p.failureReason
  clarificationQuestion :=
    (db.getClarificationByPlanId p.planId).bind ClarificationRequest.question

/-- **The read never raises**, whatever the runtime has made of the plan. -/
theorem readResult_reachable (hs : (workflows config).Reachable s) {p : Plan}
    (hp : p ∈ s.runtime.db.plans) :
    readResult p.planId p.turnId s.runtime.db = .ok (planResult p s.runtime.db) := by
  have hstaged := workflow_staged hs
  -- the pending tasks of a ready plan are all its tasks
  have hready : p.status = .ready → ∃ turn ∈ s.runtime.db.conversationTurns, turn.turnId = p.turnId ∧
      ((s.runtime.db.listByPlanId p.planId).filter fun task => task.status = .pending) =
        s.runtime.db.listByPlanId p.planId ∧
      turn.taskIds = (s.runtime.db.listByPlanId p.planId).map Task.taskId := by
    intro hst
    obtain ⟨hpending, turn, hturn, hid, hids⟩ := hstaged.published p hp hst
    refine ⟨turn, hturn, hid, List.filter_eq_self.mpr fun t ht => ?_, hids⟩
    have ht := Db.mem_listByPlanId.mp ht
    simp [hpending t (mem_rowsOf.mpr ht)]
  rw [readResult_eq_ok]
  by_cases hst : p.status = .ready
  · obtain ⟨turn, hturn, hid, hfilter, hids⟩ := hready hst
    refine ⟨p, turn, Table.get?_of_mem hp, rfl, Table.get?_eq_some.mpr ⟨hturn, hid⟩, fun _ => ?_, ?_⟩
    · rw [hfilter, hids]
    · rw [hfilter]
      rfl
  · obtain ⟨turn, hturn, hid⟩ := hstaged.rooted p hp
    refine ⟨p, turn, Table.get?_of_mem hp, rfl, Table.get?_eq_some.mpr ⟨hturn, hid⟩,
      fun h => absurd h hst, ?_⟩
    rw [planResult, if_neg hst, if_neg hst]

theorem getClarification_of_mem {db : Db} (hc : Clarified (view db)) {r : ClarificationRequest}
    (hr : r ∈ db.clarifications) : db.getClarificationByPlanId r.sourcePlanId = some r := by
  cases h : db.getClarificationByPlanId r.sourcePlanId with
  | none => exact absurd rfl (Db.getClarificationByPlanId_eq_none.mp h r hr)
  | some x =>
    obtain ⟨hx, hxp⟩ := Db.getClarificationByPlanId_eq_some h
    rw [hc.planUnique hx hr hxp]

/-- A plan that is planned or waits can be marked for a retry. -/
theorem retry_marks (hs : (workflows config).Reachable s) {p : Plan} (hp : p ∈ s.runtime.db.plans)
    (hst : p.status = .needsClarification ∨ p.status = .planning) (draw : RetryDraw)
    {reason : BoundedText} (hblank : PyString.isBlank reason.text = false)
    (hfresh : ∀ ev ∈ s.runtime.db.outbox, ev.eventId ≠ draw.newEventId) :
    ∃ s', (workflows config).Reachable s' ∧
      markPlanRetryPending draw.newEventId draw.resolvedAt draw.availableAt p.planId reason
        s.runtime.db = .ok s'.runtime.db ∧
      ∃ p' ∈ s'.runtime.db.plans, ∃ ev, SamePlan p p' ∧ p'.status = .retryPending ∧
        requestsIn s'.runtime.db.outbox = requestsIn s.runtime.db.outbox ++ [ev] ∧
        ev.payload.previousPlanId = p.planId := by
  obtain ⟨turn, hturn, hid⟩ := (workflow_staged hs).rooted p hp
  obtain ⟨outbox, hout⟩ := Table.exists_insert (t := s.runtime.db.outbox)
    (r := replanEvent draw.newEventId draw.availableAt p turn.conversationId
      "planner_system_failure" (some "planner_system_failure")
      (some (PyString.strip reason.text))) hfresh
  have hmark : markPlanRetryPending draw.newEventId draw.resolvedAt draw.availableAt p.planId reason
      s.runtime.db = .ok _ := markPlanRetryPending_eq_ok.mpr ⟨hblank, p, turn, outbox, Table.get?_of_mem hp, hst,
      Table.get?_eq_some.mpr ⟨hturn, hid⟩, hout, rfl⟩
  let a : WorkflowAction :=
    .markPlanRetryPending draw.newEventId draw.resolvedAt draw.availableAt p.planId reason
  have hstep : (workflows config).step s a =
      some (s.after a (a.transaction s.runtime.db)) := rfl
  have htx : a.transaction s.runtime.db = .ok _ := hmark
  rw [htx] at hstep
  refine ⟨_, .step hs trivial hstep, hmark, setPlanStatus .retryPending
    (some (PyString.strip reason.text)) (some "planner_system_failure") p, ?_, _,
    ⟨rfl, rfl, rfl, rfl, rfl⟩, rfl, requestsIn_insert hout, rfl⟩
  exact (Table.mem_save_of_mem (r := setPlanStatus .retryPending
    (some (PyString.strip reason.text)) (some "planner_system_failure") p) hp rfl).mpr (.inl rfl)

/-! ## What the tools leave -/

/-- The events that ask for a revision of a plan. -/
def eventsFor (planId : PlanId) (db : Db) : Nat :=
  ((requestsIn db.outbox).filter fun ev => ev.payload.previousPlanId = planId).length

theorem eventsFor_of_quiet {planId : PlanId} {db : Db}
    (h : ∀ ev ∈ requestsIn db.outbox, ev.payload.previousPlanId ≠ planId) :
    eventsFor planId db = 0 := by
  rw [eventsFor, List.length_eq_zero_iff, List.filter_eq_nil_iff]
  intro ev hev
  simp [h ev hev]

/-- The plan when the runner ends, before anything is read. -/
structure ToolsLeft (p p₁ : Plan) (db db₁ : Db) (accepted : Bool) : Prop where
  mem : p₁ ∈ db₁.plans
  same : SamePlan p p₁
  status : accepted = false ∧ (p₁.status = .planning ∨ p₁.status = .ready ∨
    p₁.status = .unsupported) ∨ accepted = true ∧ p₁.status = .needsClarification
  quiet : ∀ ev ∈ requestsIn db₁.outbox, ev.payload.previousPlanId ≠ p.planId
  outbox : p₁.status = .planning ∨ p₁.status = .needsClarification → db₁.outbox = db.outbox
  asked : p₁.status = .needsClarification → ∃ r turn, db₁.getClarificationByPlanId p.planId = some r ∧
    r.question = none ∧ turn ∈ db₁.conversationTurns ∧ turn.turnId = p.turnId ∧
    turn.status = .needsClarification

theorem tools_left (context : AgentToolContext) (hs : (workflows config).Reachable s) {p : Plan}
    (hp : p ∈ s.runtime.db.plans) (hst : p.status = .planning) (hid : p.planId = context.planId)
    (calls : List ToolCall) :
    ∃ p₁, ToolsLeft p p₁ s.runtime.db (runTools context calls s.runtime.db)
      (clarificationAccepted context calls s.runtime.db) := by
  obtain ⟨s₁, hs₁, hdb₁⟩ := runTools_reachable context hs calls
  have hquiet : ∀ q ∈ s₁.runtime.db.plans, q.planId = p.planId → isClosed q.status = false →
      ∀ ev ∈ requestsIn (runTools context calls s.runtime.db).outbox,
        ev.payload.previousPlanId ≠ p.planId := by
    intro q hq hqid hlive
    rw [← hdb₁, ← hqid]
    exact (workflow_lineage hs₁).quiet hq hlive
  have houtcome := tools_outcome hp hid calls
  generalize clarificationAccepted context calls s.runtime.db = accepted at houtcome ⊢
  cases houtcome with
  | planning hp₁ haccepted hout =>
    refine ⟨p, hp₁, .refl p, .inl ⟨haccepted, .inl hst⟩, hquiet p (hdb₁ ▸ hp₁) rfl (by rw [hst]; rfl),
      fun _ => hout, fun h => ?_⟩
    rw [hst] at h
    cases h
  | ended before hpb hout hends =>
    obtain ⟨p₁, hp₁, hsame, hstatus⟩ := hends.plan hpb
    cases hends with
    | published | unsupported =>
      obtain ⟨haccepted, hst₁⟩ := hstatus.resolve_right fun h => nomatch h.1
      have hlive : isClosed p₁.status = false := by rcases hst₁ with h | h <;> rw [h] <;> rfl
      refine ⟨p₁, hp₁, hsame, .inl ⟨haccepted, .inr hst₁⟩, hquiet p₁ (hdb₁ ▸ hp₁) hsame.planId hlive,
        fun h => ?_, fun h => ?_⟩
      · rcases h with h | h <;> rcases hst₁ with h' | h' <;> rw [h] at h' <;> cases h'
      · rcases hst₁ with h' | h' <;> rw [h] at h' <;> cases h'
    | asked reason turn r hturn hturnId hrp hquestion hrequests hplans hturns hout' =>
      obtain ⟨sb, hsb, hdbb⟩ := runTools_reachable context hs before
      obtain ⟨haccepted, hst₁⟩ := hstatus.resolve_left fun h => nomatch h.1
      refine ⟨p₁, hp₁, hsame, .inr ⟨haccepted, hst₁⟩, ?_, fun _ => hout'.trans hout, fun _ => ?_⟩
      · rw [hout', ← hdbb]
        exact (workflow_lineage hsb).quiet (hdbb ▸ hpb) (by rw [hst]; rfl)
      · have hr : r ∈ (runTools context calls s.runtime.db).clarifications :=
          (Table.mem_insert hrequests).mpr (.inr rfl)
        refine ⟨r, withTurnStatus .needsClarification turn, ?_, hquestion, ?_, hturnId, rfl⟩
        · rw [← hrp, ← hdb₁]
          exact getClarification_of_mem (workflow_clarified hs₁) (hdb₁ ▸ hr)
        · rw [hturns]
          exact (Table.mem_save_of_mem (r := withTurnStatus .needsClarification turn) hturn rfl).mpr
            (.inl rfl)

/-! ## Settling -/

/-- The call has returned, the plan is settled, an event was made for a retry only, and the result
is what the database says. -/
def Settled (p : Plan) (x : Except Failure RunPlanningResult × Db) : Prop :=
  ∃ p' ∈ x.2.plans, SamePlan p p' ∧ x.1 = .ok (planResult p' x.2) ∧
    (p'.status = .ready ∧ Published (view x.2) p' ∨ p'.status = .unsupported ∨
      p'.status = .needsClarification ∧ (planResult p' x.2).clarificationQuestion ≠ none ∨
      p'.status = .retryPending) ∧
    eventsFor p.planId x.2 = if p'.status = .retryPending then 1 else 0

section Settle

variable {p p₁ : Plan} {db : Db} {accepted : Bool} {draw : RetryDraw} {reason : BoundedText}

theorem needsRetry_iff {result : RunPlanningResult} :
    result.needsRetry = true ↔ result.status = .planning ∨
      result.status = .needsClarification ∧ result.clarificationQuestion = none := by
  simp [RunPlanningResult.needsRetry]

theorem ToolsLeft.needsRetry {db₁ : Db} (hleft : ToolsLeft p p₁ db db₁ accepted)
    (hst : p₁.status = .planning ∨ p₁.status = .needsClarification) :
    (planResult p₁ db₁).needsRetry = true := by
  rw [needsRetry_iff]
  refine hst.imp_right fun hst => ⟨hst, ?_⟩
  obtain ⟨r, -, hr, hquestion, -⟩ := hleft.asked hst
  rw [planResult, hleft.same.planId, hr]
  exact hquestion

/-- A plan without an outcome is marked. -/
theorem finish_retry (hs : (workflows config).Reachable s)
    (hleft : ToolsLeft p p₁ db s.runtime.db accepted)
    (hst : p₁.status = .planning ∨ p₁.status = .needsClarification)
    (hblank : PyString.isBlank reason.text = false)
    (hfresh : ∀ ev ∈ db.outbox, ev.eventId ≠ draw.newEventId) :
    Settled p (finishFromDatabase draw p.planId p.turnId reason s.runtime.db) := by
  have hread := readResult_reachable hs hleft.mem
  rw [hleft.same.planId, hleft.same.turnId] at hread
  obtain ⟨s', hs', hmark, p', hp', ev, hsame, hst', hreplans, hprev⟩ := retry_marks hs hleft.mem
    hst.symm draw hblank (by rw [hleft.outbox hst]; exact hfresh)
  rw [hleft.same.planId] at hmark hprev
  rw [finishFromDatabase_of_retry hread (hleft.needsRetry hst), hmark]
  have hread' := readResult_reachable hs' hp'
  have hsame' : SamePlan p p' := hleft.same.trans hsame
  rw [hsame'.planId, hsame'.turnId] at hread'
  refine ⟨p', hp', hsame', hread', .inr (.inr (.inr hst')), ?_⟩
  rw [if_pos hst', eventsFor, hreplans, List.filter_append,
    List.filter_eq_nil_iff.mpr fun x hx => by simp [hleft.quiet x hx],
    List.filter_cons_of_pos (by simp [hprev])]
  rfl

/-- A plan with an outcome is left as it is. -/
theorem finish_settled (hs : (workflows config).Reachable s)
    (hleft : ToolsLeft p p₁ db s.runtime.db accepted)
    (hst : p₁.status = .ready ∨ p₁.status = .unsupported) :
    Settled p (finishFromDatabase draw p.planId p.turnId reason s.runtime.db) := by
  have hread := readResult_reachable hs hleft.mem
  rw [hleft.same.planId, hleft.same.turnId] at hread
  have hretry : (planResult p₁ s.runtime.db).needsRetry = false := by
    rw [← Bool.not_eq_true, needsRetry_iff]
    show ¬ (p₁.status = .planning ∨ p₁.status = .needsClarification ∧ _)
    rcases hst with hst | hst <;> rw [hst] <;> rintro (h | ⟨h, -⟩) <;> cases h
  rw [finishFromDatabase_of_settled hread hretry]
  refine ⟨p₁, hleft.mem, hleft.same, rfl, ?_, ?_⟩
  · rcases hst with hst | hst
    · exact .inl ⟨hst, (workflow_staged hs).published p₁ hleft.mem hst⟩
    · exact .inr (.inl hst)
  · rw [eventsFor_of_quiet hleft.quiet, if_neg]
    rcases hst with hst | hst <;> rw [hst] <;> nofun

/-- The question of the runner is written and read back. -/
theorem finish_questioned (draw : RetryDraw) (reason : BoundedText)
    (hs : (workflows config).Reachable s)
    (hleft : ToolsLeft p p₁ db s.runtime.db accepted) (hst : p₁.status = .needsClarification)
    (question : BoundedText) : ∃ db', setClarificationQuestion p.planId question s.runtime.db = .ok db' ∧
      Settled p (finishFromDatabase draw p.planId p.turnId reason db') := by
  obtain ⟨r, turn, hr, -, hturn, hturnId, hturnSt⟩ := hleft.asked hst
  have hget : s.runtime.db.plans.get? p.planId = some p₁ :=
    Table.get?_eq_some.mpr ⟨hleft.mem, hleft.same.planId⟩
  obtain ⟨hrm, hrp⟩ := Db.getClarificationByPlanId_eq_some hr
  obtain ⟨db', hset, hplans, hout, hasked⟩ : ∃ db',
      setClarificationQuestion p.planId question s.runtime.db = .ok db' ∧
        db'.plans = s.runtime.db.plans ∧ db'.outbox = s.runtime.db.outbox ∧
        askedRequest question.text r ∈ db'.clarifications :=
    ⟨_, setClarificationQuestion_eq_ok.mpr ⟨p₁, r, turn, hget, hr,
      Table.get?_eq_some.mpr ⟨hturn, hturnId.trans hleft.same.turnId.symm⟩, hst, hturnSt, rfl⟩,
      rfl, rfl,
      (Table.mem_save_of_mem (r := askedRequest question.text r) hrm rfl).mpr (.inl rfl)⟩
  refine ⟨db', hset, ?_⟩
  let a : WorkflowAction := .setClarificationQuestion p.planId question
  have hstep : (workflows config).step s a = some (s.after a (a.transaction s.runtime.db)) := rfl
  have htx : a.transaction s.runtime.db = .ok db' := hset
  rw [htx] at hstep
  have hs' : (workflows config).Reachable (s.after a (.ok db')) := .step hs trivial hstep
  have hmem : p₁ ∈ db'.plans := hplans ▸ hleft.mem
  have hread : readResult p₁.planId p₁.turnId db' = .ok (planResult p₁ db') :=
    readResult_reachable hs' hmem
  have hrequest : db'.getClarificationByPlanId r.sourcePlanId = some (askedRequest question.text r) :=
    getClarification_of_mem (workflow_clarified hs') hasked
  have hquestion : (planResult p₁ db').clarificationQuestion = some question.text := by
    rw [planResult, hleft.same.planId, ← hrp, hrequest]
    rfl
  have hretry : (planResult p₁ db').needsRetry = false := by
    rw [← Bool.not_eq_true, needsRetry_iff, hquestion]
    rintro (h | ⟨-, h⟩)
    · exact absurd (hst.symm.trans h) nofun
    · cases h
  rw [hleft.same.planId, hleft.same.turnId] at hread
  rw [finishFromDatabase_of_settled hread hretry]
  refine ⟨p₁, hmem, hleft.same, rfl, .inr (.inr (.inl ⟨hst, by rw [hquestion]; nofun⟩)), ?_⟩
  rw [if_neg (by rw [hst]; nofun)]
  refine eventsFor_of_quiet ?_
  rw [hout]
  exact hleft.quiet

end Settle

/-- The planner asks for a retry with a blank reason, and its calls have neither published the plan
nor marked it unsupported. -/
def BlankRetry (context : AgentToolContext) (run : PlannerRun) (db : Db) : Prop :=
  ∃ reason, run.ending = .retryRequested reason ∧ PyString.isBlank reason.text = true ∧
    ∃ p' ∈ (runTools context run.calls db).plans, p'.planId = context.planId ∧
      (p'.status = .planning ∨ p'.status = .needsClarification)

/-- **A planner run settles its plan**, unless it asks for a retry with a blank reason. -/
theorem planner_run_settles (hs : (workflows config).Reachable s) {p : Plan}
    (hp : p ∈ s.runtime.db.plans) (hst : p.status = .planning) (conversationId : ConversationId)
    (draw : RetryDraw) (run : PlannerRun)
    (hfresh : ∀ ev ∈ s.runtime.db.outbox, ev.eventId ≠ draw.newEventId)
    (hquestion : ∀ question, run.ending = .returned (some question) →
      clarificationAccepted ⟨p.planId, p.turnId, conversationId⟩ run.calls s.runtime.db = true) :
    Settled p (runExistingPlan draw ⟨p.planId, p.turnId, conversationId⟩ run s.runtime.db) ↔
      ¬ BlankRetry ⟨p.planId, p.turnId, conversationId⟩ run s.runtime.db := by
  obtain ⟨p₁, hleft⟩ := tools_left ⟨p.planId, p.turnId, conversationId⟩ hs hp hst rfl
    run.calls
  obtain ⟨s₁, hs₁, hdb₁⟩ := runTools_reachable ⟨p.planId, p.turnId, conversationId⟩ hs
    run.calls
  rw [← hdb₁] at hleft
  simp only [runExistingPlan, BlankRetry, ← hdb₁]
  constructor
  · rintro ⟨p', -, -, hok, -⟩ ⟨reason, hending, hblank, q, hq, hid, hqst⟩
    obtain rfl : q = p₁ := Table.eq_of_key hq hleft.mem (hid.trans hleft.same.planId.symm)
    have hread := readResult_reachable hs₁ hleft.mem
    rw [hleft.same.planId, hleft.same.turnId] at hread
    obtain ⟨failure, hmark⟩ := markPlanRetryPending_blank draw.newEventId draw.resolvedAt
      draw.availableAt p.planId s₁.runtime.db hblank
    simp only [hending, finishFromDatabase_of_retry hread (hleft.needsRetry hqst), hmark] at hok
    cases hok
  · intro hnot
    have hfinish : ∀ reason : BoundedText, (PyString.isBlank reason.text = false ∨
        p₁.status = .ready ∨ p₁.status = .unsupported) →
        Settled p (finishFromDatabase draw p.planId p.turnId reason s₁.runtime.db) := by
      intro reason hreason
      rcases hleft.status with ⟨-, hst₁ | hst₁⟩ | ⟨-, hst₁⟩
      · refine finish_retry hs₁ hleft (.inl hst₁) (hreason.resolve_right fun h => ?_) hfresh
        rcases h with h | h <;> rw [hst₁] at h <;> cases h
      · exact finish_settled hs₁ hleft hst₁
      · refine finish_retry hs₁ hleft (.inr hst₁) (hreason.resolve_right fun h => ?_) hfresh
        rcases h with h | h <;> rw [hst₁] at h <;> cases h
    cases hending : run.ending with
    | raised => exact hfinish systemExceptionReason (.inl (by decide))
    | retryRequested reason =>
      refine hfinish reason ?_
      by_cases hblank : PyString.isBlank reason.text = true
      · refine .inr ?_
        have hlive : ¬ (p₁.status = .planning ∨ p₁.status = .needsClarification) := fun hst₁ =>
          hnot ⟨reason, hending, hblank, p₁, hleft.mem, hleft.same.planId, hst₁⟩
        rcases hleft.status with ⟨-, hst₁ | hst₁⟩ | ⟨-, hst₁⟩
        · exact absurd (.inl hst₁) hlive
        · exact hst₁
        · exact absurd (.inr hst₁) hlive
      · exact .inl (eq_false_of_ne_true hblank)
    | returned question =>
      cases question with
      | none => exact hfinish notCalledReason (.inl (by decide))
      | some question =>
        have hst₁ : p₁.status = .needsClarification := by
          rcases hleft.status with ⟨hflag, -⟩ | ⟨-, hst₁⟩
          · rw [hquestion question hending] at hflag
            cases hflag
          · exact hst₁
        by_cases hblank : PyString.isBlank question.text = true
        · simp only [writeQuestion, hblank, if_true]
          exact hfinish notCalledReason (.inl (by decide))
        · obtain ⟨db', hset, hsettled⟩ := finish_questioned draw notCalledReason hs₁ hleft hst₁ question
          simp only [writeQuestion, if_neg hblank, hset]
          exact hsettled

/-! ## A blank reason -/

/-- The first message has been routed, and a plan is being planned. -/
def planningStarted : WorkflowState := nothingSent.afterAll sendFirstMessage

theorem planningStarted_reachable : (workflows defaultConfig).Reachable planningStarted :=
  reachable_of_workflowRun sendFirstMessage rfl

/-- The planner decides on a retry, and gives a blank as the reason. -/
def blankRetry : PlannerRun := ⟨[], .retryRequested ⟨" ", by decide⟩⟩

/-- The call raises, the plan is still planned, and nothing will resume it. -/
theorem blank_retry_strands :
    ∃ s : WorkflowState, (workflows defaultConfig).Reachable s ∧
      (s.runtime.db.plans.rows.map fun p => (p.planId, p.status)) = [(1, .planning)] ∧
      (runExistingPlan ⟨1, 0, 0⟩ ⟨1, 1, 1⟩ blankRetry s.runtime.db).1 =
        .error (.applicationError 400 "失败原因不能为空" "invalid_plan_failure_reason") ∧
      ((runExistingPlan ⟨1, 0, 0⟩ ⟨1, 1, 1⟩ blankRetry s.runtime.db).2.plans.rows.map fun p =>
        p.status) = [.planning] ∧
      (runExistingPlan ⟨1, 0, 0⟩ ⟨1, 1, 1⟩ blankRetry s.runtime.db).2.outbox.rows = [] :=
  ⟨planningStarted, planningStarted_reachable, rfl, rfl, rfl, rfl⟩

/-- The planner asks for a clarification, and words the question. -/
def askWithQuestion : PlannerRun :=
  ⟨[.markPlanNeedsClarification 1 .resource ⟨"two files match", by decide⟩ ["file"] []],
    .returned (some ⟨"Which file?", by decide⟩)⟩

theorem planner_run_settles_asked :
    ∃ p ∈ planningStarted.runtime.db.plans, p.status = .planning ∧
      Settled p (runExistingPlan ⟨1, 0, 0⟩ ⟨p.planId, p.turnId, 1⟩ askWithQuestion
        planningStarted.runtime.db) := by
  refine ⟨_, .head _, rfl, ?_⟩
  refine (planner_run_settles planningStarted_reachable (.head _) rfl 1 ⟨1, 0, 0⟩ askWithQuestion
    nofun fun _ _ => rfl).mpr ?_
  rintro ⟨reason, hending, -⟩
  cases hending

end DocFlow.Workflow
