import DocFlow.TaskRuntime.Ownership
import DocFlow.Planning.Marks

/-!
# The tables of a workflow

A `View` is what the planner, the user and the runtime share: turns, plans, tasks, clarification
requests and the requests for a revision in the outbox.  `Worked` says what a transaction of
the runtime does to it (`runtime_worked`): a plan that is ready or running moves on, its tasks move
with it, and a plan that gives up asks for its next revision.
-/

namespace DocFlow.Workflow

open Planning TaskRuntime

structure View where
  turns : Table ConversationTurn.turnId
  plans : Table Plan.planId
  tasks : Table Task.taskId
  clarifications : Table ClarificationRequest.clarificationId
  replans : List ReplanRequested

/-- The request for a revision that an event carries. -/
def replanOf (ev : OutboxEvent) : Option ReplanRequested :=
  match ev.eventType, ev.payload with
  | .replanRequested, .replan payload => some ⟨ev.eventId, payload⟩
  | _, _ => none

def requestsIn (outbox : Table OutboxEvent.eventId) : List ReplanRequested :=
  outbox.rows.filterMap replanOf

def view (db : Db) : View where
  turns := db.conversationTurns
  plans := db.plans
  tasks := db.tasks
  clarifications := db.clarifications
  replans := requestsIn db.outbox

theorem requestsIn_insert {outbox outbox' : Table OutboxEvent.eventId} {ev : OutboxEvent}
    (h : outbox.insert ev = some outbox') : requestsIn outbox' = requestsIn outbox ++ (replanOf ev).toList := by
  rw [requestsIn, Table.rows_insert h, List.filterMap_append, requestsIn]
  cases hev : replanOf ev <;> simp [hev]

theorem replanOf_wakeup (ev : OutboxEvent) (h : ev.eventType ≠ .replanRequested) :
    replanOf ev = none := by
  unfold replanOf
  split
  · next htype _ => exact absurd htype h
  · rfl

theorem mem_replans_of_request {db : Db} {eventId : EventId} {event : ReplanRequested}
    (h : replanRequest db eventId = some event) : event ∈ requestsIn db.outbox := by
  unfold replanRequest at h
  split at h
  · next hget =>
    obtain rfl := Option.some.inj h
    obtain ⟨hmem, hid⟩ := Table.get?_eq_some.mp hget
    exact List.mem_filterMap.mpr ⟨_, hmem, by rw [← hid]; rfl⟩
  · cases h

/-! ## What the runtime does -/

/-- The columns of a plan that are written once. -/
structure SamePlan (p p' : Plan) : Prop where
  planId : p'.planId = p.planId
  workflowId : p'.workflowId = p.workflowId
  turnId : p'.turnId = p.turnId
  parentPlanId : p'.parentPlanId = p.parentPlanId
  revision : p'.revision = p.revision

theorem SamePlan.refl (p : Plan) : SamePlan p p := ⟨rfl, rfl, rfl, rfl, rfl⟩

theorem SamePlan.trans {p q r : Plan} (h : SamePlan p q) (g : SamePlan q r) : SamePlan p r :=
  ⟨g.planId.trans h.planId, g.workflowId.trans h.workflowId, g.turnId.trans h.turnId,
    g.parentPlanId.trans h.parentPlanId, g.revision.trans h.revision⟩

/-- The statuses in which the runtime works on a plan. -/
def isWorking : PlanStatus → Bool
  | .ready | .running => true
  | _ => false

/-- The statuses the runtime moves a plan to. -/
def isWorked : PlanStatus → Bool
  | .running | .completed | .replanPending => true
  | _ => false

structure PlanWork (p p' : Plan) : Prop where
  same : SamePlan p p'
  status : p' = p ∨ isWorking p.status = true ∧ isWorked p'.status = true

/-- A task moves with its plan, or goes back to the queue while the plan is ready. -/
structure TaskWork (v v' : View) (t t' : Task) : Prop where
  taskId : t'.taskId = t.taskId
  planId : t'.planId = t.planId
  sequence : t'.sequence = t.sequence
  moved : t' = t ∨ ∃ p ∈ v.plans, p.planId = t.planId ∧ isWorking p.status = true ∧
    (t.status = .retryWait ∨ ∃ p' ∈ v'.plans, p'.planId = p.planId ∧ isWorked p'.status = true)

/-- The payload asks for the next revision of the plan. -/
structure Asks (p : Plan) (r : ReplanPayload) : Prop where
  previousPlanId : r.previousPlanId = p.planId
  workflowId : r.workflowId = p.workflowId
  rootTurnId : r.rootTurnId = p.turnId
  nextRevision : r.nextRevision = p.revision + 1

structure Worked (v v' : View) : Prop where
  turns : v'.turns = v.turns
  clarifications : v'.clarifications = v.clarifications
  plans : Table.Rewrites PlanWork v.plans v'.plans
  tasks : Table.Rewrites (TaskWork v v') v.tasks v'.tasks
  replans : v'.replans = v.replans ∨ ∃ p ∈ v.plans, ∃ p' ∈ v'.plans, ∃ ev,
    p'.planId = p.planId ∧ p.status = .running ∧ p'.status = .replanPending ∧
    v'.replans = v.replans ++ [ev] ∧ Asks p ev.payload

theorem PlanWork.refl (p : Plan) : PlanWork p p := ⟨.refl p, .inl rfl⟩

theorem TaskWork.refl (v v' : View) (t : Task) : TaskWork v v' t t := ⟨rfl, rfl, rfl, .inl rfl⟩

/-- Executions, inbox and wake-ups are not in the view. -/
theorem Worked.of_eq {db db' : Db} (hturns : db'.conversationTurns = db.conversationTurns)
    (hplans : db'.plans = db.plans) (htasks : db'.tasks = db.tasks)
    (hclarifications : db'.clarifications = db.clarifications)
    (hreplans : requestsIn db'.outbox = requestsIn db.outbox) : Worked (view db) (view db') where
  turns := hturns
  clarifications := hclarifications
  plans := .of_eq (fun p _ => .refl p) hplans
  tasks := .of_eq (fun t _ => .refl _ _ t) htasks
  replans := .inl hreplans

theorem Worked.of_inboxOnly {db db' : Db} (h : InboxOnly db db') : Worked (view db) (view db') :=
  .of_eq h.conversationTurns h.plans h.tasks h.clarifications (by rw [h.outbox])

/-- Recording an event afterwards changes nothing. -/
theorem view_of_inboxOnly {db db' : Db} (h : InboxOnly db db') : view db' = view db := by
  simp only [view, h.conversationTurns, h.plans, h.tasks, h.clarifications, h.outbox]

/-- The running task of a plan ends, and the plan with it or not. -/
theorem Worked.of_rows {db db' : Db} {p : Plan} {t : Task} (p' : Plan) (t' : Task)
    (hp : p ∈ db.plans) (ht : t ∈ db.tasks) (hsame : SamePlan p p') (hst : p.status = .running)
    (hst' : isWorked p'.status = true) (htp : t.planId = p.planId) (hid : t'.taskId = t.taskId)
    (hpid : t'.planId = t.planId) (hseq : t'.sequence = t.sequence)
    (hturns : db'.conversationTurns = db.conversationTurns) (hplans : db'.plans = db.plans.save p')
    (htasks : db'.tasks = db.tasks.save t') (hclarifications : db'.clarifications = db.clarifications)
    (hreplans : requestsIn db'.outbox = requestsIn db.outbox ∨ p'.status = .replanPending ∧
      ∃ ev, requestsIn db'.outbox = requestsIn db.outbox ++ [ev] ∧ Asks p ev.payload) :
    Worked (view db) (view db') := by
  have hp' : p' ∈ (view db').plans := by
    show p' ∈ db'.plans
    rw [hplans]
    exact (Table.mem_save_of_mem hp hsame.planId).mpr (.inl rfl)
  have hworking : isWorking p.status = true := by rw [hst]; rfl
  refine ⟨hturns, hclarifications, ?_, ?_, ?_⟩
  · show Table.Rewrites PlanWork db.plans db'.plans
    rw [hplans]
    exact .save (fun x _ => .refl x) hp hsame.planId ⟨hsame, .inr ⟨hworking, hst'⟩⟩
  · show Table.Rewrites (TaskWork (view db) (view db')) db.tasks db'.tasks
    rw [htasks]
    refine .save (fun x _ => .refl _ _ x) ht hid ⟨hid, hpid, hseq, .inr ?_⟩
    exact ⟨p, hp, htp.symm, hworking, .inr ⟨p', hp', hsame.planId, hst'⟩⟩
  · rcases hreplans with hsame' | ⟨hpending, ev, hevs, hasks⟩
    · exact .inl hsame'
    · exact .inr ⟨p, hp, p', hp', ev, hsame.planId, hst, hpending, hevs, hasks⟩

section Runtime

variable {config : RuntimeConfig} {db db' : Db}

theorem outbox_append {ev : OutboxEvent} (h : db.addOutbox ev = .ok db') :
    ∃ outbox, db' = db.setOutbox outbox ∧
      requestsIn outbox = requestsIn db.outbox ++ (replanOf ev).toList := by
  obtain ⟨outbox, hout, rfl⟩ := Db.addOutbox_eq_ok.mp h
  exact ⟨outbox, rfl, requestsIn_insert hout⟩

/-- The plan and the task behind an admitted outcome. -/
theorem running_plan (hc : Consistent config.registry db) {p : Plan} {t : Task}
    (hp : p ∈ db.plans) (ht : t ∈ db.tasks) (hcur : p.currentTaskId = some t.taskId) :
    p.status = .running ∧ t.planId = p.planId := by
  obtain ⟨hrun, x, hx, hid, hxp, -⟩ := hc.current p hp _ hcur
  exact ⟨hrun, by rw [← Table.eq_of_key hx ht hid, hxp]⟩

theorem complete_worked (hc : Consistent config.registry db) {newEventId : EventId} {clock : Clock}
    {snapshot : Snapshot} {outputJson : OutputJson} {resourceRefs : List String}
    (h : complete newEventId clock snapshot outputJson resourceRefs db = .ok db') :
    Worked (view db) (view db') := by
  obtain ⟨p, t, e, base, hlock, rfl, h⟩ := complete_cases h
  obtain ⟨hp, ht, -, hcur, -⟩ := lockExecution_eq_ok.mp hlock
  have hpm := Table.mem_of_get? hp
  have htm := Table.mem_of_get? ht
  obtain ⟨hrun, htp⟩ := running_plan hc hpm htm hcur
  have hsame : SamePlan p (releasePlan p) := ⟨rfl, rfl, rfl, rfl, rfl⟩
  have hstill : isWorked (releasePlan p).status = true := by
    show isWorked p.status = true
    rw [hrun]
    rfl
  rcases h with ⟨-, h⟩ | ⟨-, h⟩ | ⟨-, rfl⟩
  · obtain ⟨outbox, rfl, hreplans⟩ := outbox_append h
    refine .of_rows (releasePlan p) (succeedTask (clock.read 0) outputJson t) hpm htm hsame hrun
      hstill htp rfl rfl rfl rfl rfl rfl rfl (.inl ?_)
    exact hreplans.trans (List.append_nil _)
  · obtain ⟨outbox, rfl, hreplans⟩ := outbox_append h
    refine .of_rows (completePlan (clock.read 0) p) (succeedTask (clock.read 0) outputJson t) hpm htm
      ⟨rfl, rfl, rfl, rfl, rfl⟩ hrun rfl htp rfl rfl rfl rfl (Table.save_save rfl) rfl rfl (.inl ?_)
    exact hreplans.trans (List.append_nil _)
  · exact .of_rows (releasePlan p) (succeedTask (clock.read 0) outputJson t) hpm htm hsame hrun
      hstill htp rfl rfl rfl rfl rfl rfl rfl (.inl rfl)

/-- A failure is retried by a wake-up, or asks for the next revision. -/
theorem gaveUp_worked (hc : Consistent config.registry db) {p : Plan} {t t' : Task}
    {e' : TaskExecution} {mid : Db} {errorCode errorMessage : Option String} {ev : OutboxEvent}
    {r : ReplanRequested} (hp : p ∈ db.plans) (ht : t ∈ db.tasks)
    (hcur : p.currentTaskId = some t.taskId)
    (h : (db.saveRows (requestReplan errorCode errorMessage p) t' e').addOutbox ev = .ok mid)
    (hid : t'.taskId = t.taskId) (hpid : t'.planId = t.planId) (hseq : t'.sequence = t.sequence)
    (hev : replanOf ev = some r) (hasks : Asks p r.payload) :
    Worked (view db) (view mid) := by
  obtain ⟨hrun, htp⟩ := running_plan hc hp ht hcur
  obtain ⟨outbox, rfl, hreplans⟩ := outbox_append h
  refine .of_rows (requestReplan errorCode errorMessage p) t' hp ht ⟨rfl, rfl, rfl, rfl, rfl⟩ hrun
    rfl htp hid hpid hseq rfl rfl rfl rfl (.inr ⟨rfl, r, ?_, hasks⟩)
  rw [hev] at hreplans
  exact hreplans

theorem released_worked (hc : Consistent config.registry db) {p : Plan} {t t' : Task}
    {e' : TaskExecution} {mid : Db} {ev : OutboxEvent} (hp : p ∈ db.plans) (ht : t ∈ db.tasks)
    (hcur : p.currentTaskId = some t.taskId)
    (h : (db.saveRows (releasePlan p) t' e').addOutbox ev = .ok mid)
    (hid : t'.taskId = t.taskId) (hpid : t'.planId = t.planId) (hseq : t'.sequence = t.sequence)
    (hev : replanOf ev = none) :
    Worked (view db) (view mid) := by
  obtain ⟨hrun, htp⟩ := running_plan hc hp ht hcur
  obtain ⟨outbox, rfl, hreplans⟩ := outbox_append h
  refine .of_rows (releasePlan p) t' hp ht ⟨rfl, rfl, rfl, rfl, rfl⟩ hrun ?_ htp hid hpid hseq rfl
    rfl rfl rfl (.inl ?_)
  · show isWorked p.status = true
    rw [hrun]
    rfl
  · rw [hev] at hreplans
    exact hreplans.trans (List.append_nil _)

theorem fail_worked (hc : Consistent config.registry db) {settings : RuntimeSettings}
    {newEventId : EventId} {clock : Clock} {snapshot : Snapshot} {error : TaskExecutionError}
    (h : fail settings newEventId clock snapshot error db = .ok db') :
    Worked (view db) (view db') := by
  obtain ⟨p, t, e, hlock, h⟩ := fail_cases h
  obtain ⟨hp, ht, -, hcur, -⟩ := lockExecution_eq_ok.mp hlock
  rcases h with ⟨-, -, h⟩ | ⟨-, c, h⟩
  · exact released_worked hc (Table.mem_of_get? hp) (Table.mem_of_get? ht) hcur h rfl rfl rfl rfl
  · exact gaveUp_worked hc (Table.mem_of_get? hp) (Table.mem_of_get? ht) hcur h rfl rfl rfl rfl
      ⟨rfl, rfl, rfl, rfl⟩

theorem completeCompensation_worked (hc : Consistent config.registry db)
    {settings : RuntimeSettings} {newEventId : EventId} {clock : Clock} {snapshot : Snapshot}
    {eventId : Option EventId} {o : ExecuteOutcome}
    (h : completeCompensation settings newEventId clock snapshot eventId db = .ok (o, db')) :
    Worked (view db) (view db') := by
  obtain ⟨p, t, e, mid, hlock, hinbox, h⟩ := completeCompensation_cases h
  obtain ⟨hp, ht, -, hcur, -⟩ := lockCompensationToken_eq_ok.mp hlock
  rw [view_of_inboxOnly (recordInbox_inboxOnly hinbox)]
  rcases h with ⟨-, -, -, h⟩ | ⟨-, -, h⟩
  · exact released_worked hc (Table.mem_of_get? hp) (Table.mem_of_get? ht) hcur h rfl rfl rfl rfl
  · exact gaveUp_worked hc (Table.mem_of_get? hp) (Table.mem_of_get? ht) hcur h rfl rfl rfl rfl
      ⟨rfl, rfl, rfl, rfl⟩

theorem handleCompensationFailure_worked {settings : RuntimeSettings} {newEventId : EventId}
    {clock : Clock} {snapshot : Snapshot} {eventId : Option EventId} {error : String}
    {attempt : Nat} {o : ExecuteOutcome}
    (h : handleCompensationFailure settings newEventId clock snapshot eventId error attempt db =
      .ok (o, db')) : Worked (view db) (view db') := by
  obtain ⟨p, t, e, -, -, h⟩ := handleCompensationFailure_cases h
  rcases h with ⟨-, -, h⟩ | ⟨-, -, mid, hmid, h⟩
  · rw [view_of_inboxOnly (recordInboxOnce_inboxOnly h)]
    exact .of_eq rfl rfl rfl rfl rfl
  · rw [view_of_inboxOnly (recordInboxOnce_inboxOnly h)]
    obtain ⟨outbox, rfl, hreplans⟩ := outbox_append hmid
    exact .of_eq rfl rfl rfl rfl (hreplans.trans (List.append_nil _))

/-- The row of a task after the waiting tasks of a plan are put back. -/
def Resumed (planId : PlanId) (t t' : Task) : Prop :=
  t' = t ∨ t.planId = planId ∧ t.status = .retryWait ∧ t' = { t with status := .pending }

theorem resumeRetrying_rewrites (planId : PlanId) (db : Db) :
    Table.Rewrites (Resumed planId) db.tasks (resumeRetrying planId db).tasks := by
  refine Table.Rewrites.mapRows (Db.withStatus_taskId _ _) fun t ht => ?_
  unfold Db.withStatus
  split
  · next hin =>
    obtain ⟨x, hx, hid⟩ := List.mem_map.mp hin
    obtain ⟨hxm, hxp, hxst⟩ := Db.mem_listByPlanIdAndStatus.mp hx
    obtain rfl : x = t := Table.eq_of_key hxm ht hid
    exact .inr ⟨hxp, hxst, rfl⟩
  · exact .inl rfl

theorem Resumed.taskWork {v v' : View} {p : Plan} {t t' : Task} (hp : p ∈ v.plans)
    (hst : isWorking p.status = true) (h : Resumed p.planId t t') : TaskWork v v' t t' := by
  rcases h with rfl | ⟨htp, hwait, rfl⟩
  · exact .refl v v' _
  · exact ⟨rfl, rfl, rfl, .inr ⟨p, hp, htp.symm, hst, .inl hwait⟩⟩

theorem isWorking_of {status : PlanStatus} (h : status = .ready ∨ status = .running) :
    isWorking status = true := by
  rcases h with rfl | rfl <;> rfl

theorem Recovers.view_eq {registry : CapabilityRegistry} {now : Time} {p : Plan} {T : TaskId}
    {o : Option RecoveryClaim} (h : Recovers registry now p T db o db') : view db' = view db := by
  cases h <;> rfl

theorem ClaimStep.worked {ids : ClaimIds} {clock : Clock} {call : ExecuteNextInput}
    {r : ClaimNextTaskResult} (h : ClaimStep config.registry ids clock call db r db') :
    Worked (view db) (view db') := by
  cases h with
  | skipped _ _ _ _ hdb => exact .of_inboxOnly (recordAndCommitIfEvent_inboxOnly hdb)
  | locked _ _ _ _ _ _ _ _ _ hdb => exact .of_inboxOnly (recordAndCommitIfEvent_inboxOnly hdb)
  | busy _ _ _ _ _ _ _ hdb => exact .of_inboxOnly (recordAndCommitIfEvent_inboxOnly hdb)
  | required _ _ _ _ _ _ _ hrec =>
    rw [Recovers.view_eq hrec]
    exact .of_eq rfl rfl rfl rfl rfl
  | mismatched _ _ _ written _ _ _ _ hrec _ hdb =>
    have hview : view db' = view db := by
      rcases recordAndCommitIfEvent_cases hdb with rfl | hdb
      · rfl
      · rw [view_of_inboxOnly hdb, Recovers.view_eq hrec]
    rw [hview]
    exact .of_eq rfl rfl rfl rfl rfl
  | idle p _ hp _ _ hst _ hdb =>
    rcases hdb with ⟨-, rfl⟩ | hdb
    · exact .of_eq rfl rfl rfl rfl rfl
    · rw [view_of_inboxOnly (recordInbox_inboxOnly hdb)]
      refine ⟨rfl, rfl, .of_eq (fun x _ => .refl x) rfl, ?_, .inl rfl⟩
      exact (resumeRetrying_rewrites p.planId db).trans (S := Eq) (.of_eq (fun _ _ => rfl) rfl)
        fun t t' _ _ ht heq => heq ▸ ht.taskWork (Table.mem_of_get? hp) (isWorking_of hst)
  | claimed p t d c db₁ db₂ _ hp _ _ hst hnext _ h₁ h₂ h₃ =>
    obtain ⟨-, execs, -, rfl⟩ := Db.addExecution_eq_ok.mp h₁
    obtain ⟨outbox, rfl, hreplans⟩ := outbox_append h₂
    rw [view_of_inboxOnly (recordInbox_inboxOnly h₃)]
    obtain ⟨ht, htp, -, -⟩ := Db.getNextRunnable_eq_some hnext
    have hpm := Table.mem_of_get? hp
    have hworking := isWorking_of hst
    have hp' : startPlan clock t p ∈ db.plans.save (startPlan clock t p) :=
      (Table.mem_save_of_mem (r := startPlan clock t p) hpm rfl).mpr (.inl rfl)
    refine ⟨rfl, rfl, ?_, ?_, .inl (hreplans.trans (List.append_nil _))⟩
    · exact .save (fun x _ => .refl x) hpm rfl
        ⟨⟨rfl, rfl, rfl, rfl, rfl⟩, .inr ⟨hworking, rfl⟩⟩
    · -- first the waiting tasks are put back, then one of the pending ones is started
      refine (resumeRetrying_rewrites p.planId db).trans
        (S := fun x y => y = x ∨ x.planId = p.planId ∧ y = startTask d clock x)
        (.save (fun x _ => .inl rfl) ht rfl (.inr ⟨htp, rfl⟩)) ?_
      rintro x y z - hxy (rfl | ⟨hyp, rfl⟩)
      · exact hxy.taskWork hpm hworking
      · have hxp : x.planId = p.planId := by
          rcases hxy with rfl | ⟨hxp, -, -⟩
          · exact hyp
          · exact hxp
        obtain ⟨hid, hpid, hseq, -⟩ : TaskWork (view db) (view db) x y :=
          hxy.taskWork hpm hworking
        exact ⟨hid, hpid, hseq, .inr ⟨p, hpm, hxp.symm, hworking, .inr ⟨_, hp', rfl, rfl⟩⟩⟩

/-- The actions that are not the planner's. -/
def isWork : RuntimeAction → Bool
  | .createPlan .. | .createTask .. | .finalizePlan .. | .prepareRevision .. => false
  | _ => true

/-- **A transaction of the runtime.** -/
theorem runtime_worked (hc : Consistent config.registry db) {a : RuntimeAction}
    (ha : isWork a = true) {s : Option Snapshot} (h : a.transaction config db = .ok (s, db')) :
    Worked (view db) (view db') := by
  cases a with
  | createPlan => cases ha
  | createTask => cases ha
  | finalizePlan => cases ha
  | prepareRevision => cases ha
  | claim ids clock seen call =>
    simp only [RuntimeAction.transaction, bind_eq_ok, Prod.exists, pure_eq_ok, Prod.mk.injEq] at h
    obtain ⟨r, _, hclaim, -, rfl⟩ := h
    rcases claimNext_cases hclaim with ⟨-, -, rfl⟩ | ⟨-, hstep⟩
    · exact .of_eq rfl rfl rfl rfl rfl
    · exact ClaimStep.worked hstep
  | complete newEventId clock snapshot outputJson resourceRefs =>
    obtain ⟨_, hx, he⟩ := map_eq_ok.mp h
    obtain ⟨-, rfl⟩ := Prod.mk.inj he
    exact complete_worked hc hx
  | fail newEventId clock snapshot error =>
    obtain ⟨_, hx, he⟩ := map_eq_ok.mp h
    obtain ⟨-, rfl⟩ := Prod.mk.inj he
    exact fail_worked hc hx
  | requireCompensation snapshot error =>
    obtain ⟨_, hx, he⟩ := map_eq_ok.mp h
    obtain ⟨-, rfl⟩ := Prod.mk.inj he
    obtain ⟨_, _, _, -, rfl⟩ := requireCompensation_cases hx
    exact .of_eq rfl rfl rfl rfl rfl
  | beginCompensation clock snapshot =>
    simp only [RuntimeAction.transaction, bind_eq_ok, Prod.exists, pure_eq_ok, Prod.mk.injEq] at h
    obtain ⟨n, _, hx, -, rfl⟩ := h
    obtain ⟨_, _, _, -, -, rfl⟩ := beginCompensationAttempt_cases hx
    exact .of_eq rfl rfl rfl rfl rfl
  | handleCompensationFailure newEventId clock snapshot eventId error attempt =>
    simp only [RuntimeAction.transaction, bind_eq_ok, Prod.exists, pure_eq_ok, Prod.mk.injEq] at h
    obtain ⟨o, _, hx, -, rfl⟩ := h
    exact handleCompensationFailure_worked hx
  | completeCompensation newEventId clock snapshot eventId =>
    simp only [RuntimeAction.transaction, bind_eq_ok, Prod.exists, pure_eq_ok, Prod.mk.injEq] at h
    obtain ⟨o, _, hx, -, rfl⟩ := h
    exact completeCompensation_worked hc hx

end Runtime

end DocFlow.Workflow
