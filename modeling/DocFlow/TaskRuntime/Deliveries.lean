import DocFlow.TaskRuntime.Workers

/-!
# Deliveries and the inbox

Which event each transaction records (`transaction_records`), and what that is good for: of all the
deliveries of one event, at most one creates an execution (`one_attempt_per_event`).  The
answer of the inbox check plays no part in that; the unique key of the inbox and the
rollback of the claim do.
-/

namespace DocFlow.TaskRuntime

/-! ## Recording an event -/

/-- The runtime has recorded the event. -/
def Recorded (db : Db) (eventId : EventId) : Prop := ⟨consumerName, eventId⟩ ∈ db.inbox

/-- The inbox keeps its rows, and gains at most the given one. -/
structure Records (event : Option InboxEvent) (db db' : Db) : Prop where
  kept : ∀ x ∈ db.inbox, x ∈ db'.inbox
  only : ∀ x ∈ db'.inbox, x ∈ db.inbox ∨ event = some x

/-- The inbox row of an event of the runtime. -/
def inboxRow (eventId : Option EventId) : Option InboxEvent := eventId.map (⟨consumerName, ·⟩)

section Recording

variable {event : Option InboxEvent} {i : Option EventId} {db mid db' : Db}

theorem Records.of_eq (h : db'.inbox = db.inbox) : Records event db db' := by
  refine ⟨fun x hx => ?_, fun x hx => .inl ?_⟩
  · rw [h]
    exact hx
  · rw [← h]
    exact hx

theorem Records.of_inbox (h : Records event mid db') (hmid : mid.inbox = db.inbox) :
    Records event db db' := by
  refine ⟨fun x hx => h.kept x ?_, fun x hx => ?_⟩
  · rw [hmid]
    exact hx
  · rw [← hmid]
    exact h.only x hx

theorem addInbox_records {c : String} {x : EventId} (h : db.addInbox c x = .ok db') :
    Records (some ⟨c, x⟩) db db' ∧ ⟨c, x⟩ ∈ db'.inbox := by
  obtain ⟨table, htable, rfl⟩ := Db.addInbox_eq_ok.mp h
  refine ⟨⟨fun y hy => (Table.mem_insert htable).mpr (.inl hy), fun y hy => ?_⟩, ?_⟩
  · rcases (Table.mem_insert htable).mp hy with hy | rfl
    · exact .inl hy
    · exact .inr rfl
  · exact (Table.mem_insert htable).mpr (.inr rfl)

theorem db_recordInboxOnce_records {c : String} {x : EventId}
    (h : db.recordInboxOnce c x = .ok db') :
    Records (some ⟨c, x⟩) db db' ∧ ⟨c, x⟩ ∈ db'.inbox := by
  unfold Db.recordInboxOnce at h
  split at h
  · next hin =>
    cases h
    exact ⟨.of_eq rfl, Db.inboxExists_iff.mp hin⟩
  · exact addInbox_records h

theorem recordInbox_records (h : recordInbox i db = .ok db') :
    Records (inboxRow i) db db' ∧ ∀ x ∈ i, Recorded db' x := by
  cases i with
  | none =>
    cases h
    exact ⟨.of_eq rfl, nofun⟩
  | some x =>
    obtain ⟨hrec, hin⟩ := addInbox_records h
    exact ⟨hrec, by rintro _ ⟨⟩; exact hin⟩

theorem recordInboxOnce_records (h : recordInboxOnce i db = .ok db') :
    Records (inboxRow i) db db' ∧ ∀ x ∈ i, Recorded db' x := by
  cases i with
  | none =>
    cases h
    exact ⟨.of_eq rfl, nofun⟩
  | some x =>
    obtain ⟨hrec, hin⟩ := db_recordInboxOnce_records h
    exact ⟨hrec, by rintro _ ⟨⟩; exact hin⟩

theorem recordAndCommitIfEvent_records (hmid : mid.inbox = db.inbox)
    (h : recordAndCommitIfEvent i db mid = .ok db') :
    Records (inboxRow i) db db' ∧ ∀ x ∈ i, Recorded db' x := by
  cases i with
  | none =>
    cases h
    exact ⟨.of_eq rfl, nofun⟩
  | some x =>
    obtain ⟨hrec, hin⟩ := addInbox_records h
    exact ⟨hrec.of_inbox hmid, by rintro _ ⟨⟩; exact hin⟩

theorem addOutbox_inbox {ev : OutboxEvent} (h : mid.addOutbox ev = .ok db')
    (hmid : mid.inbox = db.inbox) : db'.inbox = db.inbox := by
  obtain ⟨table, -, rfl⟩ := Db.addOutbox_eq_ok.mp h
  exact hmid

end Recording

/-! ## What each transaction records -/

section Transactions

variable {registry : CapabilityRegistry} {db db' : Db}

theorem Recovers.inbox {now : Time} {p : Plan} {T : TaskId} {o : Option RecoveryClaim}
    (h : Recovers registry now p T db o db') : db'.inbox = db.inbox := by
  cases h <;> rfl

/-- A claim records its event, unless it hands out a recovery. -/
theorem ClaimStep.records {ids : ClaimIds} {clock : Clock} {call : ExecuteNextInput}
    {r : ClaimNextTaskResult} (h : ClaimStep registry ids clock call db r db') :
    Records (inboxRow call.eventId) db db' ∧
      ((∀ recovery, r ≠ .compensationRequired recovery) → ∀ i ∈ call.eventId, Recorded db' i) := by
  cases h with
  | skipped p _ _ _ hdb =>
    obtain ⟨hrec, hin⟩ := recordAndCommitIfEvent_records rfl hdb
    exact ⟨hrec, fun _ => hin⟩
  | mismatched p T rc written _ _ _ _ hrecovers _ hdb =>
    obtain ⟨hrec, hin⟩ := recordAndCommitIfEvent_records hrecovers.inbox hdb
    exact ⟨hrec, fun _ => hin⟩
  | locked p T s _ _ _ _ _ _ hdb =>
    obtain ⟨hrec, hin⟩ := recordAndCommitIfEvent_records rfl hdb
    exact ⟨hrec, fun _ => hin⟩
  | required p T s _ _ _ _ hrecovers =>
    exact ⟨.of_eq hrecovers.inbox, fun hr => absurd rfl (hr s)⟩
  | busy p T _ _ _ _ _ hdb =>
    obtain ⟨hrec, hin⟩ := recordAndCommitIfEvent_records rfl hdb
    exact ⟨hrec, fun _ => hin⟩
  | idle p _ _ _ _ _ _ hdb =>
    rcases hdb with ⟨hnone, rfl⟩ | hdb
    · refine ⟨.of_eq rfl, fun _ i hi => ?_⟩
      rw [hnone] at hi
      cases hi
    · obtain ⟨hrec, hin⟩ := recordInbox_records hdb
      exact ⟨hrec.of_inbox rfl, fun _ => hin⟩
  | claimed p t d c db₁ db₂ _ _ _ _ _ _ _ h₁ h₂ h₃ =>
    obtain ⟨hrec, hin⟩ := recordInbox_records h₃
    obtain ⟨-, execs, -, rfl⟩ := Db.addExecution_eq_ok.mp h₁
    exact ⟨hrec.of_inbox (addOutbox_inbox h₂ rfl), fun _ => hin⟩

/-- A claim that creates an execution has found its event unrecorded. -/
theorem ClaimStep.fresh {ids : ClaimIds} {clock : Clock} {call : ExecuteNextInput}
    {task : TaskSnapshot} (h : ClaimStep registry ids clock call db (.claimed task) db') :
    ∀ i ∈ call.eventId, ¬ Recorded db i := by
  cases h with
  | claimed p t d c db₁ db₂ _ _ _ _ _ _ _ h₁ h₂ h₃ =>
    intro i hi
    have hfresh := recordInbox_fresh h₃ i hi
    obtain ⟨-, execs, -, rfl⟩ := Db.addExecution_eq_ok.mp h₁
    rw [← Bool.not_eq_true, Db.inboxExists_iff, addOutbox_inbox h₂ rfl] at hfresh
    exact hfresh

variable {settings : RuntimeSettings} {newEventId : EventId} {clock : Clock} {snapshot : Snapshot}
  {eventId : Option EventId} {o : ExecuteOutcome}

theorem handleCompensationFailure_records {error : String} {attempt : Nat}
    (h : handleCompensationFailure settings newEventId clock snapshot eventId error attempt db =
      .ok (o, db')) : Records (inboxRow eventId) db db' ∧ ∀ i ∈ eventId, Recorded db' i := by
  obtain ⟨p, t, e, -, -, h⟩ := handleCompensationFailure_cases h
  rcases h with ⟨-, -, h⟩ | ⟨-, -, mid, hmid, h⟩
  · obtain ⟨hrec, hin⟩ := recordInboxOnce_records h
    exact ⟨hrec.of_inbox rfl, hin⟩
  · obtain ⟨hrec, hin⟩ := recordInboxOnce_records h
    exact ⟨hrec.of_inbox (addOutbox_inbox hmid rfl), hin⟩

theorem completeCompensation_records
    (h : completeCompensation settings newEventId clock snapshot eventId db = .ok (o, db')) :
    Records (inboxRow eventId) db db' ∧ ∀ i ∈ eventId, Recorded db' i := by
  obtain ⟨p, t, e, mid, -, hinbox, h⟩ := completeCompensation_cases h
  obtain ⟨hrec, hin⟩ := recordInbox_records hinbox
  have hmid : mid.inbox = db.inbox := by
    rcases h with ⟨-, -, -, h⟩ | ⟨-, -, h⟩
    · exact addOutbox_inbox h rfl
    · exact addOutbox_inbox h rfl
  exact ⟨hrec.of_inbox hmid, hin⟩

end Transactions

/-- The inbox row that a transaction writes, if it writes one. -/
def RuntimeAction.record : RuntimeAction → Option InboxEvent
  | claim _ _ _ call => inboxRow call.eventId
  | handleCompensationFailure _ _ _ eventId _ _ | completeCompensation _ _ _ eventId =>
    inboxRow eventId
  | prepareRevision _ _ _ eventId => some ⟨Planning.replanConsumerName, eventId⟩
  | _ => none

section Records

variable {db mid db' : Db}

/-- Neither the executions nor the inbox have changed. -/
structure Undisturbed (db db' : Db) : Prop where
  taskExecutions : db'.taskExecutions = db.taskExecutions
  inbox : db'.inbox = db.inbox

theorem createPlan_undisturbed {p : Plan} (h : mid.createPlan p = .ok db')
    (hmid : Undisturbed db mid) : Undisturbed db db' := by
  rw [Db.createPlan] at h
  split at h
  · cases h
  · simp only [bind_eq_ok, pure_eq_ok] at h
    obtain ⟨plans, -, rfl⟩ := h
    exact ⟨hmid.taskExecutions, hmid.inbox⟩

theorem planning_createPlan_undisturbed {newPlanId : PlanId} {newWorkflowId : WorkflowId}
    {command : Planning.CreatePlanInput}
    (h : Planning.createPlan newPlanId newWorkflowId command db = .ok db') :
    Undisturbed db db' := by
  simp only [Planning.createPlan, bind_eq_ok] at h
  obtain ⟨_, -, _, -, h⟩ := h
  exact createPlan_undisturbed h ⟨rfl, rfl⟩

theorem createDocumentTask_undisturbed {code : PlanningCapabilityCode} {newTaskId : TaskId}
    {command : Planning.CreateDocumentTaskInput}
    (h : Planning.createDocumentTask code newTaskId command db = .ok db') :
    Undisturbed db db' := by
  simp only [Planning.createDocumentTask, bind_eq_ok] at h
  obtain ⟨p, -, -, -, -, -, -, -, -, -, -, -, -, -, h⟩ := h
  rw [Planning.asSequenceConflict_eq_ok, Db.createTask] at h
  split at h
  · cases h
  · simp only [bind_eq_ok, pure_eq_ok] at h
    obtain ⟨tasks, -, rfl⟩ := h
    exact ⟨rfl, rfl⟩

theorem finalizePlan_undisturbed {newDependencyId : Nat → DependencyId} {newEventId : EventId}
    {now : Time} {command : Planning.FinalizePlanInput}
    (h : Planning.finalizePlan newDependencyId newEventId now command db = .ok db') :
    Undisturbed db db' := by
  simp only [Planning.finalizePlan, bind_eq_ok] at h
  obtain ⟨p, -, -, -, -, -, -, -, -, -, -, -, pairs, -, turn, -, -, -, mid, hdeps, h⟩ := h
  obtain ⟨table, rfl, -⟩ := Db.addDependencies_eq_ok hdeps
  obtain ⟨outbox, -, rfl⟩ := Db.addOutbox_eq_ok.mp h
  exact ⟨rfl, rfl⟩

theorem prepareRevision_records {newPlanId : PlanId} {now : Time} {seen : Bool}
    {event : Planning.ReplanRequested}
    (h : Planning.prepareRevision newPlanId now seen event db = .ok db') :
    db'.taskExecutions = db.taskExecutions ∧
      Records (some ⟨Planning.replanConsumerName, event.eventId⟩) db db' := by
  rw [Planning.prepareRevision] at h
  split at h
  · rw [pure_eq_ok.mp h]
    exact ⟨rfl, .of_eq rfl⟩
  · simp only [bind_eq_ok] at h
    obtain ⟨p, -, turn, -, -, -, h⟩ := h
    split at h
    · exact ⟨(db_recordInboxOnce_inboxOnly h).taskExecutions,
        (db_recordInboxOnce_records h).1.of_inbox rfl⟩
    · split at h
      · exact ⟨(db_recordInboxOnce_inboxOnly h).taskExecutions, (db_recordInboxOnce_records h).1⟩
      · simp only [bind_eq_ok] at h
        obtain ⟨mid, hmid, h⟩ := h
        have hkept : Undisturbed db mid := createPlan_undisturbed hmid ⟨rfl, rfl⟩
        exact ⟨(db_recordInboxOnce_inboxOnly h).taskExecutions.trans hkept.taskExecutions,
          (db_recordInboxOnce_records h).1.of_inbox hkept.inbox⟩

/-- A transaction of the planner leaves the executions alone. -/
theorem planning_records {config : RuntimeConfig} {a : RuntimeAction} {s : Option Snapshot}
    (hplan : a.isPlanning = true) (h : a.transaction config db = .ok (s, db')) :
    db'.taskExecutions = db.taskExecutions ∧ Records a.record db db' := by
  cases a with
  | createPlan newPlanId newWorkflowId command =>
    obtain ⟨_, hx, he⟩ := map_eq_ok.mp h
    obtain ⟨-, rfl⟩ := Prod.mk.inj he
    have hkept := planning_createPlan_undisturbed hx
    exact ⟨hkept.taskExecutions, .of_eq hkept.inbox⟩
  | createTask code newTaskId command =>
    obtain ⟨_, hx, he⟩ := map_eq_ok.mp h
    obtain ⟨-, rfl⟩ := Prod.mk.inj he
    have hkept := createDocumentTask_undisturbed hx
    exact ⟨hkept.taskExecutions, .of_eq hkept.inbox⟩
  | finalizePlan newDependencyId newEventId clock command =>
    obtain ⟨_, hx, he⟩ := map_eq_ok.mp h
    obtain ⟨-, rfl⟩ := Prod.mk.inj he
    have hkept := finalizePlan_undisturbed hx
    exact ⟨hkept.taskExecutions, .of_eq hkept.inbox⟩
  | prepareRevision newPlanId clock seen eventId =>
    simp only [RuntimeAction.transaction] at h
    split at h
    · next event hreq =>
      obtain ⟨_, hx, he⟩ := map_eq_ok.mp h
      obtain ⟨-, rfl⟩ := Prod.mk.inj he
      have hid : event.eventId = eventId := by
        unfold replanRequest at hreq
        split at hreq
        · obtain rfl := Option.some.inj hreq
          rfl
        · cases hreq
      have hrec := prepareRevision_records hx
      rw [hid] at hrec
      exact hrec
    · obtain ⟨-, rfl⟩ := Prod.mk.inj (Except.ok.inj h)
      exact ⟨rfl, .of_eq rfl⟩
  | claim | complete | fail | requireCompensation | beginCompensation
  | handleCompensationFailure | completeCompensation => cases hplan

/-- **A transaction records at most its own event.** -/
theorem transaction_records {config : RuntimeConfig} {a : RuntimeAction} {s : Option Snapshot}
    (h : a.transaction config db = .ok (s, db')) : Records a.record db db' := by
  cases a with
  | createPlan | createTask | finalizePlan | prepareRevision => exact (planning_records rfl h).2
  | claim ids clock seen call =>
    simp only [RuntimeAction.transaction, bind_eq_ok, Prod.exists, pure_eq_ok, Prod.mk.injEq] at h
    obtain ⟨r, _, hx, -, rfl⟩ := h
    rcases claimNext_cases hx with ⟨-, -, rfl⟩ | ⟨-, hx⟩
    · exact .of_eq rfl
    · exact hx.records.1
  | complete newEventId clock snapshot outputJson resourceRefs =>
    obtain ⟨_, hx, he⟩ := map_eq_ok.mp h
    obtain ⟨-, rfl⟩ := Prod.mk.inj he
    obtain ⟨p, t, e, base, -, rfl, h⟩ := complete_cases hx
    refine .of_eq ?_
    rcases h with ⟨-, h⟩ | ⟨-, h⟩ | ⟨-, rfl⟩
    · exact addOutbox_inbox h rfl
    · exact addOutbox_inbox h rfl
    · rfl
  | fail newEventId clock snapshot error =>
    obtain ⟨_, hx, he⟩ := map_eq_ok.mp h
    obtain ⟨-, rfl⟩ := Prod.mk.inj he
    obtain ⟨p, t, e, -, h⟩ := fail_cases hx
    refine .of_eq ?_
    rcases h with ⟨-, -, h⟩ | ⟨-, c, h⟩
    · exact addOutbox_inbox h rfl
    · exact addOutbox_inbox h rfl
  | requireCompensation snapshot error =>
    obtain ⟨_, hx, he⟩ := map_eq_ok.mp h
    obtain ⟨-, rfl⟩ := Prod.mk.inj he
    obtain ⟨p, t, e, -, rfl⟩ := requireCompensation_cases hx
    exact .of_eq rfl
  | beginCompensation clock snapshot =>
    simp only [RuntimeAction.transaction, bind_eq_ok, Prod.exists, pure_eq_ok, Prod.mk.injEq] at h
    obtain ⟨n, _, hx, -, rfl⟩ := h
    obtain ⟨p, t, e, -, -, rfl⟩ := beginCompensationAttempt_cases hx
    exact .of_eq rfl
  | handleCompensationFailure newEventId clock snapshot eventId error attempt =>
    simp only [RuntimeAction.transaction, bind_eq_ok, Prod.exists, pure_eq_ok, Prod.mk.injEq] at h
    obtain ⟨o, _, hx, -, rfl⟩ := h
    exact (handleCompensationFailure_records hx).1
  | completeCompensation newEventId clock snapshot eventId =>
    simp only [RuntimeAction.transaction, bind_eq_ok, Prod.exists, pure_eq_ok, Prod.mk.injEq] at h
    obtain ⟨o, _, hx, -, rfl⟩ := h
    exact (completeCompensation_records hx).1

/-- A step of the runtime keeps the inbox and records at most the event of its action. -/
theorem runtime_step_records {config : RuntimeConfig} {st st' : RuntimeState} {a : RuntimeAction}
    (h : (runtime config).step st a = some st') : Records a.record st.db st'.db := by
  rcases runtime_step_cases h with ⟨s, db', htx, rfl, -⟩ | ⟨f, -, hdb, -⟩
  · exact transaction_records htx
  · rw [hdb]
    exact .of_eq rfl

end Records

/-! ## One attempt for each event -/

/-- The call is on its way to an executor, runs it or has run it. -/
def Phase.ofExecutor : Phase → Bool
  | .claimed _ | .executing _ | .executed _ _ => true
  | _ => false

/-- The call has been handed a recovery. -/
def Phase.ofRecovery : Phase → Bool
  | .recovering _ _ | .begun _ _ _ | .compensating _ _ _ | .compensated _ _ _ _ => true
  | _ => false

def Phase.isReturned : Phase → Bool
  | .returned _ => true
  | _ => false

section Calls

variable {config : RuntimeConfig}

/-- What a step of a call does to its history. -/
theorem CallStep.input {db : Db} {call call' : Call} {a : Option RuntimeAction}
    (h : CallStep config db call a call') : call'.input = call.input := by
  cases h <;> rfl

/-- A call creates an execution by a claim that has recorded its event, and at no other
time. -/
theorem CallStep.created {db : Db} {call call' : Call} {a : Option RuntimeAction}
    (h : CallStep config db call a call') :
    call'.created = call.created ∨
      ∃ ids clock task db', a = some (.claim ids clock false call.input) ∧
        claimNext config.registry ids clock false call.input db = .ok (.claimed task, db') ∧
        call' = { call with phase := .claimed task, created := some task.executionId } := by
  cases h with
  | claimed ids clock seen task db' _ hx =>
    rcases claimNext_cases hx with ⟨-, hr, -⟩ | ⟨rfl, -⟩
    · cases hr
    · exact .inr ⟨ids, clock, task, db', rfl, hx, rfl⟩
  | _ => exact .inl rfl

theorem CallStep.ofExecutor {db : Db} {call call' : Call} {a : Option RuntimeAction}
    (h : CallStep config db call a call')
    (hc : call.phase.ofExecutor = true → call.created ≠ none) :
    call'.phase.ofExecutor = true → call'.created ≠ none := by
  cases h with
  | claimed => exact fun _ => nofun
  | executing task hphase => exact fun _ => hc (by rw [hphase]; rfl)
  | executed task outcome hphase => exact fun _ => hc (by rw [hphase]; rfl)
  | raised => exact hc
  | crashed => exact hc
  | _ => exact nofun

end Calls

/-- The event by which a call has created an execution. -/
def Call.createdBy (call : Call) : Option EventId :=
  if call.created = none then none else call.input.eventId

/-- What the history of the calls says about the inbox. -/
structure Deliveries (st : WorkerState) : Prop where
  once : Once Call.createdBy (Recorded st.runtime.db) st.calls
  executor : ∀ c ∈ st.calls, c.phase.ofExecutor = true → c.created ≠ none

theorem mem_createdBy {call : Call} {e : EventId} :
    e ∈ call.createdBy ↔ call.created ≠ none ∧ call.input.eventId = some e := by
  unfold Call.createdBy
  split <;> simp [*]

theorem Deliveries.setCall {config : RuntimeConfig} {st : WorkerState} {index : Nat}
    {call call' : Call} {a : Option RuntimeAction} {r : RuntimeState} (h : Deliveries st)
    (hcall : st.calls[index]? = some call) (hstep : CallStep config st.runtime.db call a call')
    (hkept : ∀ e, Recorded st.runtime.db e → Recorded r.db e)
    (hclaim : ∀ ids clock task db', a = some (.claim ids clock false call.input) →
      claimNext config.registry ids clock false call.input st.runtime.db =
        .ok (.claimed task, db') → r.db = db') : Deliveries (st.setCall index call' r) := by
  refine ⟨h.once.set hcall hkept fun e he => ?_, fun c hc hphase => ?_⟩
  · -- an execution is created by a claim whose event was not recorded before
    obtain ⟨hcreated, he⟩ := mem_createdBy.mp he
    rw [hstep.input] at he
    rcases hstep.created with hc | ⟨ids, clock, task, db', ha, hx, -⟩
    · rw [hc] at hcreated
      exact .inl (mem_createdBy.mpr ⟨hcreated, he⟩)
    · rcases claimNext_cases hx with ⟨-, hr, -⟩ | ⟨-, hclaimed⟩
      · cases hr
      · have hin : Recorded r.db e := by
          rw [hclaim ids clock task db' ha hx]
          exact hclaimed.records.2 nofun e he
        exact .inr ⟨hclaimed.fresh e he, hin⟩
  · rcases List.mem_or_eq_of_mem_set hc with hc | rfl
    · exact h.executor c hc hphase
    · exact hstep.ofExecutor (h.executor call (List.mem_of_getElem? hcall)) hphase

/-- The database after a claim that has committed. -/
theorem claim_committed {config : RuntimeConfig} {st r : RuntimeState} {ids : ClaimIds} {clock : Clock}
    {seen : Bool} {input : ExecuteNextInput} {result : ClaimNextTaskResult} {db' : Db}
    (hr : (runtime config).step st (.claim ids clock seen input) = some r)
    (hx : claimNext config.registry ids clock seen input st.db = .ok (result, db')) :
    r.db = db' ∧ r.handedOut = result.snapshot?.toList ++ st.handedOut := by
  have htx : (RuntimeAction.claim ids clock seen input).transaction config st.db =
      .ok (result.snapshot?, db') := by
    simp only [RuntimeAction.transaction, hx]
    rfl
  exact committed hr htx

/-- **The step.** -/
theorem Deliveries.step {config : RuntimeConfig} {st st' : WorkerState} {act : WorkerAction}
    (h : Deliveries st) (hstep : (workers config).step st act = some st') : Deliveries st' := by
  have hkept : ∀ {a r}, (runtime config).step st.runtime a = some r →
      ∀ e, Recorded st.runtime.db e → Recorded r.db e :=
    fun hr e he => (runtime_step_records hr).kept _ he
  cases workers_step_cases hstep with
  | planned a r _ _ hr => exact ⟨h.once.mono (hkept hr), h.executor⟩
  | delivered input =>
    refine ⟨h.once.append rfl, fun c hc hphase => ?_⟩
    rcases List.mem_append.mp hc with hc | hc
    · exact h.executor c hc hphase
    · rw [List.mem_singleton.mp hc] at hphase
      cases hphase
  | moved index action call call' _ hcall _ hcases =>
    refine h.setCall hcall hcases (fun _ he => he) fun _ _ _ _ ha => ?_
    cases ha
  | committed index action call call' a r _ hcall _ hcases _ hr =>
    refine h.setCall hcall hcases (hkept hr) fun ids clock task db' ha hx => ?_
    obtain rfl := Option.some.inj ha
    exact (claim_committed hr hx).1

theorem reachable_deliveries {config : RuntimeConfig} {ok : WorkerState → WorkerAction → Prop}
    {st : WorkerState} (h : (workers config).ReachableVia ok st) : Deliveries st := by
  refine h.invariant (P := Deliveries) ?_ fun _ _ _ _ hd _ hs => hd.step hs
  rintro s ⟨-, hcalls⟩
  refine ⟨?_, by simp [hcalls]⟩
  rw [hcalls]
  exact .nil

/-- A transaction that raises changes no table; one that commits leaves its call alive, with an
execution of its own, with a recovery, or returned. -/
theorem CallStep.changes {config : RuntimeConfig} {st r : RuntimeState} {call call' : Call}
    {a : RuntimeAction} (h : CallStep config st.db call (some a) call')
    (hr : (runtime config).step st a = some r) :
    r.db = st.db ∨ (call'.alive = call.alive ∧ (call'.phase.ofExecutor = true ∨
      call'.phase.ofRecovery = true ∨ call'.phase.isReturned = true)) := by
  cases h with
  | claimed => exact .inr ⟨rfl, .inl rfl⟩
  | recovering | required | begun => exact .inr ⟨rfl, .inr (.inl rfl)⟩
  | skipped | completed | failed | concluded | unsuccessful => exact .inr ⟨rfl, .inr (.inr rfl)⟩
  | raised _ f hf =>
    rcases runtime_step_cases hr with ⟨s, db', htx, -, -⟩ | ⟨_, -, hdb, -⟩
    · rw [hf] at htx
      cases htx
    · exact .inl hdb

/-- **One attempt for each event**: of the deliveries of one event, to any number of workers and
among any others, at most one creates an execution, and no other starts an executor.  A step of
a delivery that changes the tables leaves it alive, and unless it has returned it has an
execution of its own or a recovery: a transaction that raises changes nothing, and a delivery that
was handed neither has changed nothing when it raises. -/
theorem one_attempt_per_event (config : RuntimeConfig) (st : WorkerState)
    (h : (workers config).Reachable st) (e : EventId) :
    (∀ (i j : Nat) (c c' : Call), st.calls[i]? = some c → st.calls[j]? = some c' →
      c.input.eventId = some e → c'.input.eventId = some e → c.created ≠ none →
      c'.created ≠ none → i = j) ∧
    (∀ (j : Nat) (c : Call), st.calls[j]? = some c → c.input.eventId = some e → c.created = none →
      c.phase.ofExecutor = false) ∧
    (∀ (j : Nat) (action : CallAction) (st' : WorkerState),
      (workers config).step st (.call j action) = some st' → st'.runtime.db ≠ st.runtime.db →
      ∃ c', st'.calls[j]? = some c' ∧ c'.alive = true ∧ (c'.created ≠ none ∨
        c'.phase.ofRecovery = true ∨ c'.phase.isReturned = true)) := by
  have hdel := reachable_deliveries h
  refine ⟨?_, ?_, ?_⟩
  · intro i j c c' hi hj he he' hc hc'
    exact hdel.once.once i j c c' hi hj e (mem_createdBy.mpr ⟨hc, he⟩) (mem_createdBy.mpr ⟨hc', he'⟩)
  · intro j c hj _ hnone
    by_contra hexec
    exact hdel.executor c (List.mem_of_getElem? hj) (Bool.eq_true_of_not_eq_false hexec) hnone
  · intro j action st' hstep hne
    have hdel' := hdel.step hstep
    cases workers_step_cases hstep with
    | planned a r hact => cases hact
    | delivered input hact => cases hact
    | moved => exact absurd rfl hne
    | committed index _ c c' a r hact hcall halive hcases _ hr =>
      obtain ⟨rfl, rfl⟩ := WorkerAction.call.inj hact
      have hlt : j < st.calls.length := (List.getElem?_eq_some_iff.mp hcall).1
      have hget : (st.setCall j c' r).calls[j]? = some c' := by
        simp [WorkerState.setCall, hlt]
      rcases hcases.changes hr with hsame | ⟨hkept, hphase⟩
      · exact absurd hsame hne
      · refine ⟨c', hget, hkept.trans halive, ?_⟩
        rcases hphase with hexec | hphase
        · exact .inl (hdel'.executor c' (List.mem_of_getElem? hget) hexec)
        · exact .inr hphase

/-! ## A delivery that raises after it has counted an attempt -/

/-- The plan is published, and its first wake-up starts the first task; then the worker
crashes. -/
def crashFirstWorker : List WorkerAction :=
  publishTwoTasks.map .plan ++
    [ .deliver ⟨1, some 1, none, none⟩, .call 0 .check, .call 0 (.claim ⟨1, 1, 1, 2⟩ (.at 0)),
      .call 0 .startExecutor, .call 0 .crash ]

/-- The lease wake-up is delivered twice, and both deliveries are handed the recovery; the first
of them counts an attempt. -/
def recoverTwice : List WorkerAction :=
  [ .deliver ⟨1, some 2, none, none⟩, .deliver ⟨1, some 2, none, none⟩,
    .call 1 .check, .call 2 .check,
    .call 1 (.claim ⟨2, 2, 2, 3⟩ (.at (timedelta 300))),
    .call 2 (.claim ⟨3, 3, 3, 4⟩ (.at (timedelta 300))),
    .call 1 (.begin (.at (timedelta 300))) ]

/-- The second delivery counts an attempt. -/
def beginSecond : WorkerAction := .call 2 (.begin (.at (timedelta 300)))

/-- The first delivery completes the compensation before the second one does. -/
def concludeBoth : List WorkerAction :=
  [ .call 1 .invokeCompensator, .call 1 (.endCompensator none),
    .call 1 (.conclude 3 (.at (timedelta 300))),
    .call 2 .invokeCompensator, .call 2 (.endCompensator none),
    .call 2 (.conclude 4 (.at (timedelta 300))) ]

def recoveredTwice : WorkerState :=
  ((workers defaultConfig).run noWorkers (crashFirstWorker ++ recoverTwice)).getD noWorkers

theorem recoveredTwice_reachable : (workers defaultConfig).Reachable recoveredTwice := by
  have hrun : (workers defaultConfig).run noWorkers (crashFirstWorker ++ recoverTwice) =
      some recoveredTwice := rfl
  exact workers_reachable_of_run (.of_run hrun)

/-- The second delivery starts no executor. -/
theorem recoveredTwice_oneAttempt : ∃ c ∈ recoveredTwice.calls[2]?, c.phase.ofExecutor = false :=
  ⟨_, rfl, (one_attempt_per_event defaultConfig recoveredTwice recoveredTwice_reachable 2).2.1 2 _
    rfl rfl rfl⟩

def countedTwice : WorkerState :=
  ((workers defaultConfig).step recoveredTwice beginSecond).getD noWorkers

def concludedTwice : WorkerState :=
  ((workers defaultConfig).run countedTwice concludeBoth).getD noWorkers

/-- How often the compensation of the execution has been attempted. -/
def compensationAttempts (st : WorkerState) (executionId : ExecutionId) : Option Nat :=
  (st.runtime.db.taskExecutions.get? executionId).map TaskExecution.compensationAttemptCount

/-- **A delivery can raise after it has changed the tables**: it has created no execution, it
counts an attempt, and then it raises, because another delivery of the event has completed the
compensation. -/
theorem delivery_raises_after_change :
    (workers defaultConfig).Reachable recoveredTwice ∧
    (workers defaultConfig).step recoveredTwice beginSecond = some countedTwice ∧
    compensationAttempts recoveredTwice 1 = some 1 ∧ compensationAttempts countedTwice 1 = some 2 ∧
    (workers defaultConfig).run countedTwice concludeBoth = some concludedTwice ∧
    ∃ c ∈ concludedTwice.calls[2]?, c.input.eventId = some 2 ∧ c.created = none ∧
      c.alive = false := by
  exact ⟨recoveredTwice_reachable, rfl, by decide, by decide, rfl, by decide⟩

end DocFlow.TaskRuntime
