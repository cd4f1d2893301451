import DocFlow.TaskRuntime.OutcomeSteps
import DocFlow.Planning.Replan
import DocFlow.Planning.UseCases

/-!
# What a committed transaction does to the tables

An `Effect` says what happens to the plans, tasks, dependencies, executions and the
outbox; the inbox and the turns may change in any way.  Every transaction of
the runtime and of the planner is a chain of effects (`Effects`), so an invariant of
those tables is proved once for each effect and never for a transaction.
-/

namespace DocFlow.TaskRuntime

/-! ## Rows before and after -/

/-- The statuses of an execution that owns its task. -/
def isActive : TaskExecutionStatus → Bool
  | .running | .compensationRequired | .compensationLocked => true
  | _ => false

/-- The columns of an execution that no transaction writes twice. -/
structure SameAttempt (e e' : TaskExecution) : Prop where
  executionId : e'.executionId = e.executionId
  taskId : e'.taskId = e.taskId
  planId : e'.planId = e.planId
  attempt : e'.attempt = e.attempt
  operationId : e'.operationId = e.operationId
  agentRunId : e'.agentRunId = e.agentRunId
  startedAt : e'.startedAt = e.startedAt

/-- The columns of a task that an outcome leaves alone. -/
structure SameTask (t t' : Task) : Prop where
  taskId : t'.taskId = t.taskId
  planId : t'.planId = t.planId
  capabilityCode : t'.capabilityCode = t.capabilityCode
  attemptCount : t'.attemptCount = t.attemptCount
  maxAttempts : t'.maxAttempts = t.maxAttempts
  startedAt : t'.startedAt = t.startedAt

/-- The steps of an execution that keep its task running. -/
inductive Advances : TaskExecutionStatus → TaskExecutionStatus → Prop
  | required : Advances .running .compensationRequired
  | attempted : Advances .compensationRequired .compensationRequired
  | locked : Advances .compensationRequired .compensationLocked

/-- The steps of an execution that free its task after a failure. -/
inductive Fails : TaskExecutionStatus → TaskExecutionStatus → Prop
  | failed : Fails .running .failed
  | compensated : Fails .compensationRequired .compensated

def IsWakeup (ev : OutboxEvent) : Prop := ev.eventType = .planWakeup

/-- A wake-up of the plan that names no execution. -/
structure IsPlainWakeup (p : Plan) (ev : OutboxEvent) : Prop where
  eventType : ev.eventType = .planWakeup
  aggregateId : ev.aggregateId = p.planId
  payload : ev.payload = .plan p.workflowId p.planId

/-- How a task goes back to the queue: at once when the lease of its attempt had run out, and
through `RETRY_WAIT` otherwise. -/
inductive Retries (t' : Task) (e' : TaskExecution) : Prop
  | atOnce : t'.status = .pending → e'.status = .compensated → e'.errorCode = some leaseExpiredCode →
      Retries t' e'
  | waiting (now : Time) : t'.status = .retryWait → t'.completedAt = some now →
      e'.completedAt = some now → Retries t' e'

theorem Retries.status {t' : Task} {e' : TaskExecution} (h : Retries t' e') :
    t'.status = .pending ∨ t'.status = .retryWait := by
  cases h with
  | atOnce h => exact .inl h
  | waiting _ h => exact .inr h

/-- How a running task ends: `p`, `t` and `e` become `p'`, `t'` and `e'`, and `news`
is appended to the outbox. -/
inductive Settlement (db' : Db) (p p' : Plan) (t t' : Task) (e e' : TaskExecution)
    (news : List OutboxEvent) : Prop
  /-- More tasks are waiting. -/
  | succeeded (ev : OutboxEvent) : e.status = .running → e'.status = .succeeded → t'.status = .succeeded →
      p'.status = p.status → news = [ev] → IsPlainWakeup p ev →
      (∃ x ∈ db'.tasks, x.planId = p.planId ∧ (x.status = .pending ∨ x.status = .retryWait)) →
      Settlement db' p p' t t' e e' news
  /-- It was the last one. -/
  | finished (ev : OutboxEvent) : e.status = .running → e'.status = .succeeded →
      t'.status = .succeeded → p'.status = .completed → news = [ev] →
      ev.eventType = .aggregationRequested → ev.aggregateId = p.planId →
      (∀ x ∈ db'.tasks, x.planId = p.planId → x.status = .succeeded) →
      Settlement db' p p' t t' e e' news
  /-- Nothing is waiting, and some task has not succeeded. -/
  | stuck (x : Task) : e.status = .running → e'.status = .succeeded → t'.status = .succeeded →
      p'.status = p.status → news = [] → x ∈ db'.tasks → x.planId = p.planId →
      x.status ≠ .succeeded → x.status ≠ .pending → x.status ≠ .retryWait →
      Settlement db' p p' t t' e e' news
  | retried (ev : OutboxEvent) : Fails e.status e'.status → Retries t' e' →
      (t.attemptCount : Int) < t.maxAttempts → p'.status = p.status →
      news = [ev] → IsPlainWakeup p ev → Settlement db' p p' t t' e e' news
  | replanned (ev : OutboxEvent) (r : ReplanPayload) : Fails e.status e'.status →
      t'.status = .blocked ∨ t'.status = .failed → p'.status = .replanPending → news = [ev] →
      ev.eventType = .replanRequested → ev.payload = .replan r → r.previousPlanId = p.planId →
      Settlement db' p p' t t' e e' news

/-! ## Effects -/

/-- What one step of a transaction does to the tables other than inbox and turns.
`claiming` is what a claim draws and reads; only a claim resumes and starts tasks. -/
inductive Effect (registry : CapabilityRegistry) (claiming : Option (ClaimIds × Clock)) (db db' : Db) :
    Prop
  | quiet : db'.plans = db.plans → db'.tasks = db.tasks →
      db'.taskDependencies = db.taskDependencies → db'.taskExecutions = db.taskExecutions →
      db'.outbox = db.outbox → Effect registry claiming db db'
  /-- An execution changes while it owns its task. -/
  | advanced (e e' : TaskExecution) (news : List OutboxEvent) : e ∈ db.taskExecutions →
      SameAttempt e e' → Advances e.status e'.status → db'.plans = db.plans →
      db'.tasks = db.tasks → db'.taskDependencies = db.taskDependencies →
      db'.taskExecutions = db.taskExecutions.save e' →
      db'.outbox.rows = db.outbox.rows ++ news → (∀ ev ∈ news, IsWakeup ev) →
      Effect registry claiming db db'
  /-- A running task ends. -/
  | settled (p p' : Plan) (t t' : Task) (e e' : TaskExecution) (news : List OutboxEvent) :
      p ∈ db.plans → t ∈ db.tasks → e ∈ db.taskExecutions →
      p.currentTaskId = some t.taskId → t.status = .running → e.taskId = t.taskId →
      p'.planId = p.planId → p'.currentTaskId = none → SameTask t t' → SameAttempt e e' →
      db'.plans = db.plans.save p' → db'.tasks = db.tasks.save t' →
      db'.taskDependencies = db.taskDependencies →
      db'.taskExecutions = db.taskExecutions.save e' →
      db'.outbox.rows = db.outbox.rows ++ news → Settlement db' p p' t t' e e' news →
      Effect registry claiming db db'
  /-- The waiting tasks of a plan become pending. -/
  | resumed (planId : PlanId) : claiming ≠ none → db'.plans = db.plans →
      db'.tasks = (db.setTaskStatus (db.listByPlanIdAndStatus planId .retryWait) .pending).tasks →
      db'.taskDependencies = db.taskDependencies → db'.taskExecutions = db.taskExecutions →
      db'.outbox = db.outbox → Effect registry claiming db db'
  /-- A pending task whose predecessors have succeeded starts its next attempt. -/
  | started (p : Plan) (t : Task) (d : CapabilityDefinition) (ids : ClaimIds) (clock : Clock) :
      claiming = some (ids, clock) → p ∈ db.plans → p.currentTaskId = none →
      p.status = .ready ∨ p.status = .running → t ∈ db.tasks → t.planId = p.planId →
      t.status = .pending →
      db.isRunnable .succeeded t = true → registry.get? t.capabilityCode = some d →
      db'.plans = db.plans.save (startPlan clock t p) →
      db'.tasks = db.tasks.save (startTask d clock t) →
      db'.taskDependencies = db.taskDependencies →
      db.taskExecutions.insert (newExecution d ids clock p (startTask d clock t)) =
        some db'.taskExecutions →
      db.outbox.insert (leaseWakeup d ids clock p) = some db'.outbox → Effect registry claiming db db'
  | planCreated (p : Plan) : p.status = .planning → p.currentTaskId = none →
      db.plans.insert p = some db'.plans → db'.tasks = db.tasks →
      db'.taskDependencies = db.taskDependencies → db'.taskExecutions = db.taskExecutions →
      db'.outbox = db.outbox → Effect registry claiming db db'
  | taskCreated (p : Plan) (t : Task) : p ∈ db.plans → p.status = .planning →
      t.planId = p.planId → t.status = .draft → t.attemptCount = 0 → db'.plans = db.plans →
      db.tasks.insert t = some db'.tasks → db'.taskDependencies = db.taskDependencies →
      db'.taskExecutions = db.taskExecutions → db'.outbox = db.outbox → Effect registry claiming db db'
  | published (p : Plan) (pairs : List (TaskId × TaskId)) (newDependencyId : Nat → DependencyId)
      (ev : OutboxEvent) : p ∈ db.plans → p.status = .planning →
      db.listByPlanIdAndStatus p.planId .draft ≠ [] →
      Planning.validateDag (db.listByPlanIdAndStatus p.planId .draft) = .ok pairs →
      db'.plans = db.plans.save (Planning.publishPlan p) →
      db'.tasks = db.tasks.mapRows
        (Planning.publishTask ((db.listByPlanIdAndStatus p.planId .draft).map Task.taskId))
        (Planning.publishTask_taskId _) →
      db.addDependencies (Planning.dependencyRows p.planId newDependencyId pairs) =
        .ok (db.setTaskDependencies db'.taskDependencies) →
      db'.taskExecutions = db.taskExecutions → db.outbox.insert ev = some db'.outbox →
      IsPlainWakeup p ev → Effect registry claiming db db'
  /-- A plan that asked for its next revision is closed. -/
  | closed (p p' : Plan) (status : TaskStatus) (ev : OutboxEvent) (r : ReplanPayload) :
      p ∈ db.plans → ev ∈ db.outbox → ev.eventType = .replanRequested → ev.payload = .replan r →
      r.previousPlanId = p.planId → p'.planId = p.planId → p'.currentTaskId = p.currentTaskId →
      p'.status = .superseded ∨ p'.status = .failed → status = .superseded ∨ status = .failed →
      db'.plans = db.plans.save p' → db'.tasks = (db.setUnfinishedStatus p.planId status).tasks →
      db'.taskDependencies = db.taskDependencies → db'.taskExecutions = db.taskExecutions →
      db'.outbox = db.outbox → Effect registry claiming db db'

/-- A chain of effects. -/
abbrev Effects (registry : CapabilityRegistry) (claiming : Option (ClaimIds × Clock)) :
    Db → Db → Prop :=
  Relation.ReflTransGen (Effect registry claiming)

theorem InboxOnly.effect {registry : CapabilityRegistry} {claiming : Option (ClaimIds × Clock)}
    {db db' : Db} (h : InboxOnly db db') :
    Effect registry claiming db db' :=
  .quiet h.plans h.tasks h.taskDependencies h.taskExecutions h.outbox

/-- An invariant of the tables survives a chain when it survives each effect. -/
theorem Effects.preserves {registry : CapabilityRegistry} {claiming : Option (ClaimIds × Clock)}
    {P : Db → Prop}
    (h : ∀ db db', P db → Effect registry claiming db db' → P db') {db db' : Db}
    (hs : Effects registry claiming db db') (hP : P db) : P db' := by
  induction hs with
  | refl => exact hP
  | tail _ hstep ih => exact h _ _ ih hstep

/-! ## The outcome transactions -/

/-- The snapshot names an execution of the database, of the task and plan it names. -/
def Coherent (db : Db) (s : Snapshot) : Prop :=
  ∃ e ∈ db.taskExecutions, e.executionId = s.executionId ∧ e.taskId = s.taskId ∧
    e.planId = s.planId ∧ e.attempt = s.attempt ∧ e.operationId = s.operationId ∧
    e.agentRunId = some s.agentRunId

/-- The rows of a coherent snapshot belong together. -/
theorem Coherent.taskId_eq {db : Db} {s : Snapshot} (hs : Coherent db s) {t : Task}
    {e : TaskExecution} (ht : db.tasks.get? s.taskId = some t)
    (he : db.taskExecutions.get? s.executionId = some e) : e.taskId = t.taskId := by
  obtain ⟨e', he', hid, htask, -⟩ := hs
  have hee : e = e' :=
    Table.eq_of_key (Table.mem_of_get? he) he' ((Table.key_of_get? he).trans hid.symm)
  rw [hee, htask, Table.key_of_get? ht]

theorem outbox_rows {db db' : Db} {ev : OutboxEvent} (h : db.addOutbox ev = .ok db') :
    db'.outbox.rows = db.outbox.rows ++ [ev] := by
  obtain ⟨table, htable, rfl⟩ := Db.addOutbox_eq_ok.mp h
  exact Table.rows_insert htable

section Outcomes

variable {registry : CapabilityRegistry} {claiming : Option (ClaimIds × Clock)}
  {settings : RuntimeSettings} {newEventId : EventId} {clock : Clock} {snapshot : Snapshot}
  {db db' : Db}

theorem complete_effect {outputJson : OutputJson} {resourceRefs : List String}
    (hs : Coherent db snapshot)
    (h : complete newEventId clock snapshot outputJson resourceRefs db = .ok db') :
    Effect registry claiming db db' := by
  obtain ⟨p, t, e, base, hlock, rfl, h⟩ := complete_cases h
  obtain ⟨hp, ht, he, hcur, hrun, hst, -⟩ := lockExecution_eq_ok.mp hlock
  have hte := hs.taskId_eq ht he
  have hsame : SameTask t (succeedTask (clock.read 0) outputJson t) := ⟨rfl, rfl, rfl, rfl, rfl, rfl⟩
  have hsamee : SameAttempt e (succeedExecution (clock.read 0) outputJson resourceRefs e) :=
    ⟨rfl, rfl, rfl, rfl, rfl, rfl, rfl⟩
  have hpm := Table.mem_of_get? hp
  have htm := Table.mem_of_get? ht
  have hem := Table.mem_of_get? he
  rcases h with ⟨hwait, h⟩ | ⟨hall, h⟩ | ⟨⟨x, hx, hxp, h₁, h₂, h₃⟩, rfl⟩
  · have hrows := outbox_rows h
    obtain ⟨table, htable, rfl⟩ := Db.addOutbox_eq_ok.mp h
    exact .settled p (releasePlan p) t _ e _ _ hpm htm hem hcur hrun hte rfl rfl hsame hsamee rfl rfl
      rfl rfl hrows (.succeeded _ hst rfl rfl rfl rfl ⟨rfl, rfl, rfl⟩ hwait)
  · have hrows := outbox_rows h
    obtain ⟨table, htable, rfl⟩ := Db.addOutbox_eq_ok.mp h
    exact .settled p (completePlan (clock.read 0) p) t _ e _ _ hpm htm hem hcur hrun hte rfl rfl
      hsame hsamee (Table.save_save rfl) rfl rfl rfl hrows
      (.finished _ hst rfl rfl rfl rfl rfl rfl hall)
  · exact .settled p (releasePlan p) t _ e _ [] hpm htm hem hcur hrun hte rfl rfl hsame hsamee rfl rfl
      rfl rfl (by simp) (.stuck x hst rfl rfl rfl rfl hx hxp h₁ h₂ h₃)

theorem fail_effect {error : TaskExecutionError} (hs : Coherent db snapshot)
    (h : fail settings newEventId clock snapshot error db = .ok db') : Effect registry claiming db db' := by
  obtain ⟨p, t, e, hlock, h⟩ := fail_cases h
  obtain ⟨hp, ht, he, hcur, hrun, hst, -⟩ := lockExecution_eq_ok.mp hlock
  have hte := hs.taskId_eq ht he
  have hpm := Table.mem_of_get? hp
  have htm := Table.mem_of_get? ht
  have hem := Table.mem_of_get? he
  have hfails : Fails e.status .failed := hst ▸ .failed
  have hsame : ∀ status, SameTask t
      (failTask (clock.read 0) status (some error.errorCode) (some error.message) t) :=
    fun _ => ⟨rfl, rfl, rfl, rfl, rfl, rfl⟩
  have hsamee : SameAttempt e (recordError .failed (some (clock.read 0)) error e) :=
    ⟨rfl, rfl, rfl, rfl, rfl, rfl, rfl⟩
  rcases h with ⟨-, hlt, h⟩ | ⟨-, c, h⟩
  · have hrows := outbox_rows h
    obtain ⟨table, htable, rfl⟩ := Db.addOutbox_eq_ok.mp h
    exact .settled p (releasePlan p) t _ e _ _ hpm htm hem hcur hrun hte rfl rfl (hsame _) hsamee
      rfl rfl rfl rfl hrows (.retried _ hfails (.waiting (clock.read 0) rfl rfl rfl) hlt rfl rfl
        ⟨rfl, rfl, rfl⟩)
  · have hrows := outbox_rows h
    obtain ⟨table, htable, rfl⟩ := Db.addOutbox_eq_ok.mp h
    refine .settled p (requestReplan _ _ p) t _ e _ _ hpm htm hem hcur hrun hte rfl rfl (hsame _)
      hsamee rfl rfl rfl rfl hrows (.replanned _ _ hfails ?_ rfl rfl rfl rfl rfl)
    cases error.blocked
    · exact .inr rfl
    · exact .inl rfl

theorem requireCompensation_effect {error : TaskExecutionError}
    (h : requireCompensation snapshot error db = .ok db') : Effect registry claiming db db' := by
  obtain ⟨p, t, e, hlock, rfl⟩ := requireCompensation_cases h
  obtain ⟨-, -, he, -, -, hst, -⟩ := lockExecution_eq_ok.mp hlock
  refine .advanced e (recordError .compensationRequired none error e) [] (Table.mem_of_get? he)
    ⟨rfl, rfl, rfl, rfl, rfl, rfl, rfl⟩ ?_ rfl rfl rfl rfl (by simp) (by simp)
  rw [hst]
  exact .required

theorem beginCompensationAttempt_effect {n : Nat}
    (h : beginCompensationAttempt clock snapshot db = .ok (n, db')) : Effect registry claiming db db' := by
  obtain ⟨p, t, e, hlock, -, rfl⟩ := beginCompensationAttempt_cases h
  obtain ⟨-, -, he, -, -, hst, -⟩ := lockCompensationToken_eq_ok.mp hlock
  refine .advanced e (countAttempt (clock.read 0) e) [] (Table.mem_of_get? he)
    ⟨rfl, rfl, rfl, rfl, rfl, rfl, rfl⟩ ?_ rfl rfl rfl rfl (by simp) (by simp)
  show Advances e.status e.status
  rw [hst]
  exact .attempted

theorem handleCompensationFailure_effects {eventId : Option EventId} {error : String} {attempt : Nat}
    {o : ExecuteOutcome}
    (h : handleCompensationFailure settings newEventId clock snapshot eventId error attempt db =
      .ok (o, db')) : Effects registry claiming db db' := by
  obtain ⟨p, t, e, hlock, -, h⟩ := handleCompensationFailure_cases h
  obtain ⟨-, -, he, -, -, hst, -⟩ := lockCompensationToken_eq_ok.mp hlock
  rcases h with ⟨-, -, h⟩ | ⟨-, -, mid, hmid, h⟩
  · refine .tail (.single ?_) (recordInboxOnce_inboxOnly h).effect
    refine .advanced e (lockExhausted (clock.read 0) (recordCompensationError error e)) []
      (Table.mem_of_get? he) ⟨rfl, rfl, rfl, rfl, rfl, rfl, rfl⟩ ?_ rfl rfl rfl rfl (by simp) (by simp)
    rw [hst]
    exact .locked
  · refine .tail (.single ?_) (recordInboxOnce_inboxOnly h).effect
    have hrows := outbox_rows hmid
    obtain ⟨table, htable, rfl⟩ := Db.addOutbox_eq_ok.mp hmid
    refine .advanced e (recordCompensationError error e) _ (Table.mem_of_get? he)
      ⟨rfl, rfl, rfl, rfl, rfl, rfl, rfl⟩ ?_ rfl rfl rfl rfl hrows ?_
    · show Advances e.status e.status
      rw [hst]
      exact .attempted
    · intro ev hev
      rw [List.mem_singleton.mp hev]
      rfl

theorem completeCompensation_effects {eventId : Option EventId} {o : ExecuteOutcome}
    (hs : Coherent db snapshot)
    (h : completeCompensation settings newEventId clock snapshot eventId db = .ok (o, db')) :
    Effects registry claiming db db' := by
  obtain ⟨p, t, e, mid, hlock, hinbox, h⟩ := completeCompensation_cases h
  obtain ⟨hp, ht, he, hcur, hrun, hst, -⟩ := lockCompensationToken_eq_ok.mp hlock
  have hte := hs.taskId_eq ht he
  have hpm := Table.mem_of_get? hp
  have htm := Table.mem_of_get? ht
  have hem := Table.mem_of_get? he
  have hfails : Fails e.status .compensated := hst ▸ .compensated
  have hsame : ∀ status, SameTask t
      (failTask (clock.read 0) status e.errorCode e.errorMessage t) :=
    fun _ => ⟨rfl, rfl, rfl, rfl, rfl, rfl⟩
  have hsamee : SameAttempt e (compensateExecution (clock.read 0) e) :=
    ⟨rfl, rfl, rfl, rfl, rfl, rfl, rfl⟩
  refine .tail (.single ?_) (recordInbox_inboxOnly hinbox).effect
  rcases h with ⟨-, hlt, -, h⟩ | ⟨-, -, h⟩
  · have hrows := outbox_rows h
    obtain ⟨table, htable, rfl⟩ := Db.addOutbox_eq_ok.mp h
    refine .settled p (releasePlan p) t _ e _ _ hpm htm hem hcur hrun hte rfl rfl (hsame _) hsamee
      rfl rfl rfl rfl hrows (.retried _ hfails ?_ hlt rfl rfl ⟨rfl, rfl, rfl⟩)
    by_cases hstale : e.errorCode = some leaseExpiredCode
    · exact .atOnce (if_pos hstale) rfl hstale
    · exact .waiting (clock.read 0) (if_neg hstale) rfl rfl
  · have hrows := outbox_rows h
    obtain ⟨table, htable, rfl⟩ := Db.addOutbox_eq_ok.mp h
    refine .settled p (requestReplan _ _ p) t _ e _ _ hpm htm hem hcur hrun hte rfl rfl (hsame _)
      hsamee rfl rfl rfl rfl hrows (.replanned _ _ hfails ?_ rfl rfl rfl rfl rfl)
    cases e.blocked
    · exact .inr rfl
    · exact .inl rfl

end Outcomes

/-! ## The claim -/

theorem recordAndCommitIfEvent_cases {eventId : Option EventId} {db written db' : Db}
    (h : recordAndCommitIfEvent eventId db written = .ok db') :
    db' = db ∨ InboxOnly written db' := by
  cases eventId with
  | none => exact .inl (Except.ok.inj h).symm
  | some i => exact .inr (addInbox_inboxOnly h)

theorem recordAndCommitIfEvent_inboxOnly {eventId : Option EventId} {db db' : Db}
    (h : recordAndCommitIfEvent eventId db db = .ok db') : InboxOnly db db' := by
  rcases recordAndCommitIfEvent_cases h with rfl | h
  · exact .refl db'
  · exact h

section Claims

variable {registry : CapabilityRegistry} {claiming : Option (ClaimIds × Clock)} {db db' : Db}

theorem CurrentRows.mem {T : TaskId} {t : Task} {e : TaskExecution} (h : CurrentRows db T t e) :
    t ∈ db.tasks ∧ t.taskId = T ∧ e ∈ db.taskExecutions ∧ e.taskId = T := by
  obtain ⟨he, het, -⟩ := Db.getLatestByTask_eq_some h.latest
  have hT := Table.key_of_get? h.task
  exact ⟨Table.mem_of_get? h.task, hT, he, het.trans hT⟩

theorem Recovers.effect {now : Time} {p : Plan} {currentTaskId : TaskId}
    {o : Option RecoveryClaim} (h : Recovers registry now p currentTaskId db o db') :
    Effect registry claiming db db' := by
  cases h with
  | locked => exact (InboxOnly.refl db).effect
  | required => exact (InboxOnly.refl db).effect
  | held => exact (InboxOnly.refl db).effect
  | expired t e d s rows hst =>
    refine .advanced e (expireLease e) [] rows.mem.2.2.1 ⟨rfl, rfl, rfl, rfl, rfl, rfl, rfl⟩ ?_
      rfl rfl rfl rfl (by simp) (by simp)
    rw [hst]
    exact .required

/-- The rows after the waiting tasks of a plan are put back. -/
theorem mem_resumeRetrying {planId : PlanId} {t : Task} :
    t ∈ (resumeRetrying planId db).tasks ↔
      (t ∈ db.tasks ∧ ¬ (t.planId = planId ∧ t.status = .retryWait)) ∨
      ∃ x ∈ db.tasks, x.planId = planId ∧ x.status = .retryWait ∧ t = { x with status := .pending } := by
  have hlisted : ∀ x ∈ db.tasks, x.taskId ∈ (db.listByPlanIdAndStatus planId .retryWait).map
      Task.taskId ↔ x.planId = planId ∧ x.status = .retryWait := by
    intro x hx
    rw [List.mem_map]
    constructor
    · rintro ⟨y, hy, hid⟩
      obtain ⟨hym, hyp, hyst⟩ := Db.mem_listByPlanIdAndStatus.mp hy
      rw [← Table.eq_of_key hym hx hid]
      exact ⟨hyp, hyst⟩
    · intro h
      exact ⟨x, Db.mem_listByPlanIdAndStatus.mpr ⟨hx, h⟩, rfl⟩
  rw [resumeRetrying, Db.setTaskStatus_tasks, Table.mem_mapRows]
  constructor
  · rintro ⟨x, hx, rfl⟩
    by_cases hin : x.planId = planId ∧ x.status = .retryWait
    · exact .inr ⟨x, hx, hin.1, hin.2, if_pos ((hlisted x hx).mpr hin)⟩
    · have hkept : Db.withStatus (db.listByPlanIdAndStatus planId .retryWait) .pending x = x :=
        if_neg (mt (hlisted x hx).mp hin)
      rw [hkept]
      exact .inl ⟨hx, hin⟩
  · rintro (⟨ht, hnot⟩ | ⟨x, hx, hxp, hxst, rfl⟩)
    · exact ⟨t, ht, if_neg (mt (hlisted t ht).mp hnot)⟩
    · exact ⟨x, hx, if_pos ((hlisted x hx).mpr ⟨hxp, hxst⟩)⟩

theorem resumeRetrying_effect (hclaiming : claiming ≠ none) (planId : PlanId) :
    Effect registry claiming db (resumeRetrying planId db) :=
  .resumed planId hclaiming rfl rfl rfl rfl rfl

/-- A claim that selects no task may have marked an execution for recovery. -/
theorem ClaimStep.unselected_effects {ids : ClaimIds} {clock : Clock} {call : ExecuteNextInput}
    {r : ClaimNextTaskResult} (h : ClaimStep registry ids clock call db r db')
    (hidle : r ≠ .noTask) (hclaimed : ∀ task, r ≠ .claimed task) :
    Effects registry claiming db db' := by
  cases h with
  | skipped p _ _ _ hdb => exact .single (recordAndCommitIfEvent_inboxOnly hdb).effect
  | mismatched p T rc written _ _ _ _ hrec _ hdb =>
    rcases recordAndCommitIfEvent_cases hdb with rfl | hdb
    · exact .refl
    · exact .tail (.single hrec.effect) hdb.effect
  | locked p T s _ _ _ _ _ _ hdb => exact .single (recordAndCommitIfEvent_inboxOnly hdb).effect
  | required p T s _ _ _ _ hrec => exact .single hrec.effect
  | busy p T _ _ _ _ _ hdb => exact .single (recordAndCommitIfEvent_inboxOnly hdb).effect
  | idle => exact absurd rfl hidle
  | claimed => exact absurd rfl (hclaimed _)

/-- A claimed task has been started. -/
theorem started_effect {ids : ClaimIds} {clock : Clock} {call : ExecuteNextInput} {p : Plan}
    {t : Task} {d : CapabilityDefinition} {db₁ db₂ : Db}
    (hp : db.plans.get? call.planId = some p) (hcur : p.currentTaskId = none)
    (hst : p.status = .ready ∨ p.status = .running)
    (hnext : (resumeRetrying p.planId db).getNextRunnable p.planId .pending .succeeded = some t)
    (hd : registry.get? t.capabilityCode = some d)
    (h₁ : (((resumeRetrying p.planId db).saveTask (startTask d clock t)).savePlan
      (startPlan clock t p)).addExecution (newExecution d ids clock p (startTask d clock t)) =
        .ok db₁)
    (h₂ : db₁.addOutbox (leaseWakeup d ids clock p) = .ok db₂) :
    Effect registry (some (ids, clock)) (resumeRetrying p.planId db) db₂ := by
  obtain ⟨ht, htp, hpend, hrunnable⟩ := Db.getNextRunnable_eq_some hnext
  obtain ⟨-, execs, hexecs, rfl⟩ := Db.addExecution_eq_ok.mp h₁
  obtain ⟨outbox, houtbox, rfl⟩ := Db.addOutbox_eq_ok.mp h₂
  exact .started p t d ids clock rfl (Table.mem_of_get? hp) hcur hst ht htp hpend hrunnable hd rfl
    rfl rfl hexecs houtbox

theorem ClaimStep.effects {ids : ClaimIds} {clock : Clock} {call : ExecuteNextInput}
    {r : ClaimNextTaskResult} (h : ClaimStep registry ids clock call db r db') :
    Effects registry (some (ids, clock)) db db' := by
  have hresumed : ∀ planId, Effects registry (some (ids, clock)) db (resumeRetrying planId db) :=
    fun planId => .single (resumeRetrying_effect (by simp) planId)
  cases r with
  | noTask =>
    cases h with
    | idle p _ _ _ _ _ _ hdb =>
      rcases hdb with ⟨-, rfl⟩ | hdb
      · exact .refl
      · exact .tail (hresumed p.planId) (recordInbox_inboxOnly hdb).effect
  | claimed task =>
    cases h with
    | claimed p t d c db₁ db₂ _ hp hcur _ hst hnext hd h₁ h₂ h₃ =>
      have hstarted := started_effect hp hcur hst hnext hd h₁ h₂
      exact .tail (.tail (hresumed p.planId) hstarted) (recordInbox_inboxOnly h₃).effect
  | compensationRequired | compensationLocked | alreadyRunning | terminal =>
    exact h.unselected_effects nofun nofun

/-- A claim is a chain of effects. -/
theorem claimNext_effects {ids : ClaimIds} {clock : Clock} {call : ExecuteNextInput} {seen : Bool}
    {r : ClaimNextTaskResult} (h : claimNext registry ids clock seen call db = .ok (r, db')) :
    Effects registry (some (ids, clock)) db db' := by
  rcases claimNext_cases h with ⟨-, -, rfl⟩ | ⟨-, h⟩
  · exact .refl
  · exact h.effects

end Claims

/-! ## The planner -/

section Planner

variable {registry : CapabilityRegistry} {claiming : Option (ClaimIds × Clock)} {db db' : Db}

theorem createPlan_effect {p : Plan} (hst : p.status = .planning) (hcur : p.currentTaskId = none)
    (h : db.createPlan p = .ok db') : Effect registry claiming db db' := by
  rw [Db.createPlan] at h
  split at h
  · cases h
  · simp only [bind_eq_ok, orRaise_eq_ok, pure_eq_ok] at h
    obtain ⟨plans, hplans, rfl⟩ := h
    exact .planCreated p hst hcur hplans rfl rfl rfl rfl

theorem planning_createPlan_effect {newPlanId : PlanId} {newWorkflowId : WorkflowId}
    {command : Planning.CreatePlanInput}
    (h : Planning.createPlan newPlanId newWorkflowId command db = .ok db') :
    Effect registry claiming db db' := by
  simp only [Planning.createPlan, bind_eq_ok] at h
  obtain ⟨_, -, _, -, h⟩ := h
  exact createPlan_effect rfl rfl h

theorem createDocumentTask_effect {code : PlanningCapabilityCode} {newTaskId : TaskId}
    {command : Planning.CreateDocumentTaskInput}
    (h : Planning.createDocumentTask code newTaskId command db = .ok db') :
    Effect registry claiming db db' := by
  simp only [Planning.createDocumentTask, bind_eq_ok, orRaise_eq_ok, Planning.requirePlanning,
    ensure_eq_ok] at h
  obtain ⟨p, hp, -, hst, -, -, -, -, -, -, -, -, -, -, h⟩ := h
  rw [Planning.asSequenceConflict_eq_ok, Db.createTask] at h
  split at h
  · cases h
  · simp only [bind_eq_ok, orRaise_eq_ok, pure_eq_ok] at h
    obtain ⟨tasks, htasks, rfl⟩ := h
    exact .taskCreated p _ (Table.mem_of_get? hp) hst rfl rfl rfl rfl htasks rfl rfl rfl

theorem finalizePlan_effect {newDependencyId : Nat → DependencyId} {newEventId : EventId}
    {now : Time} {command : Planning.FinalizePlanInput}
    (h : Planning.finalizePlan newDependencyId newEventId now command db = .ok db') :
    Effect registry claiming db db' := by
  simp only [Planning.finalizePlan, bind_eq_ok, orRaise_eq_ok, Planning.requirePlanning,
    ensure_eq_ok] at h
  obtain ⟨p, hp, -, hst, -, -, -, hne, -, -, -, -, pairs, hdag, turn, -, -, -, mid, hdeps, h⟩ := h
  obtain ⟨table, rfl, -⟩ := Db.addDependencies_eq_ok hdeps
  obtain ⟨outbox, houtbox, rfl⟩ := Db.addOutbox_eq_ok.mp h
  exact .published p pairs newDependencyId _ (Table.mem_of_get? hp) hst hne hdag rfl rfl hdeps rfl
    houtbox ⟨rfl, rfl, rfl⟩

theorem prepareRevision_effects {newPlanId : PlanId} {now : Time} {seen : Bool}
    {event : Planning.ReplanRequested} {ev : OutboxEvent} (hev : ev ∈ db.outbox)
    (htype : ev.eventType = .replanRequested) (hpayload : ev.payload = .replan event.payload)
    (h : Planning.prepareRevision newPlanId now seen event db = .ok db') :
    Effects registry claiming db db' := by
  rw [Planning.prepareRevision] at h
  split at h
  · rw [pure_eq_ok.mp h]
  · simp only [bind_eq_ok, orRaise_eq_ok, ensure_eq_ok] at h
    obtain ⟨p, hp, turn, -, -, -, h⟩ := h
    obtain ⟨hpm, hkey⟩ := Table.get?_eq_some.mp hp
    split at h
    · refine .tail (.single ?_) (db_recordInboxOnce_inboxOnly h).effect
      exact .closed p (Planning.exhaustPlan now p) .failed ev event.payload hpm hev htype hpayload
        hkey.symm rfl rfl (.inr rfl) (.inr rfl) rfl rfl rfl rfl rfl
    · split at h
      · exact .single (db_recordInboxOnce_inboxOnly h).effect
      · simp only [bind_eq_ok] at h
        obtain ⟨mid, hmid, h⟩ := h
        refine .tail (.tail (.single ?_) (createPlan_effect rfl rfl hmid))
          (db_recordInboxOnce_inboxOnly h).effect
        exact .closed p (Planning.supersedePlan now p) .superseded ev event.payload hpm hev htype
          hpayload hkey.symm rfl rfl (.inl rfl) (.inl rfl) rfl rfl rfl rfl rfl

end Planner

end DocFlow.TaskRuntime
