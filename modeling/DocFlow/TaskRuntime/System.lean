import DocFlow.Lib.Machine
import DocFlow.TaskRuntime.Effects

/-!
# All interleavings of the transactions

The machine of the Task Runtime.  An action is one transaction, of any worker or
of the planner, with any event identifier and any snapshot that some claim has ever
handed out; a crash is the absence of further actions.  A transaction that raises
leaves the database as it was.

The state remembers the snapshots handed out and the last reading of the clock, which
the runs that assume one non-decreasing clock refer to.
-/

namespace DocFlow.TaskRuntime

structure RuntimeState where
  db : Db
  handedOut : List Snapshot
  clock : Time

/-- What the service is configured with. -/
structure RuntimeConfig where
  settings : RuntimeSettings
  registry : CapabilityRegistry

inductive RuntimeAction
  | createPlan (newPlanId : PlanId) (newWorkflowId : WorkflowId)
      (command : Planning.CreatePlanInput)
  | createTask (code : PlanningCapabilityCode) (newTaskId : TaskId)
      (command : Planning.CreateDocumentTaskInput)
  | finalizePlan (newDependencyId : Nat → DependencyId) (newEventId : EventId) (clock : Clock)
      (command : Planning.FinalizePlanInput)
  | prepareRevision (newPlanId : PlanId) (clock : Clock) (seen : Bool) (eventId : EventId)
  | claim (ids : ClaimIds) (clock : Clock) (seen : Bool) (call : ExecuteNextInput)
  | complete (newEventId : EventId) (clock : Clock) (snapshot : Snapshot)
      (outputJson : OutputJson) (resourceRefs : List String)
  | fail (newEventId : EventId) (clock : Clock) (snapshot : Snapshot) (error : TaskExecutionError)
  | requireCompensation (snapshot : Snapshot) (error : TaskExecutionError)
  | beginCompensation (clock : Clock) (snapshot : Snapshot)
  | handleCompensationFailure (newEventId : EventId) (clock : Clock) (snapshot : Snapshot)
      (eventId : Option EventId) (error : String) (attempt : Nat)
  | completeCompensation (newEventId : EventId) (clock : Clock) (snapshot : Snapshot)
      (eventId : Option EventId)

/-- The clock an action reads, and the snapshot it is called with. -/
def RuntimeAction.clock? : RuntimeAction → Option Clock
  | finalizePlan _ _ clock _ | prepareRevision _ clock _ _ | claim _ clock _ _
  | complete _ clock _ _ _ | fail _ clock _ _ | beginCompensation clock _
  | handleCompensationFailure _ clock _ _ _ _ | completeCompensation _ clock _ _ => some clock
  | _ => none

def RuntimeAction.snapshot? : RuntimeAction → Option Snapshot
  | complete _ _ snapshot _ _ | fail _ _ snapshot _ | requireCompensation snapshot _
  | beginCompensation _ snapshot | handleCompensationFailure _ _ snapshot _ _ _
  | completeCompensation _ _ snapshot _ => some snapshot
  | _ => none

/-- What a claim draws and reads. -/
def RuntimeAction.claiming : RuntimeAction → Option (ClaimIds × Clock)
  | claim ids clock _ _ => some (ids, clock)
  | _ => none

/-- The request for a revision that an event of the outbox carries. -/
def replanRequest (db : Db) (eventId : EventId) : Option Planning.ReplanRequested :=
  match db.outbox.get? eventId with
  | some ⟨_, .replanRequested, _, .replan payload, _, _, _, _⟩ => some ⟨eventId, payload⟩
  | _ => none

/-- The transaction of an action: the database it commits and the snapshot it
hands out.  A request for a revision is one of the outbox. -/
def RuntimeAction.transaction (config : RuntimeConfig) (db : Db) :
    RuntimeAction → Except Failure (Option Snapshot × Db)
  | createPlan newPlanId newWorkflowId command =>
    (none, ·) <$> Planning.createPlan newPlanId newWorkflowId command db
  | createTask code newTaskId command =>
    (none, ·) <$> Planning.createDocumentTask code newTaskId command db
  | finalizePlan newDependencyId newEventId clock command =>
    (none, ·) <$> Planning.finalizePlan newDependencyId newEventId (clock.read 0) command db
  | prepareRevision newPlanId clock seen eventId =>
    match replanRequest db eventId with
    | some event => (none, ·) <$> Planning.prepareRevision newPlanId (clock.read 0) seen event db
    | none => .ok (none, db)
  | claim ids clock seen call => do
    let (result, db) ← claimNext config.registry ids clock seen call db
    return (result.snapshot?, db)
  | complete newEventId clock snapshot outputJson resourceRefs =>
    (none, ·) <$> TaskRuntime.complete newEventId clock snapshot outputJson resourceRefs db
  | fail newEventId clock snapshot error =>
    (none, ·) <$> TaskRuntime.fail config.settings newEventId clock snapshot error db
  | requireCompensation snapshot error =>
    (none, ·) <$> TaskRuntime.requireCompensation snapshot error db
  | beginCompensation clock snapshot => do
    let (_, db) ← beginCompensationAttempt clock snapshot db
    return (none, db)
  | handleCompensationFailure newEventId clock snapshot eventId error attempt => do
    let (_, db) ← TaskRuntime.handleCompensationFailure config.settings newEventId clock snapshot
      eventId error attempt db
    return (none, db)
  | completeCompensation newEventId clock snapshot eventId => do
    let (_, db) ← TaskRuntime.completeCompensation config.settings newEventId clock snapshot
      eventId db
    return (none, db)

/-- A snapshot has been handed out before it is used, and an operation identifier
is drawn once. -/
def RuntimeAction.Enabled (st : RuntimeState) (a : RuntimeAction) : Prop :=
  (∀ s, a.snapshot? = some s → s ∈ st.handedOut) ∧
  (∀ ids clock seen call, a = claim ids clock seen call →
    ∀ e ∈ st.db.taskExecutions.rows, e.operationId ≠ ids.operationId)

instance (st : RuntimeState) (a : RuntimeAction) : Decidable (a.Enabled st) :=
  match a with
  | .claim ids _ _ _ =>
    decidable_of_iff (∀ e ∈ st.db.taskExecutions.rows, e.operationId ≠ ids.operationId)
      ⟨fun h => ⟨nofun, by rintro _ _ _ _ ⟨⟩; exact h⟩, fun h => h.2 _ _ _ _ rfl⟩
  | .complete _ _ s _ _ | .fail _ _ s _ | .requireCompensation s _ | .beginCompensation _ s
  | .handleCompensationFailure _ _ s _ _ _ | .completeCompensation _ _ s _ =>
    decidable_of_iff (s ∈ st.handedOut) ⟨fun h => ⟨by rintro _ ⟨⟩; exact h, nofun⟩, fun h => h.1 _ rfl⟩
  | .createPlan .. | .createTask .. | .finalizePlan .. | .prepareRevision .. =>
    isTrue ⟨nofun, nofun⟩

/-- The state after a transaction: a failure keeps the database. -/
def RuntimeState.after (st : RuntimeState) (a : RuntimeAction)
    (x : Except Failure (Option Snapshot × Db)) : RuntimeState :=
  let clock := (a.clock?.map (Clock.read · 3)).getD st.clock
  match x with
  | .ok (snapshot, db) => ⟨db, snapshot.toList ++ st.handedOut, clock⟩
  | .error _ => { st with clock := clock }

/-- The plans, tasks and events of nobody: turns only. -/
def RuntimeState.Fresh (st : RuntimeState) : Prop :=
  st.db.plans.rows = [] ∧ st.db.tasks.rows = [] ∧ st.db.taskDependencies.rows = [] ∧
  st.db.taskExecutions.rows = [] ∧ st.db.outbox.rows = [] ∧ st.db.inbox.rows = [] ∧
  st.handedOut = []

/-- **The Task Runtime under any interleaving.** -/
def runtime (config : RuntimeConfig) : Machine RuntimeState RuntimeAction where
  init := RuntimeState.Fresh
  step st a :=
    if a.Enabled st then some (st.after a (a.transaction config st.db)) else none

/-! ## What one step is made of -/

section Steps

variable {config : RuntimeConfig} {st st' : RuntimeState} {a : RuntimeAction}

theorem runtime_step (h : (runtime config).step st a = some st') :
    a.Enabled st ∧ st' = st.after a (a.transaction config st.db) := by
  simp only [runtime] at h
  split at h
  · next hen => exact ⟨hen, (Option.some.inj h).symm⟩
  · cases h

/-- A step commits its transaction, or it raises and leaves the tables alone. -/
theorem runtime_step_cases (h : (runtime config).step st a = some st') :
    (∃ s db', a.transaction config st.db = .ok (s, db') ∧ st'.db = db' ∧
      st'.handedOut = s.toList ++ st.handedOut) ∨
    (∃ f, a.transaction config st.db = .error f ∧ st'.db = st.db ∧
      st'.handedOut = st.handedOut) := by
  obtain ⟨-, rfl⟩ := runtime_step h
  cases hx : a.transaction config st.db with
  | ok x => exact .inl ⟨x.1, x.2, rfl, rfl, rfl⟩
  | error f => exact .inr ⟨f, rfl, rfl, rfl⟩

/-- The state after a transaction that has committed. -/
theorem committed (h : (runtime config).step st a = some st') {s : Option Snapshot} {db' : Db}
    (htx : a.transaction config st.db = .ok (s, db')) :
    st'.db = db' ∧ st'.handedOut = s.toList ++ st.handedOut := by
  obtain ⟨-, rfl⟩ := runtime_step h
  rw [htx]
  exact ⟨rfl, rfl⟩

/-- **Every transaction is a chain of effects**, called with coherent snapshots. -/
theorem transaction_effects {db db' : Db} {s : Option Snapshot}
    (hs : ∀ x, a.snapshot? = some x → Coherent db x)
    (h : a.transaction config db = .ok (s, db')) : Effects config.registry a.claiming db db' := by
  cases a with
  | createPlan newPlanId newWorkflowId command =>
    obtain ⟨_, hx, he⟩ := map_eq_ok.mp h
    obtain ⟨-, rfl⟩ := Prod.mk.inj he
    exact .single (planning_createPlan_effect hx)
  | createTask code newTaskId command =>
    obtain ⟨_, hx, he⟩ := map_eq_ok.mp h
    obtain ⟨-, rfl⟩ := Prod.mk.inj he
    exact .single (createDocumentTask_effect hx)
  | finalizePlan newDependencyId newEventId clock command =>
    obtain ⟨_, hx, he⟩ := map_eq_ok.mp h
    obtain ⟨-, rfl⟩ := Prod.mk.inj he
    exact .single (finalizePlan_effect hx)
  | prepareRevision newPlanId clock seen eventId =>
    simp only [RuntimeAction.transaction] at h
    split at h
    · next event hreq =>
      obtain ⟨_, hx, he⟩ := map_eq_ok.mp h
      obtain ⟨-, rfl⟩ := Prod.mk.inj he
      unfold replanRequest at hreq
      split at hreq
      · next hget =>
        obtain rfl := Option.some.inj hreq
        exact prepareRevision_effects (Table.mem_of_get? hget) rfl rfl hx
      · cases hreq
    · obtain ⟨-, rfl⟩ := Prod.mk.inj (Except.ok.inj h)
      exact .refl
  | claim ids clock seen call =>
    simp only [RuntimeAction.transaction, bind_eq_ok, Prod.exists, pure_eq_ok, Prod.mk.injEq] at h
    obtain ⟨r, _, hx, -, rfl⟩ := h
    exact claimNext_effects hx
  | complete newEventId clock snapshot outputJson resourceRefs =>
    obtain ⟨_, hx, he⟩ := map_eq_ok.mp h
    obtain ⟨-, rfl⟩ := Prod.mk.inj he
    exact .single (complete_effect (hs snapshot rfl) hx)
  | fail newEventId clock snapshot error =>
    obtain ⟨_, hx, he⟩ := map_eq_ok.mp h
    obtain ⟨-, rfl⟩ := Prod.mk.inj he
    exact .single (fail_effect (hs snapshot rfl) hx)
  | requireCompensation snapshot error =>
    obtain ⟨_, hx, he⟩ := map_eq_ok.mp h
    obtain ⟨-, rfl⟩ := Prod.mk.inj he
    exact .single (requireCompensation_effect hx)
  | beginCompensation clock snapshot =>
    simp only [RuntimeAction.transaction, bind_eq_ok, Prod.exists, pure_eq_ok, Prod.mk.injEq] at h
    obtain ⟨n, _, hx, -, rfl⟩ := h
    exact .single (beginCompensationAttempt_effect hx)
  | handleCompensationFailure newEventId clock snapshot eventId error attempt =>
    simp only [RuntimeAction.transaction, bind_eq_ok, Prod.exists, pure_eq_ok, Prod.mk.injEq] at h
    obtain ⟨o, _, hx, -, rfl⟩ := h
    exact handleCompensationFailure_effects hx
  | completeCompensation newEventId clock snapshot eventId =>
    simp only [RuntimeAction.transaction, bind_eq_ok, Prod.exists, pure_eq_ok, Prod.mk.injEq] at h
    obtain ⟨o, _, hx, -, rfl⟩ := h
    exact completeCompensation_effects (hs snapshot rfl) hx

/-- Only a claim hands out a snapshot. -/
theorem transaction_snapshot {db db' : Db} {x : Snapshot}
    (h : a.transaction config db = .ok (some x, db')) :
    ∃ ids clock seen call r, a = .claim ids clock seen call ∧
      claimNext config.registry ids clock seen call db = .ok (r, db') ∧ r.snapshot? = some x := by
  cases a with
  | claim ids clock seen call =>
    simp only [RuntimeAction.transaction, bind_eq_ok, Prod.exists, pure_eq_ok, Prod.mk.injEq] at h
    obtain ⟨r, _, hclaim, hr, rfl⟩ := h
    exact ⟨ids, clock, seen, call, r, rfl, hclaim, hr.symm⟩
  | prepareRevision newPlanId clock seen eventId =>
    simp only [RuntimeAction.transaction] at h
    split at h
    · obtain ⟨_, -, he⟩ := map_eq_ok.mp h
      cases he
    · cases h
  | createPlan | createTask | finalizePlan | complete | fail | requireCompensation =>
    obtain ⟨_, -, he⟩ := map_eq_ok.mp h
    cases he
  | beginCompensation | handleCompensationFailure | completeCompensation =>
    simp only [RuntimeAction.transaction, bind_eq_ok, Prod.exists, pure_eq_ok, Prod.mk.injEq] at h
    obtain ⟨_, _, _, hnone, _⟩ := h
    cases hnone

theorem reachable_of_run {ok : RuntimeState → RuntimeAction → Prop} (h : st.Fresh)
    {as : List RuntimeAction} (hrun : (runtime config).RunVia ok st as st') :
    (runtime config).ReachableVia ok st' :=
  hrun.reachableVia (.init h)

end Steps

/-! ## A concrete plan -/

/-- The service as it is deployed. -/
def defaultConfig : RuntimeConfig := ⟨.default, buildCapabilityRegistry⟩

/-- One conversation turn and nothing else. -/
def firstTurn : RuntimeState where
  db :=
    { conversationTurns := ⟨[⟨1, 1, .contextReady, [], none, none, none, none, none⟩], by decide⟩
      plans := .empty
      tasks := .empty
      taskDependencies := .empty
      taskExecutions := .empty
      outbox := .empty
      inbox := .empty
      clarifications := .empty
      context := .empty }
  handedOut := []
  clock := 0

theorem firstTurn_fresh : firstTurn.Fresh := ⟨rfl, rfl, rfl, rfl, rfl, rfl, rfl⟩

/-- A document is processed and then cut into chunks. -/
def publishTwoTasks : List RuntimeAction :=
  [ .createPlan 1 1 ⟨1, 1, none, none⟩,
    .createTask .processDocument 1 ⟨1, 1, 7, 1, "process", []⟩,
    .createTask .buildDocumentChunks 2 ⟨1, 1, 7, 2, "chunk", ["process"]⟩,
    .finalizePlan id 1 (.at 0) ⟨1, 1⟩ ]

/-- The first wake-up of the plan is delivered. -/
def claimFirstTask : RuntimeAction := .claim ⟨1, 1, 1, 2⟩ (.at 0) false ⟨1, some 1, none, none⟩

/-- The state in which the first task runs. -/
def firstTaskRunning : RuntimeState :=
  ((runtime defaultConfig).run firstTurn (publishTwoTasks ++ [claimFirstTask])).getD firstTurn

/-- What the worker of the first task was handed. -/
def firstSnapshot : Snapshot := firstTaskRunning.handedOut.head (by decide)

theorem firstTaskRunning_run :
    (runtime defaultConfig).run firstTurn (publishTwoTasks ++ [claimFirstTask]) =
      some firstTaskRunning := rfl

theorem firstTaskRunning_reachable : (runtime defaultConfig).Reachable firstTaskRunning :=
  reachable_of_run firstTurn_fresh (.of_run firstTaskRunning_run)

end DocFlow.TaskRuntime
