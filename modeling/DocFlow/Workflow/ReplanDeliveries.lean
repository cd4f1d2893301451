import DocFlow.Workflow.PlannerRun

/-!
# Deliveries of a request for a revision

`RuntimeEventDispatcher.handle` and `ReplanUseCase.execute` as the stream workers run them: a message
is delivered, the inbox is read, the revision is prepared, its planner runs with one transaction
for each tool call, and the message is acknowledged when the handler has returned.

A message can be delivered again while it is not acknowledged: by `XAUTOCLAIM` once it has
been idle for a minute, or to its own consumer when the handler is over.  What else happens to the
plans is any step of the workflow (`replanning_simulates`).
-/

namespace DocFlow.Workflow

open Planning TaskRuntime

/-! ## The lease of a planner run -/

/-- `PLANNER_RUN_LEASE_SECONDS`. -/
def plannerRunLease : Time := timedelta 1800

/-- `claim_min_idle_milliseconds`. -/
def claimMinIdle : Time := timedelta 60

/-- The column `plans.updated_at`, which only the lease of a plan in `PLANNING` reads. -/
abbrev UpdatedAt := PlanId → Time

/-- The plan of a request that has been seen before: it is run again when its lease is over. -/
def resumedPlan (now : Time) (event : ReplanRequested) (updatedAt : UpdatedAt) (db : Db) :
    Option PlanId :=
  match db.getByWorkflowAndRevision event.payload.workflowId event.payload.nextRevision with
  | none => none
  | some existing =>
    if existing.status ≠ .planning then none
    else if now < updatedAt existing.planId + plannerRunLease then none
    else some existing.planId

/-- The plan of a request that has not been seen. -/
def openedPlan (newPlanId : PlanId) (event : ReplanRequested) (db : Db) : Option PlanId :=
  if maxPlanRevisions < event.payload.nextRevision then none
  else
    match db.getByWorkflowAndRevision event.payload.workflowId event.payload.nextRevision with
    | some existing => if existing.status = .planning then some existing.planId else none
    | none => some newPlanId

/-- The plan that `_prepare_revision` returns, if there is one to run. -/
def preparedPlan (newPlanId : PlanId) (now : Time) (seen : Bool) (event : ReplanRequested)
    (updatedAt : UpdatedAt) (db : Db) : Option PlanId :=
  if seen then resumedPlan now event updatedAt db else openedPlan newPlanId event db

/-- The plan that `_prepare_revision` creates. -/
def createdPlan (newPlanId : PlanId) (seen : Bool) (event : ReplanRequested) (db : Db) :
    Option PlanId :=
  if seen ∨ maxPlanRevisions < event.payload.nextRevision ∨
    (db.getByWorkflowAndRevision event.payload.workflowId event.payload.nextRevision).isSome then none
  else some newPlanId

/-- The lease starts when a plan is created, and when it is run again. -/
def touch (updatedAt : UpdatedAt) (now : Time) : Option PlanId → UpdatedAt
  | none => updatedAt
  | some planId => fun q => if q = planId then now else updatedAt q

/-! ## A delivery -/

/-- Where a handler stands. -/
inductive ReplanPhase
  | arrived
  | checked (seen : Bool)
  | prepared (planId : PlanId)
  | loaded (planId : PlanId)
  | running (planId : PlanId)
  | ended (planId : PlanId) (ending : RunnerEnd)
  | finishing (planId : PlanId) (reason : BoundedText)
  | retrying (planId : PlanId) (reason : BoundedText)
  | marked (planId : PlanId)
  | returned
deriving DecidableEq, Repr

/-- The plan that a handler runs the planner for. -/
def ReplanPhase.plan? : ReplanPhase → Option PlanId
  | prepared planId | loaded planId | running planId | ended planId _ | finishing planId _
  | retrying planId _ | marked planId => some planId
  | arrived | checked _ | returned => none

/-- A delivery of a message, with the plan it has created. -/
structure Delivery where
  message : Nat
  event : ReplanRequested
  phase : ReplanPhase
  alive : Bool
  created : Option PlanId
deriving DecidableEq, Repr

inductive DeliveryAction
  | check
  | prepare (newPlanId : PlanId) (now : Time)
  | load
  | validate
  | call (call : ToolCall)
  | endRun (ending : RunnerEnd)
  | question
  | read
  | mark (draw : RetryDraw)
  | reread
  | crash

namespace Delivery

def arrive (message : Nat) (event : ReplanRequested) : Delivery where
  message := message
  event := event
  phase := .arrived
  alive := true
  created := none

/-- The handler has raised, or its worker is gone. -/
def raised (d : Delivery) : Delivery := { d with alive := false }

def goto (d : Delivery) (phase : ReplanPhase) : Delivery := { d with phase := phase }

/-- The command of `execute`.  Only the turn and the revision are read in the run of an existing
plan. -/
def command (d : Delivery) : RunPlanningInput where
  conversationId := d.event.payload.conversationId
  turnId := d.event.payload.rootTurnId
  revision := d.event.payload.nextRevision
  workflowId := some d.event.payload.workflowId
  parentPlanId := some d.event.payload.previousPlanId

def context (d : Delivery) (planId : PlanId) : AgentToolContext :=
  ⟨planId, d.event.payload.rootTurnId, d.event.payload.conversationId⟩

/-- After `_prepare_revision`. -/
def afterPrepare (d : Delivery) (prepared created : Option PlanId) : Except Failure Db → Delivery
  | .error _ => d.raised
  | .ok _ =>
    match prepared with
    | none => { d with phase := .returned, created := created }
    | some planId => { d with phase := .prepared planId, created := created }

/-- After a transaction or a read that does not answer. -/
def afterUnit {α : Type} (d : Delivery) (phase : ReplanPhase) : Except Failure α → Delivery
  | .error _ => d.raised
  | .ok _ => d.goto phase

/-- The question of the runner is written, when there is one. -/
def question (d : Delivery) (planId : PlanId) (db : Db) : RunnerEnd → Option WorkflowAction × Delivery
  | .retryRequested reason => (none, d.goto (.finishing planId reason))
  | .raised => (none, d.goto (.finishing planId systemExceptionReason))
  | .returned none => (none, d.goto (.finishing planId notCalledReason))
  | .returned (some question) =>
    if PyString.isBlank question.text then (none, d.goto (.finishing planId notCalledReason))
    else (some (.setClarificationQuestion planId question),
      d.afterUnit (.finishing planId notCalledReason) (setClarificationQuestion planId question db))

/-- The first read of `_finish_from_database`. -/
def afterRead (d : Delivery) (planId : PlanId) (reason : BoundedText) :
    Except Failure RunPlanningResult → Delivery
  | .error _ => d.raised
  | .ok result => d.goto (if result.needsRetry then .retrying planId reason else .returned)

/-- One step of a delivery: the transaction it runs, if any, and the delivery afterwards. -/
def step (db : Db) (updatedAt : UpdatedAt) (d : Delivery) (action : DeliveryAction) :
    Option (Option WorkflowAction × Delivery) :=
  match action, d.phase with
  | .check, .arrived =>
    some (none, d.goto (.checked (db.inboxExists replanConsumerName d.event.eventId)))
  | .prepare newPlanId now, .checked seen =>
    some (some (.runtime (.prepareRevision newPlanId (.at now) seen d.event.eventId)),
      d.afterPrepare (preparedPlan newPlanId now seen d.event updatedAt db)
        (createdPlan newPlanId seen d.event db) (prepareRevision newPlanId now seen d.event db))
  | .load, .prepared planId =>
    some (none, d.afterUnit (.loaded planId)
      (loadPlannableSnapshot d.command [.contextReady, .processing, .completed] db))
  | .validate, .loaded planId =>
    some (none, d.afterUnit (.running planId) (validateExistingPlan d.command planId db))
  | .call call, .running planId => some (some (toolAction (d.context planId) call), d)
  | .endRun ending, .running planId => some (none, d.goto (.ended planId ending))
  | .question, .ended planId ending => some (d.question planId db ending)
  | .read, .finishing planId reason =>
    some (none, d.afterRead planId reason (readResult planId d.event.payload.rootTurnId db))
  | .mark draw, .retrying planId reason =>
    some (some (.markPlanRetryPending draw.newEventId draw.resolvedAt draw.availableAt planId reason),
      d.afterUnit (.marked planId)
        (markPlanRetryPending draw.newEventId draw.resolvedAt draw.availableAt planId reason db))
  | .reread, .marked planId =>
    some (none, d.afterUnit .returned (readResult planId d.event.payload.rootTurnId db))
  | .crash, _ => some (none, d.raised)
  | _, _ => none

/-- The plan whose lease a step starts. -/
def leased (d d' : Delivery) : Option PlanId :=
  match d.phase, d'.phase with
  | .checked true, .prepared planId => some planId
  | .checked false, .prepared _ => d'.created
  | _, _ => none

end Delivery

/-! ## The machine -/

/-- A message of the stream, with the time of its last delivery. -/
structure Message where
  event : ReplanRequested
  deliveredAt : Option Time
  acked : Bool
deriving DecidableEq, Repr

/-- `published` are the events whose outbox row is marked as published. -/
structure ReplanState where
  workflow : WorkflowState
  updatedAt : UpdatedAt
  published : List EventId
  stream : List Message
  deliveries : List Delivery
  clock : Time

inductive ReplanAction
  | workflow (a : WorkflowAction)
  | publish (eventId : EventId)
  | markPublished (eventId : EventId)
  | deliver (message : Nat) (now : Time)
  | handle (index : Nat) (action : DeliveryAction)
  | ack (index : Nat)

namespace ReplanState

/-- The tables all handlers work on. -/
def db (st : ReplanState) : Db := st.workflow.runtime.db

/-- A message can be delivered when it is new, when it has been idle, and when the handler
of its last delivery is over. -/
def Deliverable (st : ReplanState) (message : Nat) (m : Message) (now : Time) : Prop :=
  m.acked = false ∧ st.clock ≤ now ∧ ∀ t, m.deliveredAt = some t → t + claimMinIdle ≤ now ∨
    ∀ d ∈ st.deliveries, d.message = message → d.alive = false

instance (st : ReplanState) (message : Nat) (m : Message) (now : Time) :
    Decidable (st.Deliverable message m now) :=
  inferInstanceAs (Decidable (_ ∧ _ ∧ ∀ t ∈ m.deliveredAt, t + claimMinIdle ≤ now ∨
    ∀ d ∈ st.deliveries, d.message = message → d.alive = false))

/-- The state after a step of a delivery. -/
def setDelivery (st : ReplanState) (index : Nat) (now : Time) (d d' : Delivery) (w : WorkflowState) :
    ReplanState :=
  { st with
    workflow := w
    updatedAt := touch st.updatedAt now (d.leased d')
    deliveries := st.deliveries.set index d'
    clock := now }

/-- A message is handed to a worker. -/
def handOut (st : ReplanState) (message : Nat) (m : Message) (now : Time) : ReplanState :=
  { st with
    stream := st.stream.set message { m with deliveredAt := some now }
    deliveries := st.deliveries ++ [.arrive message m.event]
    clock := now }

/-- `XACK`, after the handler has returned. -/
def acknowledge (st : ReplanState) (index : Nat) (d : Delivery) (m : Message) : ReplanState :=
  { st with
    stream := st.stream.set d.message { m with acked := true }
    deliveries := st.deliveries.set index d.raised }

end ReplanState

/-- The transaction of a handler. -/
def isPrepareRevision : WorkflowAction → Bool
  | .runtime (.prepareRevision ..) => true
  | _ => false

/-- The time that a step reads. -/
def DeliveryAction.time : DeliveryAction → Option Time
  | .prepare _ now => some now
  | _ => none

/-- **Requests for a revision under any interleaving**: deliveries, planner runs, crashes, and the
rest of the workflow. -/
def replanning (config : RuntimeConfig) : Machine ReplanState ReplanAction where
  init st := st.workflow.Fresh ∧ st.published = [] ∧ st.stream = [] ∧ st.deliveries = []
  step st
    | .workflow a =>
      if isPrepareRevision a then none
      else ((workflows config).step st.workflow a).map fun w => { st with workflow := w }
    | .publish eventId =>
      if eventId ∈ st.published then none
      else (replanRequest st.db eventId).map fun event =>
        { st with stream := st.stream ++ [⟨event, none, false⟩] }
    | .markPublished eventId =>
      if ∃ m ∈ st.stream, m.event.eventId = eventId then
        some { st with published := eventId :: st.published }
      else none
    | .deliver message now => do
      let m ← st.stream[message]?
      if st.Deliverable message m now then some (st.handOut message m now) else none
    | .handle index action => do
      let d ← st.deliveries[index]?
      let now := action.time.getD st.clock
      if d.alive ∧ st.clock ≤ now then
        let (a, d') ← d.step st.db st.updatedAt action
        match a with
        | none => some (st.setDelivery index now d d' st.workflow)
        | some a => ((workflows config).step st.workflow a).map (st.setDelivery index now d d')
      else none
    | .ack index => do
      let d ← st.deliveries[index]?
      let m ← st.stream[d.message]?
      if d.alive ∧ d.phase = .returned then some (st.acknowledge index d m) else none

/-! ## What one step is made of -/

/-- The phase that a prepared revision leads to. -/
def phaseOf : Option PlanId → ReplanPhase
  | none => .returned
  | some planId => .prepared planId

/-- The ways a delivery can go on. -/
inductive DeliveryStep (db : Db) (updatedAt : UpdatedAt) (d : Delivery) :
    DeliveryAction → Option WorkflowAction → Delivery → Prop
  | over (action : DeliveryAction) (a : Option WorkflowAction) : a.any isPrepareRevision = false →
      DeliveryStep db updatedAt d action a d.raised
  | refused (newPlanId : PlanId) (now : Time) (seen : Bool) (failure : Failure) :
      prepareRevision newPlanId now seen d.event db = .error failure →
      DeliveryStep db updatedAt d (.prepare newPlanId now)
        (some (.runtime (.prepareRevision newPlanId (.at now) seen d.event.eventId))) d.raised
  | checked : d.phase = .arrived → DeliveryStep db updatedAt d .check none
      (d.goto (.checked (db.inboxExists replanConsumerName d.event.eventId)))
  | prepared (newPlanId : PlanId) (now : Time) (seen : Bool) (db' : Db) : d.phase = .checked seen →
      prepareRevision newPlanId now seen d.event db = .ok db' →
      DeliveryStep db updatedAt d (.prepare newPlanId now)
        (some (.runtime (.prepareRevision newPlanId (.at now) seen d.event.eventId)))
        { d with
          phase := phaseOf (preparedPlan newPlanId now seen d.event updatedAt db)
          created := createdPlan newPlanId seen d.event db }
  | went (action : DeliveryAction) (a : Option WorkflowAction) (planId : PlanId)
      (phase : ReplanPhase) : d.phase.plan? = some planId → phase.plan? = some planId →
      phase ≠ .marked planId → a.any isPrepareRevision = false →
      DeliveryStep db updatedAt d action a (d.goto phase)
  | marked (planId : PlanId) (draw : RetryDraw) (reason : BoundedText) (db' : Db) :
      d.phase = .retrying planId reason →
      markPlanRetryPending draw.newEventId draw.resolvedAt draw.availableAt planId reason db =
        .ok db' →
      DeliveryStep db updatedAt d (.mark draw) (some (.markPlanRetryPending draw.newEventId
        draw.resolvedAt draw.availableAt planId reason)) (d.goto (.marked planId))
  | settled (planId : PlanId) (reason : BoundedText) (result : RunPlanningResult) :
      d.phase = .finishing planId reason →
      readResult planId d.event.payload.rootTurnId db = .ok result → result.needsRetry = false →
      DeliveryStep db updatedAt d .read none (d.goto .returned)
  | reread (planId : PlanId) : d.phase = .marked planId →
      DeliveryStep db updatedAt d .reread none (d.goto .returned)

section Steps

variable {config : RuntimeConfig} {db : Db} {updatedAt : UpdatedAt} {d d' : Delivery}
  {a : Option WorkflowAction}

theorem toolAction_not_prepare (context : AgentToolContext) (call : ToolCall) :
    isPrepareRevision (toolAction context call) = false := by
  cases call <;> rfl

/-- A step of a run that keeps its plan. -/
theorem Delivery.afterUnit_cases {α : Type} {action : DeliveryAction} {planId : PlanId}
    {phase : ReplanPhase} (x : Except Failure α) (hd : d.phase.plan? = some planId)
    (hphase : phase.plan? = some planId) (hmarked : phase ≠ .marked planId)
    (ha : a.any isPrepareRevision = false) :
    DeliveryStep db updatedAt d action a (d.afterUnit phase x) := by
  cases x with
  | error => exact .over action a ha
  | ok => exact .went action a planId phase hd hphase hmarked ha

theorem Delivery.question_cases {planId : PlanId} {ending : RunnerEnd}
    (hd : d.phase = .ended planId ending) (h : d.question planId db ending = (a, d')) :
    DeliveryStep db updatedAt d .question a d' := by
  have hplan : d.phase.plan? = some planId := by rw [hd]; rfl
  have hgo : ∀ reason, DeliveryStep db updatedAt d .question none (d.goto (.finishing planId reason)) :=
    fun reason => .went _ _ planId _ hplan rfl nofun rfl
  cases ending with
  | retryRequested reason =>
    obtain ⟨rfl, rfl⟩ := Prod.mk.inj h
    exact hgo reason
  | raised =>
    obtain ⟨rfl, rfl⟩ := Prod.mk.inj h
    exact hgo systemExceptionReason
  | returned question =>
    cases question with
    | none =>
      obtain ⟨rfl, rfl⟩ := Prod.mk.inj h
      exact hgo notCalledReason
    | some question =>
      simp only [Delivery.question] at h
      split at h
      · obtain ⟨rfl, rfl⟩ := Prod.mk.inj h
        exact hgo notCalledReason
      · obtain ⟨rfl, rfl⟩ := Prod.mk.inj h
        exact Delivery.afterUnit_cases _ hplan rfl nofun rfl

theorem Delivery.step_cases {action : DeliveryAction} (h : d.step db updatedAt action = some (a, d')) :
    DeliveryStep db updatedAt d action a d' := by
  unfold Delivery.step at h
  split at h
  · next hd =>
    obtain ⟨rfl, rfl⟩ := Prod.mk.inj (Option.some.inj h)
    exact .checked hd
  · next newPlanId now seen hd =>
    obtain ⟨rfl, rfl⟩ := Prod.mk.inj (Option.some.inj h)
    cases hx : prepareRevision newPlanId now seen d.event db with
    | error failure => exact .refused newPlanId now seen failure hx
    | ok db' =>
      have hstep : DeliveryStep db updatedAt d _ _ _ := .prepared newPlanId now seen db' hd hx
      cases hprep : preparedPlan newPlanId now seen d.event updatedAt db <;> rw [hprep] at hstep <;>
        exact hstep
  · next planId hd =>
    obtain ⟨rfl, rfl⟩ := Prod.mk.inj (Option.some.inj h)
    exact afterUnit_cases _ (by rw [hd]; rfl) rfl nofun rfl
  · next planId hd =>
    obtain ⟨rfl, rfl⟩ := Prod.mk.inj (Option.some.inj h)
    exact afterUnit_cases _ (by rw [hd]; rfl) rfl nofun rfl
  · next call planId hd =>
    obtain ⟨rfl, rfl⟩ := Prod.mk.inj (Option.some.inj h)
    have hplan : d.phase.plan? = some planId := by rw [hd]; rfl
    exact .went _ _ planId d.phase hplan hplan (by rw [hd]; nofun) (toolAction_not_prepare _ call)
  · next ending planId hd =>
    obtain ⟨rfl, rfl⟩ := Prod.mk.inj (Option.some.inj h)
    exact .went _ _ planId _ (by rw [hd]; rfl) rfl nofun rfl
  · next planId ending hd =>
    exact question_cases hd (Option.some.inj h)
  · next planId reason hd =>
    obtain ⟨rfl, rfl⟩ := Prod.mk.inj (Option.some.inj h)
    cases hx : readResult planId d.event.payload.rootTurnId db with
    | error => exact .over _ _ rfl
    | ok result =>
      cases hretry : result.needsRetry with
      | true =>
        simp only [afterRead, hretry, if_true]
        exact .went _ _ planId _ (by rw [hd]; rfl) rfl nofun rfl
      | false =>
        simp only [afterRead, hretry]
        exact .settled planId reason result hd hx hretry
  · next draw planId reason hd =>
    obtain ⟨rfl, rfl⟩ := Prod.mk.inj (Option.some.inj h)
    cases hx : markPlanRetryPending draw.newEventId draw.resolvedAt draw.availableAt planId reason db with
    | error => exact .over _ _ rfl
    | ok db' =>
      exact .marked planId draw reason db' hd hx
  · next planId hd =>
    obtain ⟨rfl, rfl⟩ := Prod.mk.inj (Option.some.inj h)
    cases hx : readResult planId d.event.payload.rootTurnId db with
    | error => exact .over _ _ rfl
    | ok result => exact .reread planId hd
  · obtain ⟨rfl, rfl⟩ := Prod.mk.inj (Option.some.inj h)
    exact .over _ _ rfl
  · cases h

end Steps

/-- The ways the machine can go on. -/
inductive ReplanStep (config : RuntimeConfig) (st : ReplanState) : ReplanAction → ReplanState → Prop
  | worked (a : WorkflowAction) (w : WorkflowState) : isPrepareRevision a = false →
      (workflows config).step st.workflow a = some w →
      ReplanStep config st (.workflow a) { st with workflow := w }
  | published (eventId : EventId) (event : ReplanRequested) :
      replanRequest st.db eventId = some event →
      ReplanStep config st (.publish eventId) { st with stream := st.stream ++ [⟨event, none, false⟩] }
  | markedPublished (eventId : EventId) (m : Message) : m ∈ st.stream → m.event.eventId = eventId →
      ReplanStep config st (.markPublished eventId) { st with published := eventId :: st.published }
  | delivered (message : Nat) (now : Time) (m : Message) : st.stream[message]? = some m →
      st.Deliverable message m now →
      ReplanStep config st (.deliver message now) (st.handOut message m now)
  | moved (index : Nat) (action : DeliveryAction) (now : Time) (d d' : Delivery) :
      st.deliveries[index]? = some d → d.alive = true →
      DeliveryStep st.db st.updatedAt d action none d' →
      ReplanStep config st (.handle index action) (st.setDelivery index now d d' st.workflow)
  | committed (index : Nat) (action : DeliveryAction) (now : Time) (d d' : Delivery)
      (a : WorkflowAction) (w : WorkflowState) : st.deliveries[index]? = some d → d.alive = true →
      DeliveryStep st.db st.updatedAt d action (some a) d' →
      (workflows config).step st.workflow a = some w →
      ReplanStep config st (.handle index action) (st.setDelivery index now d d' w)
  | acked (index : Nat) (d : Delivery) (m : Message) : st.deliveries[index]? = some d →
      st.stream[d.message]? = some m → d.alive = true → d.phase = .returned →
      ReplanStep config st (.ack index) (st.acknowledge index d m)

theorem replanning_step_cases {config : RuntimeConfig} {st st' : ReplanState} {act : ReplanAction}
    (h : (replanning config).step st act = some st') : ReplanStep config st act st' := by
  cases act with
  | workflow a =>
    simp only [replanning] at h
    split at h
    · cases h
    · next ha =>
      obtain ⟨w, hw, rfl⟩ := Option.map_eq_some_iff.mp h
      exact .worked a w (eq_false_of_ne_true ha) hw
  | publish eventId =>
    simp only [replanning] at h
    split at h
    · cases h
    · obtain ⟨event, hevent, rfl⟩ := Option.map_eq_some_iff.mp h
      exact .published eventId event hevent
  | markPublished eventId =>
    simp only [replanning] at h
    split at h
    · next hm =>
      obtain ⟨m, hm, hid⟩ := hm
      obtain rfl := Option.some.inj h
      exact .markedPublished eventId m hm hid
    · cases h
  | deliver message now =>
    obtain ⟨m, hm, h⟩ := Option.bind_eq_some_iff.mp h
    split at h
    · next hdeliver =>
      obtain rfl := Option.some.inj h
      exact .delivered message now m hm hdeliver
    · cases h
  | handle index action =>
    obtain ⟨d, hd, h⟩ := Option.bind_eq_some_iff.mp h
    dsimp only at h
    split at h
    · next halive =>
      obtain ⟨⟨a, d'⟩, hstep, h⟩ := Option.bind_eq_some_iff.mp h
      have hcases := Delivery.step_cases hstep
      cases a with
      | none =>
        obtain rfl := Option.some.inj h
        exact .moved index action _ d d' hd halive.1 hcases
      | some a =>
        obtain ⟨w, hw, rfl⟩ := Option.map_eq_some_iff.mp h
        exact .committed index action _ d d' a w hd halive.1 hcases hw
    · cases h
  | ack index =>
    obtain ⟨d, hd, h⟩ := Option.bind_eq_some_iff.mp h
    obtain ⟨m, hm, h⟩ := Option.bind_eq_some_iff.mp h
    split at h
    · next hreturned =>
      obtain rfl := Option.some.inj h
      exact .acked index d m hd hm hreturned.1 hreturned.2
    · cases h

/-- **Every step is at most one step of the workflow.** -/
theorem replanning_simulates (config : RuntimeConfig) (ok : ReplanState → ReplanAction → Prop) :
    Simulation (replanning config) (workflows config) ReplanState.workflow ok fun _ _ => True where
  init := fun _ h => h.1
  step := by
    intro st act st' _ _ hstep
    cases replanning_step_cases hstep with
    | worked a w _ hw => exact ⟨[a], .cons trivial hw (.nil _)⟩
    | published | markedPublished | delivered | moved | acked => exact ⟨[], .nil _⟩
    | committed index action now d d' a w _ _ _ hw => exact ⟨[a], .cons trivial hw (.nil _)⟩

theorem replanning_workflow_reachable {config : RuntimeConfig} {ok : ReplanState → ReplanAction → Prop}
    {st : ReplanState} (h : (replanning config).ReachableVia ok st) :
    (workflows config).Reachable st.workflow := (replanning_simulates config ok).reachable h

end DocFlow.Workflow
