import DocFlow.TaskRuntime.Vigilance
import DocFlow.Workflow.Clarifications

/-!
# The runtime inside a workflow

What the planner, the user and the aggregation write leaves the plans under execution to the runtime
(`Outside`): no task, no dependency, no execution and no record of an event changes, and a plan
that changes is not executed afterwards.  So the task graph and the wake-ups of the runtime are
kept by every step of a workflow, and `workflow_keeps_wakeups` says what this comes to for a plan
under execution.
-/

namespace DocFlow.Workflow

open Planning TaskRuntime

/-! ## The transactions outside the runtime -/

/-- The statuses a planner run ends with when it publishes nothing. -/
def isMarked : PlanStatus → Bool
  | .unsupported | .needsClarification | .retryPending => true
  | _ => false

/-- A plan after a transaction outside the runtime. -/
inductive PlanAfter (db : Db) (p' : Plan) : Prop
  | kept : p' ∈ db.plans → PlanAfter db p'
  | created : p'.status = .planning → (∀ q ∈ db.plans, q.planId ≠ p'.planId) → PlanAfter db p'
  | marked : isMarked p'.status = true → PlanAfter db p'

structure Outside (db db' : Db) : Prop where
  tasks : db'.tasks = db.tasks
  taskDependencies : db'.taskDependencies = db.taskDependencies
  taskExecutions : db'.taskExecutions = db.taskExecutions
  inbox : db'.inbox = db.inbox
  outbox : ∀ ev ∈ db.outbox, ev ∈ db'.outbox
  plans : ∀ p' ∈ db'.plans, PlanAfter db p'

section Transactions

variable {db db' : Db}

theorem PlanAfter.of_mark {p p' : Plan} {status : PlanStatus} {reason code : Option String}
    (hp : p ∈ db.plans) (hst : isMarked status = true)
    (hp' : p' ∈ db.plans.save (setPlanStatus status reason code p)) : PlanAfter db p' := by
  rcases (Table.mem_save_of_mem (r := setPlanStatus status reason code p) hp rfl).mp hp' with
    rfl | ⟨hp', -⟩
  · exact .marked hst
  · exact .kept hp'

/-- **The transactions outside the runtime.** -/
theorem transaction_outside {a : WorkflowAction} (h : a.transaction db = .ok db') :
    Outside db db' := by
  have hsame : ∀ x : Db, x.plans = db.plans → x.tasks = db.tasks →
      x.taskDependencies = db.taskDependencies → x.taskExecutions = db.taskExecutions →
      x.inbox = db.inbox → x.outbox = db.outbox → Outside db x := by
    intro x hp ht hd he hi ho
    exact ⟨ht, hd, he, hi, fun ev hev => ho ▸ hev, fun p' hp' => .kept (hp ▸ hp')⟩
  cases a with
  | createTurn turnId conversationId =>
    simp only [WorkflowAction.transaction, Context.createTurn, bind_eq_ok, orRaise_eq_ok,
      pure_eq_ok] at h
    obtain ⟨turns, -, rfl⟩ := h
    exact hsame _ rfl rfl rfl rfl rfl rfl
  | persistContextSelection turnId conversationId relevantChainIds =>
    obtain ⟨turn, selections, -, -, rfl⟩ := Context.persistContextSelection_eq_ok h
    exact hsame _ rfl rfl rfl rfl rfl rfl
  | markTurnFailed turnId =>
    obtain rfl := Except.ok.inj h
    unfold Context.markTurnFailed
    split
    · exact hsame _ rfl rfl rfl rfl rfl rfl
    · split
      · exact hsame _ rfl rfl rfl rfl rfl rfl
      · exact hsame _ rfl rfl rfl rfl rfl rfl
  | createPlan newPlanId newWorkflowId turnId =>
    simp only [WorkflowAction.transaction, Planning.createPlan, bind_eq_ok] at h
    obtain ⟨_, -, _, -, h⟩ := h
    obtain ⟨plans, -, -, hplans, rfl⟩ := insertPlan_eq_ok h
    refine ⟨rfl, rfl, rfl, rfl, fun _ hev => hev, fun p' hp' => ?_⟩
    rcases (Table.mem_insert hplans).mp hp' with hp' | rfl
    · exact .kept hp'
    · exact .created rfl fun q hq => Table.key_not_mem_of_insert hplans hq
  | runtime action =>
    obtain rfl := Except.ok.inj h
    exact hsame _ rfl rfl rfl rfl rfl rfl
  | markPlanUnsupported planId reason =>
    obtain ⟨-, p, hp, -, rfl⟩ := markPlanUnsupported_eq_ok.mp h
    exact ⟨rfl, rfl, rfl, rfl, fun _ hev => hev, fun p' hp' =>
      .of_mark (Table.mem_of_get? hp) rfl hp'⟩
  | markPlanRetryPending newEventId resolvedAt availableAt planId reason =>
    obtain ⟨-, p, turn, outbox, hp, -, -, hout, rfl⟩ := markPlanRetryPending_eq_ok.mp h
    exact ⟨rfl, rfl, rfl, rfl, fun _ hev => (Table.mem_insert hout).mpr (.inl hev), fun p' hp' =>
      .of_mark (Table.mem_of_get? hp) rfl hp'⟩
  | markPlanNeedsClarification newClarificationId command =>
    obtain ⟨p, turn, table, hp, -, -, -, -, -, -, rfl⟩ := markPlanNeedsClarification_eq_ok h
    exact ⟨rfl, rfl, rfl, rfl, fun _ hev => hev, fun p' hp' =>
      .of_mark (Table.mem_of_get? hp) rfl hp'⟩
  | setClarificationQuestion planId question =>
    obtain ⟨p, r, turn, -, -, -, -, -, rfl⟩ := setClarificationQuestion_eq_ok.mp h
    exact hsame _ rfl rfl rfl rfl rfl rfl
  | answerClarification newEventId now conversationId sourceTurnId answer =>
    obtain ⟨r, turn, p, outbox, -, -, -, -, -, -, -, hout, rfl⟩ := answerClarification_eq_ok h
    exact ⟨rfl, rfl, rfl, rfl, fun _ hev => (Table.mem_insert hout).mpr (.inl hev),
      fun p' hp' => .kept hp'⟩
  | completeTurn drawnChainId now turnId command =>
    obtain ⟨⟨_, _⟩, hcomplete, rfl⟩ := map_eq_ok.mp h
    cases Context.completeTurn_cases hcomplete with
    | before _ _ _ _ _ hdb =>
      rw [hdb]
      exact hsame _ rfl rfl rfl rfl rfl rfl
    | now _ _ _ _ _ _ _ _ _ _ _ _ _ hdb =>
      rw [hdb]
      exact hsame _ rfl rfl rfl rfl rfl rfl
  | resolveClarification now planId =>
    obtain rfl := Except.ok.inj h
    obtain ⟨requests, hresolve⟩ := Aggregation.resolveClarification_eq now planId db
    rw [hresolve]
    exact hsame _ rfl rfl rfl rfl rfl rfl

theorem Outside.taskGraph {registry : CapabilityRegistry} (hcons : Consistent registry db)
    (h : TaskGraph db) (hout : Outside db db') : TaskGraph db' where
  edges := h.edges.of_eq hout.taskDependencies hout.tasks
  executable := by
    intro p' hp'
    cases hout.plans p' hp' with
    | kept hp => exact (h.executable p' hp).frame fun t _ => by rw [hout.tasks]
    | created hst hnew =>
      refine .of_drafts hst fun t ht htp => ?_
      rw [hout.tasks] at ht
      obtain ⟨q, hq, hqt⟩ := hcons.planOfTask t ht
      exact absurd (hqt.trans htp) (hnew q hq)
    | marked hst =>
      refine .of_ended ?_ ?_ ?_ <;> · intro hc; rw [hc] at hst; cases hst

theorem Outside.recorded (hout : Outside db db') {eventId : EventId} :
    Recorded db' eventId ↔ Recorded db eventId := by
  rw [Recorded, hout.inbox, Recorded]

/-- A plan under execution has not been touched. -/
theorem Outside.live (hout : Outside db db') {p : Plan} (hp : p ∈ db'.plans) (hlive : Live p) :
    p ∈ db.plans := by
  cases hout.plans p hp with
  | kept hp => exact hp
  | created hst => rcases hlive with hl | hl <;> simp [hl] at hst
  | marked hst => rcases hlive with hl | hl <;> simp [hl, isMarked] at hst

theorem Outside.wakeful {registry : CapabilityRegistry} (h : Wakeful registry db)
    (hout : Outside db db') : Wakeful registry db' where
  awake := by
    intro p hp hlive hunlocked
    have hkept : KeepsCurrent db db' p := .of_eq hout.taskExecutions hout.tasks
    obtain ⟨ev, hev, hnew, input, hdrives⟩ :=
      h.awake p (hout.live hp hlive) hlive (hunlocked.back hkept)
    exact ⟨ev, hout.outbox ev hev, fun hrec => hnew (hout.recorded.mp hrec), input, hdrives.kept hkept⟩
  known := by
    intro i hi
    obtain ⟨ev, hev, hid⟩ := h.known i (hout.recorded.mp hi)
    exact ⟨ev, hout.outbox ev hev, hid⟩

end Transactions

/-! ## Every step -/

section Runs

variable {config : RuntimeConfig} {s s' : WorkflowState} {a : WorkflowAction}

theorem TaskGraph.workflowStep (hs : Owned config.registry s.runtime) (h : TaskGraph s.runtime.db)
    (hstep : (workflows config).step s a = some s') : TaskGraph s'.runtime.db := by
  rcases workflow_step hstep with ⟨action, r, -, -, hr, rfl⟩ | ⟨db, -, htx, rfl⟩ | rfl
  · exact (Effects.taskGraph hs.consistent h (runtime_step_effects hs hr)).2
  · exact (transaction_outside htx).taskGraph hs.consistent h
  · exact h

theorem workflow_taskGraph {ok : WorkflowState → WorkflowAction → Prop}
    (h : (workflows config).ReachableVia ok s) : TaskGraph s.runtime.db :=
  h.invariant (P := fun s => TaskGraph s.runtime.db)
    (by rintro s ⟨hi, -⟩; exact hi.taskGraph)
    fun _ _ _ hr hgraph _ hstep => TaskGraph.workflowStep (workflow_owned hr) hgraph hstep

/-- **The plans under execution stay awake**, if the runtime records wake-ups as its workers do. -/
theorem Wakeful.workflowStep (hs : (workflows config).Reachable s)
    (h : Wakeful config.registry s.runtime.db) (hstep : (workflows config).step s a = some s')
    (hok : ∀ b y, a = .runtime b → b.transaction config s.runtime.db = .ok y →
      Punctual s.runtime.db b) : Wakeful config.registry s'.runtime.db := by
  rcases workflow_step hstep with ⟨action, r, rfl, -, hr, rfl⟩ | ⟨db, -, htx, rfl⟩ | rfl
  · exact h.step (workflow_owned hs) (workflow_taskGraph hs) hr fun y hy => hok action y rfl hy
  · exact (transaction_outside htx).wakeful h
  · exact h

/-- The transactions of the runtime record a wake-up as its workers do. -/
def PunctualStep (config : RuntimeConfig) (s : WorkflowState) (a : WorkflowAction) : Prop :=
  ∀ b y, a = .runtime b → b.transaction config s.runtime.db = .ok y → Punctual s.runtime.db b

theorem workflow_wakeful (h : (workflows config).ReachableVia (PunctualStep config) s) :
    Wakeful config.registry s.runtime.db :=
  h.invariant (P := fun s => Wakeful config.registry s.runtime.db)
    (by rintro s ⟨hi, -⟩; exact hi.wakeful)
    fun _ _ _ hr hw hok hstep => Wakeful.workflowStep hr.reachable hw hstep hok

/-- **No interleaving with the planner, the user and the aggregation loses a wake-up**: whenever a
plan is ready or running and its current execution, if it has one, is not locked, the outbox holds a
wake-up of the plan that the runtime has not recorded and that drives the plan. -/
theorem workflow_keeps_wakeups (h : (workflows config).ReachableVia (PunctualStep config) s) (p : Plan)
    (hp : p ∈ s.runtime.db.plans) (hlive : p.status = .ready ∨ p.status = .running)
    (hunlocked : ∀ T, p.currentTaskId = some T → ∀ e, s.runtime.db.getLatestByTask T = some e →
      e.status ≠ .compensationLocked) :
    ∃ ev ∈ s.runtime.db.outbox, ev.eventType = .planWakeup ∧ ev.payload.planId = some p.planId ∧
      ¬ Recorded s.runtime.db ev.eventId ∧
      ∃ input, Drives config.registry s.runtime.db p ev input := by
  obtain ⟨ev, hev, hnew, input, hdrives⟩ := (workflow_wakeful h).awake p hp hlive
    (.of_latest (workflow_owned h.reachable).consistent hunlocked)
  obtain ⟨htype, hplan, -⟩ := delivery_eq_some.mp hdrives.delivered
  exact ⟨ev, hev, htype, by rw [hplan, hdrives.planId], hnew, input, hdrives⟩

end Runs

/-! ## A revision is claimed -/

/-- The action records no event. -/
def WorkflowAction.isQuiet : WorkflowAction → Bool
  | .runtime (.claim ..) => false
  | .runtime (.handleCompensationFailure ..) => false
  | .runtime (.completeCompensation ..) => false
  | _ => true

theorem PunctualStep.of_quiet {config : RuntimeConfig} {s : WorkflowState} {a : WorkflowAction}
    (h : a.isQuiet = true) : PunctualStep config s a := by
  rintro b y rfl -
  cases b with
  | claim | handleCompensationFailure | completeCompensation => cases h
  | _ => trivial

/-- A plan asks, its next revision is published. -/
def publishRevision : List WorkflowAction :=
  answerEarly ++
    [ answerWithRevision,
      .runtime (.createTask .processDocument 2 ⟨2, 1, 7, 1, "process", []⟩),
      .runtime (.finalizePlan id 10 (.at 0) ⟨2, 1⟩) ]

def revisionPublished : WorkflowState := nothingSent.afterAll publishRevision

/-- A worker handles the wake-up of the revision. -/
def claimRevision : WorkflowAction :=
  .runtime (.claim ⟨1, 1, 1, 11⟩ (.at 0) false ⟨2, some 10, none, none⟩)

/-- The lease has its own wake-up. -/
theorem workflow_keeps_wakeups_claimed :
    ∃ p ∈ (revisionPublished.afterAll [claimRevision]).runtime.db.plans,
      p.revision = 2 ∧ p.status = .running ∧
        ∃ ev ∈ (revisionPublished.afterAll [claimRevision]).runtime.db.outbox,
          ev.eventType = .planWakeup ∧ ev.payload.planId = some p.planId ∧
            ¬ Recorded (revisionPublished.afterAll [claimRevision]).runtime.db ev.eventId := by
  have hrun : (workflows defaultConfig).RunVia (fun _ a => a.isQuiet = true) nothingSent
      publishRevision revisionPublished := .of_runWhile rfl
  have hreach : (workflows defaultConfig).ReachableVia (PunctualStep defaultConfig)
      (revisionPublished.afterAll [claimRevision]) := by
    refine .step ((hrun.mono fun _ _ => .of_quiet).reachableVia (.init nothingSent_fresh))
      (a := claimRevision) ?_ rfl
    rintro b y ⟨⟩ -
    exact .inr ⟨_, .tail _ (.head _), rfl, le_rfl⟩
  obtain ⟨ev, hev, htype, hplan, hnew, -⟩ := workflow_keeps_wakeups hreach _ (.tail _ (.head _))
    (.inr rfl) (by
      rintro T ⟨⟩ e he
      obtain rfl := Option.some.inj he
      intro hst
      cases hst)
  exact ⟨_, .tail _ (.head _), rfl, rfl, ev, hev, htype, hplan, hnew⟩

end DocFlow.Workflow
