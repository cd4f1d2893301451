import DocFlow.TaskRuntime.Attempts

/-!
# Compensation after quiescence

A compensator is meant to run only after the executor call of its operation has come back.
Within one call that is so.  But the lease of an execution runs from its claim, and when it has
run out any other worker may recover the execution, whether its executor has come back or not.
So the compensators of a run are quiet (`compensation_after_quiescence`) as long as no claim finds
the lease of an execution expired that a living call still runs, and
`recovery_disturbs_executor` is a run in which one does.
-/

namespace DocFlow.TaskRuntime

/-! ## The property and its condition -/

/-- No living call runs the executor of an operation whose compensator has been invoked. -/
def Quiescent (st : WorkerState) : Prop :=
  ∀ c ∈ st.calls, ∀ s eventId attempt, c.phase = .compensating s eventId attempt →
    ∀ c' ∈ st.calls, c'.alive = true → ∀ t, c'.phase = .executing t →
      t.operationId ≠ s.operationId

/-- The execution a call runs, from its claim until its executor has come back. -/
def Phase.runs? : Phase → Option ExecutionId
  | .claimed task | .executing task => some task.executionId
  | _ => none

instance (registry : CapabilityRegistry) (db : Db) (now : Time) (planId : PlanId)
    (e : TaskExecution) : Decidable (Expires registry db now planId e) :=
  decidable_of_iff (e.status = .running ∧ (∃ p ∈ db.plans.rows, p.planId = planId ∧
      isTerminalForClaim p.status = false ∧ p.currentTaskId = some e.taskId) ∧
      ∃ t ∈ db.tasks.rows, t.taskId = e.taskId ∧ db.getLatestByTask t.taskId = some e ∧
        ∃ d ∈ registry.get? t.capabilityCode, leaseHeld t d now = false)
    ⟨fun h => ⟨h.1, h.2.1, h.2.2⟩, fun h => ⟨h.running, h.current, h.lease⟩⟩

/-- A claim finds no lease expired under a living call that still runs the execution. -/
def LeasesOutlive (config : RuntimeConfig) (st : WorkerState) (act : WorkerAction) : Prop :=
  match st.transaction config act with
  | some (.claim _ clock false input) => ∀ e ∈ st.runtime.db.taskExecutions.rows,
      Expires config.registry st.runtime.db (clock.read 0) input.planId e →
      ∀ c ∈ st.calls, c.alive = true → c.phase.runs? ≠ some e.executionId
  | _ => True

instance (config : RuntimeConfig) (st : WorkerState) (act : WorkerAction) :
    Decidable (LeasesOutlive config st act) := by
  unfold LeasesOutlive
  exact match st.transaction config act with
  | some (.claim _ clock false input) =>
    inferInstanceAs (Decidable (∀ e ∈ st.runtime.db.taskExecutions.rows,
      Expires config.registry st.runtime.db (clock.read 0) input.planId e →
      ∀ c ∈ st.calls, c.alive = true → c.phase.runs? ≠ some e.executionId))
  | some (.claim _ _ true _) => .isTrue trivial
  | none | some (.createPlan ..) | some (.createTask ..) | some (.finalizePlan ..)
  | some (.prepareRevision ..) | some (.complete ..) | some (.fail ..)
  | some (.requireCompensation ..) | some (.beginCompensation ..)
  | some (.handleCompensationFailure ..) | some (.completeCompensation ..) => .isTrue trivial

/-! ## The invariant -/

/-- The execution a call compensates, from its count until the compensator has come back. -/
def Phase.compensates? : Phase → Option ExecutionId
  | .begun s _ _ | .compensating s _ _ => some s.executionId
  | _ => none

/-- The execution has a status that satisfies `P`. -/
def HasStatus (db : Db) (x : ExecutionId) (P : TaskExecutionStatus → Prop) : Prop :=
  ∃ e ∈ db.taskExecutions, e.executionId = x ∧ P e.status

/-- An execution is running while a living call runs it, and not while it is
compensated. -/
structure Quiet (st : WorkerState) : Prop where
  running : ∀ c ∈ st.calls, c.alive = true → ∀ x ∈ c.phase.runs?,
    HasStatus st.runtime.db x (· = .running)
  stopped : ∀ c ∈ st.calls, ∀ x ∈ c.phase.compensates?, HasStatus st.runtime.db x (· ≠ .running)

section Steps

variable {config : RuntimeConfig} {db db' : Db} {call call' : Call} {a : RuntimeAction}

theorem Follows.not_running {s s' : TaskExecutionStatus} (h : Follows s s') (hs : s ≠ .running) :
    s' ≠ .running := by
  cases hst : s with
  | running => exact absurd hst hs
  | compensationRequired => exact (h.required hst).2.2
  | compensationLocked | compensated | succeeded | failed =>
    rw [h.outcome (by rw [hst]; rfl)]
    exact hs

theorem ExecutionsFollow.not_running (h : ExecutionsFollow db db') {x : ExecutionId}
    (hx : HasStatus db x (· ≠ .running)) : HasStatus db' x (· ≠ .running) := by
  obtain ⟨e, he, rfl, hst⟩ := hx
  obtain ⟨e', he', hsame, hfollows⟩ := h e he
  exact ⟨e', he', hsame.executionId, hfollows.not_running hst⟩

/-- The outcome of a running execution is reported by the call that has run it. -/
theorem CallStep.reports (h : CallStep config db call (some a) call') {y : Option Snapshot × Db}
    (htx : a.transaction config db = .ok y) {e e' : TaskExecution} (hwrites : Writes config e a e')
    (hrun : e.status = .running) : ∃ t ∈ call.phase.task?, a.snapshot? = some t.toSnapshot := by
  cases h with
  | completed newEventId clock t out refs db' hphase => exact ⟨t, by rw [hphase]; rfl, rfl⟩
  | failed newEventId clock t error db' hphase => exact ⟨t, by rw [hphase]; rfl, rfl⟩
  | required t error db' hphase => exact ⟨t, by rw [hphase]; rfl, rfl⟩
  | raised _ f hf =>
    rw [hf] at htx
    cases htx
  | claimed | recovering | skipped => cases hwrites
  | begun =>
    cases hwrites with
    | counted _ _ hst =>
      rw [hrun] at hst
      cases hst
  | concluded =>
    cases hwrites with
    | compensated _ _ _ _ hst =>
      rw [hrun] at hst
      cases hst
  | unsuccessful =>
    cases hwrites with
    | scheduled _ _ _ _ _ _ hst =>
      rw [hrun] at hst
      cases hst
    | locked _ _ _ _ _ _ hst =>
      rw [hrun] at hst
      cases hst

theorem Phase.task_of_runs {phase : Phase} {x : ExecutionId} (h : x ∈ phase.runs?) :
    ∃ t ∈ phase.task?, t.executionId = x := by
  cases phase with
  | claimed task | executing task => exact ⟨task, rfl, Option.some.inj h⟩
  | _ => cases h

/-- A living call that runs an execution ran it before, or has just claimed it. -/
theorem CallStep.runs {a : Option RuntimeAction} (h : CallStep config db call a call')
    (halive : call'.alive = true) {x : ExecutionId} (hx : x ∈ call'.phase.runs?) :
    (x ∈ call.phase.runs? ∧ a = none) ∨ ∃ ids clock seen task db', a = some (.claim ids clock seen call.input) ∧
      claimNext config.registry ids clock seen call.input db = .ok (.claimed task, db') ∧
      task.executionId = x := by
  cases h with
  | claimed ids clock seen task db' _ hclaim =>
    exact .inr ⟨ids, clock, seen, task, db', rfl, hclaim, Option.some.inj hx⟩
  | executing task hphase => exact .inl ⟨by rw [hphase]; exact hx, rfl⟩
  | raised | crashed => cases halive
  | _ => cases hx

/-- A call that compensates an execution did so before, or has just counted the attempt. -/
theorem CallStep.compensates {a : Option RuntimeAction} (h : CallStep config db call a call')
    {x : ExecutionId} (hx : x ∈ call'.phase.compensates?) :
    x ∈ call.phase.compensates? ∨ ∃ clock s n db', a = some (.beginCompensation clock s) ∧
      beginCompensationAttempt clock s db = .ok (n, db') ∧ s.executionId = x := by
  cases h with
  | begun clock s eventId attempt db' _ hbegin =>
    exact .inr ⟨clock, s, attempt, db', rfl, hbegin, Option.some.inj hx⟩
  | invoked s eventId attempt hphase => exact .inl (by rw [hphase]; exact hx)
  | raised | crashed => exact .inl hx
  | _ => cases hx

/-- The execution of a counted attempt is not running. -/
theorem beginCompensationAttempt_stopped {clock : Clock} {s : Snapshot} {n : Nat}
    (h : beginCompensationAttempt clock s db = .ok (n, db')) :
    HasStatus db' s.executionId (· ≠ .running) := by
  obtain ⟨p, t, e, hlock, -, rfl⟩ := beginCompensationAttempt_cases h
  obtain ⟨-, -, he, -, -, hst, -⟩ := lockCompensationToken_eq_ok.mp hlock
  obtain ⟨hem, hid⟩ := Table.get?_eq_some.mp he
  have hkey : (countAttempt (clock.read 0) e).executionId = e.executionId := rfl
  refine ⟨countAttempt (clock.read 0) e, (Table.mem_save_of_mem hem hkey).mpr (.inl rfl), hid, ?_⟩
  show e.status ≠ .running
  rw [hst]
  exact nofun

/-- **Who stops a running execution**: the transaction writes its outcome, or marks its expired
lease. -/
theorem ExecutionWrite.running {a : RuntimeAction} (h : ExecutionWrite config db db' a)
    {x : ExecutionId} (hx : HasStatus db x (· = .running)) :
    HasStatus db' x (· = .running) ∨
    (∃ s e e', a.snapshot? = some s ∧ s.executionId = x ∧ e.status = .running ∧
      Writes config e a e') ∨
    ∃ ids clock input e, a = .claim ids clock false input ∧ e ∈ db.taskExecutions ∧
      e.executionId = x ∧ Expires config.registry db (clock.read 0) input.planId e := by
  obtain ⟨e₀, he₀, rfl, hrun⟩ := hx
  have hsaved : ∀ e ∈ db.taskExecutions, ∀ e', e'.executionId = e.executionId →
      e.executionId ≠ e₀.executionId → db'.taskExecutions = db.taskExecutions.save e' →
      HasStatus db' e₀.executionId (· = .running) := by
    intro e he e' hid hne hsave
    refine ⟨e₀, ?_, rfl, hrun⟩
    rw [hsave]
    refine (Table.mem_save_of_mem he hid).mpr (.inr ⟨he₀, ?_⟩)
    exact fun h => hne (by rw [h])
  cases h with
  | kept _ _ hsame => exact .inl ⟨e₀, hsame ▸ he₀, rfl, hrun⟩
  | written _ s e e' hs hget hwrites hsave =>
    obtain ⟨he, hid⟩ := Table.get?_eq_some.mp hget
    by_cases hx : e.executionId = e₀.executionId
    · obtain rfl := Table.eq_of_key he he₀ hx
      exact .inr (.inl ⟨s, e, e', hs, hid.symm, hrun, hwrites⟩)
    · exact .inl (hsaved e he e' hwrites.sameAttempt.executionId hx hsave)
  | expired ids clock input e he hexp hsave =>
    by_cases hx : e.executionId = e₀.executionId
    · exact .inr (.inr ⟨ids, clock, input, e, rfl, he, hx, hexp⟩)
    · exact .inl (hsaved e he (expireLease e) rfl hx hsave)
  | created ids clock input e _ _ _ _ hins =>
    exact .inl ⟨e₀, (Table.mem_insert hins).mpr (.inl he₀), rfl, hrun⟩

end Steps

/-! ## The invariant over a run -/

section Runs

variable {config : RuntimeConfig} {st : WorkerState}

/-- No call but its own stops a running execution, as long as the leases outlive the calls. -/
theorem Quiet.keeps_running {index : Nat} {action : CallAction} {call call' : Call}
    {a : RuntimeAction} {r : RuntimeState} (hatt : Attempts st)
    (hok : LeasesOutlive config st (.call index action)) (hcall : st.calls[index]? = some call)
    (hcases : CallStep config st.runtime.db call (some a) call')
    (htx : st.transaction config (.call index action) = some a)
    (hr : (runtime config).step st.runtime a = some r) {j : Nat} {c : Call} (hne : j ≠ index)
    (hc : st.calls[j]? = some c) (halive : c.alive = true) {x : ExecutionId}
    (hx : x ∈ c.phase.runs?) (hrun : HasStatus st.runtime.db x (· = .running)) :
    HasStatus r.db x (· = .running) := by
  have hmem := List.mem_of_getElem? hc
  rcases runtime_step_cases hr with ⟨y, db', hdb, rfl, -⟩ | ⟨f, -, hdb, -⟩
  · rcases (transaction_executions hdb).running hrun with hkept | ⟨s, e, e', hs, hid, hst, hwrites⟩ |
      ⟨ids, clock, input, e, rfl, he, hid, hexp⟩
    · exact hkept
    · -- the outcome is reported by the call that has created the execution, and that is `c`
      obtain ⟨t, ht, hts⟩ := hcases.reports hdb hwrites hst
      obtain rfl := Option.some.inj (hs.symm.trans hts)
      obtain ⟨t', ht', hid'⟩ := Phase.task_of_runs hx
      have hmine := hatt.executor call (List.mem_of_getElem? hcall) t ht
      have hother := hatt.executor c hmem t' ht'
      rw [hid', ← hid] at hother
      exact absurd (hatt.created.once j index c call hc hcall _ hother hmine) hne
    · simp only [LeasesOutlive, htx] at hok
      exact absurd (hid ▸ hx) (hok e he hexp c hmem halive)
  · rw [hdb]
    exact hrun

theorem Quiet.setCall {index : Nat} {call call' : Call} {a : Option RuntimeAction}
    {r : RuntimeState} (h : Quiet st) (hcall : st.calls[index]? = some call)
    (halive : call.alive = true) (hcases : CallStep config st.runtime.db call a call')
    (hrunning : ∀ (j : Nat) (c : Call), st.calls[j]? = some c → c.alive = true →
      ∀ x ∈ c.phase.runs?, j ≠ index ∨ a = none → HasStatus r.db x (· = .running))
    (hfollow : ExecutionsFollow st.runtime.db r.db)
    (hr : ∀ b, a = some b → (runtime config).step st.runtime b = some r) :
    Quiet (st.setCall index call' r) := by
  refine ⟨fun c hc hlive x hx => ?_, fun c hc x hx => ?_⟩
  · obtain ⟨j, hj⟩ := List.mem_iff_getElem?.mp hc
    rcases get?_set hj with ⟨rfl, rfl⟩ | ⟨hne, hj⟩
    · rcases hcases.runs hlive hx with ⟨hold, ha⟩ | ⟨ids, clock, seen, task, db', ha, hclaim, rfl⟩
      · exact hrunning j call hcall halive x hold (.inr ha)
      · have hdb := (claim_committed (hr _ ha) hclaim).1
        rcases claimNext_cases hclaim with ⟨-, hres, -⟩ | ⟨-, hstep⟩
        · cases hres
        · obtain ⟨-, e, he, hid, hst, -⟩ := hstep.new_execution
          exact ⟨e, hdb ▸ he, hid, hst⟩
    · exact hrunning j c hj hlive x hx (.inl hne)
  · rcases List.mem_or_eq_of_mem_set hc with hc | rfl
    · exact hfollow.not_running (h.stopped c hc x hx)
    · rcases hcases.compensates hx with hold | ⟨clock, s, n, db', ha, hbegin, rfl⟩
      · exact hfollow.not_running (h.stopped call (List.mem_of_getElem? hcall) x hold)
      · have htx : (RuntimeAction.beginCompensation clock s).transaction config st.runtime.db =
            .ok (none, db') := by
          simp only [RuntimeAction.transaction, hbegin]
          rfl
        have hdb : r.db = db' := (committed (hr _ ha) htx).1
        exact hdb ▸ beginCompensationAttempt_stopped hbegin

theorem planning_executions {a : RuntimeAction} {r : RuntimeState} (hplan : a.isPlanning = true)
    (hr : (runtime config).step st.runtime a = some r) :
    r.db.taskExecutions = st.runtime.db.taskExecutions := by
  rcases runtime_step_cases hr with ⟨s, db', htx, rfl, -⟩ | ⟨f, -, hdb, -⟩
  · exact (planning_records hplan htx).1
  · rw [hdb]

/-- **The step.** -/
theorem Quiet.step {st' : WorkerState} {act : WorkerAction}
    (hreach : (runtime config).Reachable st.runtime) (hatt : Attempts st) (h : Quiet st)
    (hok : LeasesOutlive config st act) (hstep : (workers config).step st act = some st') :
    Quiet st' := by
  cases workers_step_cases hstep with
  | planned a r _ hplan hr =>
    have hsame := planning_executions hplan hr
    have hkept : ∀ {x P}, HasStatus st.runtime.db x P → HasStatus r.db x P :=
      fun ⟨e, he, hx⟩ => ⟨e, hsame ▸ he, hx⟩
    exact ⟨fun c hc hlive x hx => hkept (h.running c hc hlive x hx),
      fun c hc x hx => hkept (h.stopped c hc x hx)⟩
  | delivered input =>
    refine ⟨fun c hc hlive x hx => ?_, fun c hc x hx => ?_⟩
    · rcases List.mem_append.mp hc with hc | hc
      · exact h.running c hc hlive x hx
      · rw [List.mem_singleton.mp hc] at hx
        cases hx
    · rcases List.mem_append.mp hc with hc | hc
      · exact h.stopped c hc x hx
      · rw [List.mem_singleton.mp hc] at hx
        cases hx
  | moved index action call call' _ hcall halive hcases =>
    exact h.setCall hcall halive hcases
      (fun j c hc hlive x hx _ => h.running c (List.mem_of_getElem? hc) hlive x hx)
      (.refl _) nofun
  | committed index action call call' a r hact hcall halive hcases htx hr =>
    subst hact
    have hfollow := (runtime_step_effects (reachable_owned hreach) hr).executionsFollow
    refine h.setCall hcall halive hcases (fun j c hc hlive x hx hne => ?_) hfollow ?_
    · have hrun := h.running c (List.mem_of_getElem? hc) hlive x hx
      rcases hne with hne | hnone
      · exact Quiet.keeps_running hatt hok hcall hcases htx hr hne hc hlive hx hrun
      · cases hnone
    · rintro b ⟨⟩
      exact hr

theorem Coherent.operation {db : Db} {s : Snapshot} (hs : Coherent db s) {e : TaskExecution}
    (he : e ∈ db.taskExecutions) (hid : e.executionId = s.executionId) :
    e.operationId = s.operationId := by
  obtain ⟨x, hx, hxid, -, -, -, hop, -⟩ := hs
  rw [Table.eq_of_key he hx (hid.trans hxid.symm), hop]

theorem reachable_quiet (h : (workers config).ReachableVia (LeasesOutlive config) st) :
    Quiet st := by
  refine h.invariant (P := Quiet) ?_ fun _ _ _ hr hq hok hs =>
    hq.step (workers_runtime_reachable hr) (reachable_attempts hr) hok hs
  rintro s ⟨-, hcalls⟩
  exact ⟨by simp [hcalls], by simp [hcalls]⟩

end Runs

/-- **Compensation after quiescence**: in every run in which no claim finds the lease of an
execution expired that a living call still runs, no living call runs the executor of an operation
whose compensator has been invoked. -/
theorem compensation_after_quiescence (config : RuntimeConfig) (st : WorkerState)
    (h : (workers config).ReachableVia (LeasesOutlive config) st) : Quiescent st := by
  have hquiet := reachable_quiet h
  have hatt := reachable_attempts h
  have hreach := workers_runtime_reachable h
  intro c hc s eventId attempt hphase c' hc' halive t hphase' hop
  obtain ⟨e, he, hid, hst⟩ := hquiet.stopped c hc s.executionId (by rw [hphase]; rfl)
  obtain ⟨e', he', hid', hst'⟩ := hquiet.running c' hc' halive t.executionId (by rw [hphase']; rfl)
  have howned := reachable_owned (workers_runtime_reachable h)
  have hs := howned.coherent s (hatt.held c hc s (by rw [hphase]; rfl))
  have ht := howned.coherent t.toSnapshot (hatt.held c' hc' t.toSnapshot (by rw [hphase']; rfl))
  have hsame : e = e' := by
    refine reachable_operationsUnique (workers_runtime_reachable h) e he e' he' ?_
    rw [hs.operation he hid, ht.operation he' hid', hop]
  exact hst (hsame ▸ hst')

/-! ## A recovery under a running executor -/

/-- The first task of a published plan is claimed at 0 s, and its executor has not come back
when the lease wake-up is delivered to a second worker at 300 s, which recovers the execution. -/
def recoverUnderExecutor : List WorkerAction :=
  publishTwoTasks.map .plan ++
    [ .deliver ⟨1, some 1, none, none⟩, .call 0 .check, .call 0 (.claim ⟨1, 1, 1, 2⟩ (.at 0)),
      .call 0 .startExecutor,
      .deliver ⟨1, some 2, none, none⟩, .call 1 .check,
      .call 1 (.claim ⟨2, 2, 2, 3⟩ (.at (timedelta 300))),
      .call 1 (.begin (.at (timedelta 300))), .call 1 .invokeCompensator ]

def recoveredUnderExecutor : WorkerState :=
  ((workers defaultConfig).run noWorkers recoverUnderExecutor).getD noWorkers

/-- **A recovery disturbs a running executor**: the compensator of an operation is invoked while
the executor call of the same operation is in flight in a living worker. -/
theorem recovery_disturbs_executor :
    (workers defaultConfig).Reachable recoveredUnderExecutor ∧
      ¬ Quiescent recoveredUnderExecutor := by
  have hrun : (workers defaultConfig).run noWorkers recoverUnderExecutor =
      some recoveredUnderExecutor := rfl
  refine ⟨workers_reachable_of_run (.of_run hrun), fun h => ?_⟩
  have h₀ : 0 < recoveredUnderExecutor.calls.length := by decide
  have h₁ : 1 < recoveredUnderExecutor.calls.length := by decide
  exact h _ (List.getElem_mem h₁) _ _ _ rfl _ (List.getElem_mem h₀) rfl _ rfl rfl

/-- The executor comes back with an error before its operation is compensated, and the lease
wake-up is handed the same execution to compensate. -/
def compensateOwnExecution : List WorkerAction :=
  publishTwoTasks.map .plan ++
    [ .deliver ⟨1, some 1, none, none⟩, .call 0 .check, .call 0 (.claim ⟨1, 1, 1, 2⟩ (.at 0)),
      .call 0 .startExecutor, .call 0 (.endExecutor (.failed ⟨"timeout", "", true, false⟩)),
      .call 0 (.report 3 (.at (timedelta 290))), .call 0 (.begin (.at (timedelta 290))),
      .call 0 .invokeCompensator,
      .deliver ⟨1, some 2, none, none⟩, .call 1 .check,
      .call 1 (.claim ⟨2, 2, 2, 4⟩ (.at (timedelta 300))),
      .call 1 (.begin (.at (timedelta 300))), .call 1 .invokeCompensator ]

def compensatedOwnExecution : WorkerState :=
  ((workers defaultConfig).run noWorkers compensateOwnExecution).getD noWorkers

theorem compensatedOwnExecution_quiescent :
    compensatedOwnExecution.calls.map (fun c => c.phase.compensates?) = [some 1, some 1] ∧
      Quiescent compensatedOwnExecution := by
  have hrun : (workers defaultConfig).runWhile (LeasesOutlive defaultConfig) noWorkers
      compensateOwnExecution = some compensatedOwnExecution := rfl
  refine ⟨by decide, compensation_after_quiescence defaultConfig _ ?_⟩
  exact workers_reachable_of_run (.of_runWhile hrun)

end DocFlow.TaskRuntime
