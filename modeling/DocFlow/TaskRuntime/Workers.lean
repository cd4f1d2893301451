import DocFlow.Lib.Tokens
import DocFlow.TaskRuntime.Fencing

/-!
# Workers

`execute_next` as the workers run it: the inbox check, the claim, the executor outside any
transaction, its report, and a compensation with its two transactions around the
compensator.  A call stands in one `Phase`; every step of it is at most one transaction of
the runtime, so the machine of the workers simulates the runtime (`workers_simulate`) and has
its invariants.

A delivery starts a call, at any time and as often as the transport likes.  A call ends when it
returns, when a transaction raises, or when its worker crashes; a call that has ended so keeps
the phase it was in.
-/

namespace DocFlow.TaskRuntime

/-! ## Calls -/

/-- What an executor comes back with, once its side effects are quiescent. -/
inductive ExecutorOutcome
  | succeeded (outputJson : OutputJson) (resourceRefs : List String)
  | failed (error : TaskExecutionError)
deriving DecidableEq, Repr

/-- Where a call of `execute_next` stands. -/
inductive Phase
  | arrived
  | checked (seen : Bool)
  | claimed (task : TaskSnapshot)
  | executing (task : TaskSnapshot)
  | executed (task : TaskSnapshot) (outcome : ExecutorOutcome)
  | recovering (snapshot : Snapshot) (eventId : Option EventId)
  | begun (snapshot : Snapshot) (eventId : Option EventId) (attempt : Nat)
  | compensating (snapshot : Snapshot) (eventId : Option EventId) (attempt : Nat)
  | compensated (snapshot : Snapshot) (eventId : Option EventId) (attempt : Nat)
      (error : Option String)
  | returned (outcome : ExecuteOutcome)
deriving DecidableEq, Repr

/-- A call with its history: the execution its claim has created, the execution it has
begun to compensate, and whether it has invoked the compensator. -/
structure Call where
  input : ExecuteNextInput
  phase : Phase
  alive : Bool
  created : Option ExecutionId
  attempted : Option ExecutionId
  invoked : Bool
deriving DecidableEq, Repr

namespace Call

def arrive (input : ExecuteNextInput) : Call where
  input := input
  phase := .arrived
  alive := true
  created := none
  attempted := none
  invoked := false

/-- The call is over, and nothing more comes of it. -/
def raised (call : Call) : Call := { call with alive := false }

def goto (call : Call) (phase : Phase) : Call := { call with phase := phase }

end Call

/-- The answer of `inbox.exists`. -/
def inboxSeen (db : Db) (input : ExecuteNextInput) : Bool :=
  match input.eventId with
  | none => false
  | some eventId => db.inboxExists consumerName eventId

/-- `_failure_result`. -/
def failureResult (task : TaskSnapshot) (error : TaskExecutionError) : ExecuteOutcome :=
  if error.retryable ∧ (task.attempt : Int) < task.maxAttempts then .retryScheduled
  else .replanRequested

/-- The steps of a call, with what the environment chooses. -/
inductive CallAction
  | check
  | claim (ids : ClaimIds) (clock : Clock)
  | startExecutor
  | endExecutor (outcome : ExecutorOutcome)
  | report (newEventId : EventId) (clock : Clock)
  | begin (clock : Clock)
  | invokeCompensator
  | endCompensator (error : Option String)
  | conclude (newEventId : EventId) (clock : Clock)
  | crash

namespace Call

/-- The call after its claim. -/
def afterClaim (call : Call) : Except Failure (ClaimNextTaskResult × Db) → Call
  | .error _ => call.raised
  | .ok (.claimed task, _) =>
    { call with phase := .claimed task, created := some task.executionId }
  | .ok (.compensationRequired recovery, _) => call.goto (.recovering recovery call.input.eventId)
  | .ok (.compensationLocked _, _) => call.goto (.returned .compensationLocked)
  | .ok (.alreadyRunning, _) => call.goto (.returned .alreadyRunning)
  | .ok (.noTask, _) => call.goto (.returned .noTask)
  | .ok (.terminal, _) => call.goto (.returned .terminal)

/-- The call after `_begin_compensation_attempt`. -/
def afterBegin (call : Call) (snapshot : Snapshot) (eventId : Option EventId) :
    Except Failure (Nat × Db) → Call
  | .error _ => call.raised
  | .ok (attempt, _) =>
    { call with
      phase := .begun snapshot eventId attempt
      attempted := some snapshot.executionId }

/-- The call after a transaction that answers with its outcome. -/
def afterOutcome (call : Call) : Except Failure (ExecuteOutcome × Db) → Call
  | .error _ => call.raised
  | .ok (outcome, _) => call.goto (.returned outcome)

/-- The call after a transaction without an answer. -/
def afterCommit (call : Call) (phase : Phase) : Except Failure Db → Call
  | .error _ => call.raised
  | .ok _ => call.goto phase

/-- The report of an executor's outcome: `_complete`, or the two ways of
`_handle_failure`. -/
def report (config : RuntimeConfig) (db : Db) (call : Call) (newEventId : EventId) (clock : Clock)
    (task : TaskSnapshot) : ExecutorOutcome → Option RuntimeAction × Call
  | .succeeded outputJson resourceRefs =>
    (some (.complete newEventId clock task.toSnapshot outputJson resourceRefs),
      call.afterCommit (.returned .taskSucceeded)
        (complete newEventId clock task.toSnapshot outputJson resourceRefs db))
  | .failed error =>
    match config.registry.get? task.capabilityCode with
    | none => (none, call.raised)
    | some definition =>
      if definition.sideEffect then
        (some (.requireCompensation task.toSnapshot error),
          call.afterCommit (.recovering task.toSnapshot none)
            (requireCompensation task.toSnapshot error db))
      else
        (some (.fail newEventId clock task.toSnapshot error),
          call.afterCommit (.returned (failureResult task error))
            (fail config.settings newEventId clock task.toSnapshot error db))

/-- One step of a call: the transaction it runs, if any, and the call afterwards. -/
def step (config : RuntimeConfig) (db : Db) (call : Call) (action : CallAction) :
    Option (Option RuntimeAction × Call) :=
  match action, call.phase with
  | .check, .arrived => some (none, call.goto (.checked (inboxSeen db call.input)))
  | .claim ids clock, .checked seen =>
    some (some (.claim ids clock seen call.input),
      call.afterClaim (claimNext config.registry ids clock seen call.input db))
  | .startExecutor, .claimed task => some (none, call.goto (.executing task))
  | .endExecutor outcome, .executing task => some (none, call.goto (.executed task outcome))
  | .report newEventId clock, .executed task outcome =>
    some (call.report config db newEventId clock task outcome)
  | .begin clock, .recovering snapshot eventId =>
    some (some (.beginCompensation clock snapshot),
      call.afterBegin snapshot eventId (beginCompensationAttempt clock snapshot db))
  | .invokeCompensator, .begun snapshot eventId attempt =>
    some (none, { call with phase := .compensating snapshot eventId attempt, invoked := true })
  | .endCompensator error, .compensating snapshot eventId attempt =>
    some (none, call.goto (.compensated snapshot eventId attempt error))
  | .conclude newEventId clock, .compensated snapshot eventId attempt error =>
    match error with
    | none =>
      some (some (.completeCompensation newEventId clock snapshot eventId),
        call.afterOutcome
          (completeCompensation config.settings newEventId clock snapshot eventId db))
    | some error =>
      some (some (.handleCompensationFailure newEventId clock snapshot eventId error attempt),
        call.afterOutcome
          (handleCompensationFailure config.settings newEventId clock snapshot eventId error
            attempt db))
  | .crash, _ => some (none, call.raised)
  | _, _ => none

end Call

/-! ## The machine -/

structure WorkerState where
  runtime : RuntimeState
  calls : List Call

inductive WorkerAction
  | plan (a : RuntimeAction)
  | deliver (input : ExecuteNextInput)
  | call (index : Nat) (action : CallAction)

/-- A transaction of the planner. -/
def RuntimeAction.isPlanning : RuntimeAction → Bool
  | createPlan .. | createTask .. | finalizePlan .. | prepareRevision .. => true
  | _ => false

def WorkerState.setCall (st : WorkerState) (index : Nat) (call : Call) (runtime : RuntimeState) :
    WorkerState :=
  ⟨runtime, st.calls.set index call⟩

/-- **Any number of workers**, the planner beside them. -/
def workers (config : RuntimeConfig) : Machine WorkerState WorkerAction where
  init st := st.runtime.Fresh ∧ st.calls = []
  step st
    | .plan a =>
      if a.isPlanning then
        ((runtime config).step st.runtime a).map fun runtime => { st with runtime := runtime }
      else none
    | .deliver input => some { st with calls := st.calls ++ [.arrive input] }
    | .call index action => do
      let call ← st.calls[index]?
      if call.alive then
        let (a, call) ← call.step config st.runtime.db action
        match a with
        | none => some (st.setCall index call st.runtime)
        | some a => ((runtime config).step st.runtime a).map (st.setCall index call)
      else none

/-- The transaction that a step runs. -/
def WorkerState.transaction (config : RuntimeConfig) (st : WorkerState) :
    WorkerAction → Option RuntimeAction
  | .plan a => some a
  | .deliver _ => none
  | .call index action => do
    let call ← st.calls[index]?
    let (a, _) ← call.step config st.runtime.db action
    a

/-! ## What one step is made of -/

/-- The ways a call can go on. -/
inductive CallStep (config : RuntimeConfig) (db : Db) (call : Call) :
    Option RuntimeAction → Call → Prop
  | checked : call.phase = .arrived →
      CallStep config db call none (call.goto (.checked (inboxSeen db call.input)))
  | claimed (ids : ClaimIds) (clock : Clock) (seen : Bool) (task : TaskSnapshot) (db' : Db) :
      call.phase = .checked seen →
      claimNext config.registry ids clock seen call.input db = .ok (.claimed task, db') →
      CallStep config db call (some (.claim ids clock seen call.input))
        { call with phase := .claimed task, created := some task.executionId }
  | recovering (ids : ClaimIds) (clock : Clock) (seen : Bool) (recovery : Snapshot) (db' : Db) :
      call.phase = .checked seen →
      claimNext config.registry ids clock seen call.input db =
        .ok (.compensationRequired recovery, db') →
      CallStep config db call (some (.claim ids clock seen call.input))
        (call.goto (.recovering recovery call.input.eventId))
  | skipped (ids : ClaimIds) (clock : Clock) (seen : Bool) (r : ClaimNextTaskResult) (db' : Db)
      (outcome : ExecuteOutcome) : call.phase = .checked seen →
      claimNext config.registry ids clock seen call.input db = .ok (r, db') →
      (∀ task, r ≠ .claimed task) → (∀ recovery, r ≠ .compensationRequired recovery) →
      CallStep config db call (some (.claim ids clock seen call.input))
        (call.goto (.returned outcome))
  | executing (task : TaskSnapshot) : call.phase = .claimed task →
      CallStep config db call none (call.goto (.executing task))
  | executed (task : TaskSnapshot) (outcome : ExecutorOutcome) : call.phase = .executing task →
      CallStep config db call none (call.goto (.executed task outcome))
  | completed (newEventId : EventId) (clock : Clock) (task : TaskSnapshot)
      (outputJson : OutputJson) (resourceRefs : List String) (db' : Db) :
      call.phase = .executed task (.succeeded outputJson resourceRefs) →
      complete newEventId clock task.toSnapshot outputJson resourceRefs db = .ok db' →
      CallStep config db call
        (some (.complete newEventId clock task.toSnapshot outputJson resourceRefs))
        (call.goto (.returned .taskSucceeded))
  | failed (newEventId : EventId) (clock : Clock) (task : TaskSnapshot)
      (error : TaskExecutionError) (db' : Db) : call.phase = .executed task (.failed error) →
      fail config.settings newEventId clock task.toSnapshot error db = .ok db' →
      CallStep config db call (some (.fail newEventId clock task.toSnapshot error))
        (call.goto (.returned (failureResult task error)))
  | required (task : TaskSnapshot) (error : TaskExecutionError) (db' : Db) :
      call.phase = .executed task (.failed error) →
      TaskRuntime.requireCompensation task.toSnapshot error db = .ok db' →
      CallStep config db call (some (.requireCompensation task.toSnapshot error))
        (call.goto (.recovering task.toSnapshot none))
  | begun (clock : Clock) (snapshot : Snapshot) (eventId : Option EventId) (attempt : Nat)
      (db' : Db) : call.phase = .recovering snapshot eventId →
      beginCompensationAttempt clock snapshot db = .ok (attempt, db') →
      CallStep config db call (some (.beginCompensation clock snapshot))
        { call with
          phase := .begun snapshot eventId attempt
          attempted := some snapshot.executionId }
  | invoked (snapshot : Snapshot) (eventId : Option EventId) (attempt : Nat) :
      call.phase = .begun snapshot eventId attempt →
      CallStep config db call none
        { call with phase := .compensating snapshot eventId attempt, invoked := true }
  | answered (snapshot : Snapshot) (eventId : Option EventId) (attempt : Nat)
      (error : Option String) : call.phase = .compensating snapshot eventId attempt →
      CallStep config db call none (call.goto (.compensated snapshot eventId attempt error))
  | concluded (newEventId : EventId) (clock : Clock) (snapshot : Snapshot)
      (eventId : Option EventId) (attempt : Nat) (outcome : ExecuteOutcome) (db' : Db) :
      call.phase = .compensated snapshot eventId attempt none →
      completeCompensation config.settings newEventId clock snapshot eventId db =
        .ok (outcome, db') →
      CallStep config db call (some (.completeCompensation newEventId clock snapshot eventId))
        (call.goto (.returned outcome))
  | unsuccessful (newEventId : EventId) (clock : Clock) (snapshot : Snapshot)
      (eventId : Option EventId) (attempt : Nat) (error : String) (outcome : ExecuteOutcome)
      (db' : Db) : call.phase = .compensated snapshot eventId attempt (some error) →
      handleCompensationFailure config.settings newEventId clock snapshot eventId error attempt
        db = .ok (outcome, db') →
      CallStep config db call
        (some (.handleCompensationFailure newEventId clock snapshot eventId error attempt))
        (call.goto (.returned outcome))
  | raised (a : RuntimeAction) (f : Failure) : a.transaction config db = .error f →
      CallStep config db call (some a) call.raised
  | crashed : CallStep config db call none call.raised

section Steps

variable {config : RuntimeConfig}

theorem Call.report_cases {db : Db} {call call' : Call} {a : Option RuntimeAction}
    {newEventId : EventId} {clock : Clock} {task : TaskSnapshot} {outcome : ExecutorOutcome}
    (hphase : call.phase = .executed task outcome)
    (h : call.report config db newEventId clock task outcome = (a, call')) :
    CallStep config db call a call' := by
  cases outcome with
  | succeeded outputJson resourceRefs =>
    obtain ⟨rfl, rfl⟩ := Prod.mk.inj h
    cases hx : complete newEventId clock task.toSnapshot outputJson resourceRefs db with
    | ok db' => exact .completed newEventId clock task outputJson resourceRefs db' hphase hx
    | error f =>
      refine .raised _ f ?_
      simp only [RuntimeAction.transaction, hx]
      rfl
  | failed error =>
    simp only [Call.report] at h
    split at h
    · obtain ⟨rfl, rfl⟩ := Prod.mk.inj h
      exact .crashed
    · split at h
      · obtain ⟨rfl, rfl⟩ := Prod.mk.inj h
        cases hx : requireCompensation task.toSnapshot error db with
        | ok db' => exact .required task error db' hphase hx
        | error f =>
          refine .raised _ f ?_
          simp only [RuntimeAction.transaction, hx]
          rfl
      · obtain ⟨rfl, rfl⟩ := Prod.mk.inj h
        cases hx : fail config.settings newEventId clock task.toSnapshot error db with
        | ok db' => exact .failed newEventId clock task error db' hphase hx
        | error f =>
          refine .raised _ f ?_
          simp only [RuntimeAction.transaction, hx]
          rfl

/-- **A call goes on in one of the listed ways.** -/
theorem Call.step_cases {db : Db} {call call' : Call} {action : CallAction}
    {a : Option RuntimeAction} (h : call.step config db action = some (a, call')) :
    CallStep config db call a call' := by
  unfold Call.step at h
  split at h
  · next hphase =>
    obtain ⟨rfl, rfl⟩ := Prod.mk.inj (Option.some.inj h)
    exact .checked hphase
  · next ids clock seen hphase =>
    obtain ⟨rfl, rfl⟩ := Prod.mk.inj (Option.some.inj h)
    cases hx : claimNext config.registry ids clock seen call.input db with
    | error f =>
      refine .raised _ f ?_
      simp only [RuntimeAction.transaction, hx]
      rfl
    | ok x =>
      obtain ⟨r, db'⟩ := x
      cases r with
      | claimed task => exact .claimed ids clock seen task db' hphase hx
      | compensationRequired s => exact .recovering ids clock seen s db' hphase hx
      | compensationLocked | alreadyRunning | noTask | terminal =>
        exact .skipped ids clock seen _ db' _ hphase hx (by simp) (by simp)
  · next task hphase =>
    obtain ⟨rfl, rfl⟩ := Prod.mk.inj (Option.some.inj h)
    exact .executing task hphase
  · next outcome task hphase =>
    obtain ⟨rfl, rfl⟩ := Prod.mk.inj (Option.some.inj h)
    exact .executed task outcome hphase
  · next newEventId clock task outcome hphase =>
    exact Call.report_cases hphase (Option.some.inj h)
  · next clock s eventId hphase =>
    obtain ⟨rfl, rfl⟩ := Prod.mk.inj (Option.some.inj h)
    cases hx : beginCompensationAttempt clock s db with
    | error f =>
      refine .raised _ f ?_
      simp only [RuntimeAction.transaction, hx]
      rfl
    | ok x => exact .begun clock s eventId x.1 x.2 hphase hx
  · next s eventId attempt hphase =>
    obtain ⟨rfl, rfl⟩ := Prod.mk.inj (Option.some.inj h)
    exact .invoked s eventId attempt hphase
  · next error s eventId attempt hphase =>
    obtain ⟨rfl, rfl⟩ := Prod.mk.inj (Option.some.inj h)
    exact .answered s eventId attempt error hphase
  · next newEventId clock s eventId attempt error hphase =>
    split at h
    · obtain ⟨rfl, rfl⟩ := Prod.mk.inj (Option.some.inj h)
      cases hx : completeCompensation config.settings newEventId clock s eventId db with
      | error f =>
        refine .raised _ f ?_
        simp only [RuntimeAction.transaction, hx]
        rfl
      | ok x => exact .concluded newEventId clock s eventId attempt x.1 x.2 hphase hx
    · next error' =>
      obtain ⟨rfl, rfl⟩ := Prod.mk.inj (Option.some.inj h)
      cases hx : handleCompensationFailure config.settings newEventId clock s eventId error'
          attempt db with
      | error f =>
        refine .raised _ f ?_
        simp only [RuntimeAction.transaction, hx]
        rfl
      | ok x => exact .unsuccessful newEventId clock s eventId attempt error' x.1 x.2 hphase hx
  · obtain ⟨rfl, rfl⟩ := Prod.mk.inj (Option.some.inj h)
    exact .crashed
  · cases h

/-- The ways the workers can go on. -/
inductive WorkerStep (config : RuntimeConfig) (st : WorkerState) (act : WorkerAction) :
    WorkerState → Prop
  | planned (a : RuntimeAction) (r : RuntimeState) : act = .plan a → a.isPlanning = true →
      (runtime config).step st.runtime a = some r → WorkerStep config st act ⟨r, st.calls⟩
  | delivered (input : ExecuteNextInput) : act = .deliver input →
      WorkerStep config st act ⟨st.runtime, st.calls ++ [.arrive input]⟩
  | moved (index : Nat) (action : CallAction) (call call' : Call) : act = .call index action →
      st.calls[index]? = some call → call.alive = true →
      CallStep config st.runtime.db call none call' →
      WorkerStep config st act (st.setCall index call' st.runtime)
  | committed (index : Nat) (action : CallAction) (call call' : Call) (a : RuntimeAction)
      (r : RuntimeState) : act = .call index action → st.calls[index]? = some call →
      call.alive = true → CallStep config st.runtime.db call (some a) call' →
      st.transaction config act = some a → (runtime config).step st.runtime a = some r →
      WorkerStep config st act (st.setCall index call' r)

theorem workers_step_cases {st st' : WorkerState} {act : WorkerAction}
    (h : (workers config).step st act = some st') : WorkerStep config st act st' := by
  cases act with
  | plan a =>
    simp only [workers] at h
    split at h
    · next hplan =>
      obtain ⟨r, hr, rfl⟩ := Option.map_eq_some_iff.mp h
      exact .planned a r rfl hplan hr
    · cases h
  | deliver input =>
    obtain rfl := Option.some.inj h
    exact .delivered input rfl
  | call index action =>
    obtain ⟨call, hcall, h⟩ := Option.bind_eq_some_iff.mp h
    split at h
    · next halive =>
      obtain ⟨⟨a, call'⟩, hstep, h⟩ := Option.bind_eq_some_iff.mp h
      have hcases := Call.step_cases hstep
      have htx : st.transaction config (.call index action) = a := by
        simp [WorkerState.transaction, hcall, hstep]
      cases a with
      | none =>
        obtain rfl := Option.some.inj h
        exact .moved index action call call' rfl hcall halive hcases
      | some a =>
        obtain ⟨r, hr, rfl⟩ := Option.map_eq_some_iff.mp h
        exact .committed index action call call' a r rfl hcall halive hcases htx hr
    · cases h

end Steps

/-! ## The workers run the runtime -/

/-- **Every step of the workers is at most one transaction of the runtime**; when the
transactions satisfy `ok`, so do the steps of the runtime. -/
theorem workers_simulate (config : RuntimeConfig) (ok : RuntimeState → RuntimeAction → Prop)
    (okW : WorkerState → WorkerAction → Prop)
    (hok : ∀ st act a, (workers config).ReachableVia okW st → okW st act →
      st.transaction config act = some a → ok st.runtime a) :
    Simulation (workers config) (runtime config) WorkerState.runtime okW ok where
  init := fun _ h => h.1
  step := by
    intro st act st' hr hact hstep
    cases workers_step_cases hstep with
    | planned a r hplan _ hr' =>
      subst hplan
      exact ⟨[a], .cons (hok st _ a hr hact rfl) hr' (.nil _)⟩
    | delivered => exact ⟨[], .nil _⟩
    | moved => exact ⟨[], .nil _⟩
    | committed index action call call' a r _ _ _ _ htx hr' =>
      exact ⟨[a], .cons (hok st act a hr hact htx) hr' (.nil _)⟩

theorem workers_runtime_reachable {config : RuntimeConfig} {okW : WorkerState → WorkerAction → Prop}
    {st : WorkerState} (h : (workers config).ReachableVia okW st) :
    (runtime config).Reachable st.runtime :=
  (workers_simulate config (fun _ _ => True) okW fun _ _ _ _ _ _ => trivial).reachable h

/-- One conversation turn, and no call yet. -/
def noWorkers : WorkerState := ⟨firstTurn, []⟩

theorem workers_reachable_of_run {config : RuntimeConfig} {st : WorkerState}
    {ok : WorkerState → WorkerAction → Prop} {acts : List WorkerAction}
    (h : (workers config).RunVia ok noWorkers acts st) : (workers config).ReachableVia ok st :=
  h.reachableVia (.init ⟨firstTurn_fresh, rfl⟩)

end DocFlow.TaskRuntime
