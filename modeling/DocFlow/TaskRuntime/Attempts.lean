import DocFlow.TaskRuntime.Deliveries

/-!
# What a transaction does to the executions

A transaction leaves the executions alone, rewrites the one of its snapshot (`Writes`), marks
one whose lease has run out, or adds one (`transaction_executions`).  With this, the calls of
the workers can be followed through the executions they belong to: `Attempts` says that the
snapshots of the calls have been handed out, that each execution was created by at most one
call, and that operation identifiers are unique.
-/

namespace DocFlow.TaskRuntime

/-! ## Rewriting an execution -/

/-- How a transaction rewrites the execution of its snapshot. -/
inductive Writes (config : RuntimeConfig) (e : TaskExecution) :
    RuntimeAction → TaskExecution → Prop
  | completed (newEventId : EventId) (clock : Clock) (s : Snapshot) (outputJson : OutputJson)
      (resourceRefs : List String) : e.status = .running →
      Writes config e (.complete newEventId clock s outputJson resourceRefs)
        (succeedExecution (clock.read 0) outputJson resourceRefs e)
  | failed (newEventId : EventId) (clock : Clock) (s : Snapshot) (error : TaskExecutionError) :
      e.status = .running →
      Writes config e (.fail newEventId clock s error)
        (recordError .failed (some (clock.read 0)) error e)
  | required (s : Snapshot) (error : TaskExecutionError) : e.status = .running →
      Writes config e (.requireCompensation s error) (recordError .compensationRequired none error e)
  | counted (clock : Clock) (s : Snapshot) : e.status = .compensationRequired →
      Writes config e (.beginCompensation clock s) (countAttempt (clock.read 0) e)
  | scheduled (newEventId : EventId) (clock : Clock) (s : Snapshot) (eventId : Option EventId)
      (error : String) (attempt : Nat) : e.status = .compensationRequired →
      e.compensationAttemptCount = attempt → attempt < config.settings.maxCompensationAttempts →
      Writes config e (.handleCompensationFailure newEventId clock s eventId error attempt)
        (recordCompensationError error e)
  | locked (newEventId : EventId) (clock : Clock) (s : Snapshot) (eventId : Option EventId)
      (error : String) (attempt : Nat) : e.status = .compensationRequired →
      e.compensationAttemptCount = attempt → config.settings.maxCompensationAttempts ≤ attempt →
      Writes config e (.handleCompensationFailure newEventId clock s eventId error attempt)
        (lockExhausted (clock.read 0) (recordCompensationError error e))
  | compensated (newEventId : EventId) (clock : Clock) (s : Snapshot)
      (eventId : Option EventId) : e.status = .compensationRequired →
      Writes config e (.completeCompensation newEventId clock s eventId)
        (compensateExecution (clock.read 0) e)

/-- The lease of the execution has run out when the plan is claimed. -/
structure Expires (registry : CapabilityRegistry) (db : Db) (now : Time) (planId : PlanId)
    (e : TaskExecution) : Prop where
  running : e.status = .running
  current : ∃ p ∈ db.plans.rows, p.planId = planId ∧ isTerminalForClaim p.status = false ∧
    p.currentTaskId = some e.taskId
  lease : ∃ t ∈ db.tasks.rows, t.taskId = e.taskId ∧ db.getLatestByTask t.taskId = some e ∧
    ∃ d ∈ registry.get? t.capabilityCode, leaseHeld t d now = false

/-- What a transaction does to the executions. -/
inductive ExecutionWrite (config : RuntimeConfig) (db db' : Db) : RuntimeAction → Prop
  | kept (a : RuntimeAction) : a.snapshot? = none → db'.taskExecutions = db.taskExecutions →
      ExecutionWrite config db db' a
  | written (a : RuntimeAction) (s : Snapshot) (e e' : TaskExecution) : a.snapshot? = some s →
      db.taskExecutions.get? s.executionId = some e → Writes config e a e' →
      db'.taskExecutions = db.taskExecutions.save e' → ExecutionWrite config db db' a
  | expired (ids : ClaimIds) (clock : Clock) (call : ExecuteNextInput) (e : TaskExecution) :
      e ∈ db.taskExecutions → Expires config.registry db (clock.read 0) call.planId e →
      db'.taskExecutions = db.taskExecutions.save (expireLease e) →
      ExecutionWrite config db db' (.claim ids clock false call)
  | created (ids : ClaimIds) (clock : Clock) (call : ExecuteNextInput) (e : TaskExecution) :
      e.executionId = ids.executionId → e.operationId = ids.operationId → e.status = .running →
      e.compensationAttemptCount = 0 → db.taskExecutions.insert e = some db'.taskExecutions →
      ExecutionWrite config db db' (.claim ids clock false call)

theorem Writes.sameAttempt {config : RuntimeConfig} {a : RuntimeAction} {e e' : TaskExecution}
    (h : Writes config e a e') : SameAttempt e e' := by
  cases h <;> exact ⟨rfl, rfl, rfl, rfl, rfl, rfl, rfl⟩

section Executions

variable {config : RuntimeConfig} {db db' : Db}

theorem Recovers.executions {now : Time} {p : Plan} {T : TaskId} {o : Option RecoveryClaim}
    {planId : PlanId} (hp : db.plans.get? planId = some p)
    (hlive : isTerminalForClaim p.status = false) (hcur : p.currentTaskId = some T)
    (h : Recovers config.registry now p T db o db') :
    db'.taskExecutions = db.taskExecutions ∨ ∃ e ∈ db.taskExecutions,
      Expires config.registry db now planId e ∧
      db'.taskExecutions = db.taskExecutions.save (expireLease e) := by
  cases h with
  | locked | required | held => exact .inl rfl
  | expired t e d s rows hst hd hlease =>
    obtain ⟨ht, htid, he, het⟩ := rows.mem
    obtain ⟨hpm, hpid⟩ := Table.get?_eq_some.mp hp
    exact .inr ⟨e, he, ⟨hst, ⟨p, hpm, hpid, hlive, by rw [hcur, het]⟩,
      ⟨t, ht, by rw [htid, het], rows.latest, d, hd, hlease⟩⟩, rfl⟩

theorem ClaimStep.executions {ids : ClaimIds} {clock : Clock} {call : ExecuteNextInput}
    {r : ClaimNextTaskResult} (h : ClaimStep config.registry ids clock call db r db') :
    ExecutionWrite config db db' (.claim ids clock false call) := by
  cases h with
  | skipped p _ _ _ hdb => exact .kept _ rfl (recordAndCommitIfEvent_inboxOnly hdb).taskExecutions
  | locked p T s _ _ _ _ _ _ hdb =>
    exact .kept _ rfl (recordAndCommitIfEvent_inboxOnly hdb).taskExecutions
  | busy p T _ _ _ _ _ hdb => exact .kept _ rfl (recordAndCommitIfEvent_inboxOnly hdb).taskExecutions
  | mismatched p T rc written _ hp hlive hcur hrec _ hdb =>
    rcases recordAndCommitIfEvent_cases hdb with rfl | hdb
    · exact .kept _ rfl rfl
    · rcases hrec.executions hp hlive hcur with hsame | ⟨e, he, hexp, hsave⟩
      · exact .kept _ rfl (hdb.taskExecutions.trans hsame)
      · exact .expired ids clock call e he hexp (hdb.taskExecutions.trans hsave)
  | required p T s _ hp hlive hcur hrec =>
    rcases hrec.executions hp hlive hcur with hsame | ⟨e, he, hexp, hsave⟩
    · exact .kept _ rfl hsame
    · exact .expired ids clock call e he hexp hsave
  | idle p _ _ _ _ _ _ hdb =>
    rcases hdb with ⟨-, rfl⟩ | hdb
    · exact .kept _ rfl rfl
    · exact .kept _ rfl (recordInbox_inboxOnly hdb).taskExecutions
  | claimed p t d c db₁ db₂ _ _ _ _ _ _ _ h₁ h₂ h₃ =>
    obtain ⟨-, execs, hexecs, rfl⟩ := Db.addExecution_eq_ok.mp h₁
    obtain ⟨outbox, -, rfl⟩ := Db.addOutbox_eq_ok.mp h₂
    refine .created ids clock call (newExecution d ids clock p (startTask d clock t)) rfl rfl rfl
      rfl ?_
    rw [(recordInbox_inboxOnly h₃).taskExecutions]
    exact hexecs

/-- **A transaction does one of these things to the executions.** -/
theorem transaction_executions {a : RuntimeAction} {x : Option Snapshot}
    (h : a.transaction config db = .ok (x, db')) : ExecutionWrite config db db' a := by
  cases a with
  | createPlan | createTask | finalizePlan | prepareRevision =>
    exact .kept _ rfl (planning_records rfl h).1
  | claim ids clock seen call =>
    simp only [RuntimeAction.transaction, bind_eq_ok, Prod.exists, pure_eq_ok, Prod.mk.injEq] at h
    obtain ⟨r, _, hx, -, rfl⟩ := h
    rcases claimNext_cases hx with ⟨-, -, rfl⟩ | ⟨rfl, hclaim⟩
    · exact .kept _ rfl rfl
    · exact hclaim.executions
  | complete newEventId clock s outputJson resourceRefs =>
    obtain ⟨_, hx, he⟩ := map_eq_ok.mp h
    obtain ⟨-, rfl⟩ := Prod.mk.inj he
    obtain ⟨p, t, e, base, hlock, rfl, h⟩ := complete_cases hx
    obtain ⟨-, -, he, -, -, hst, -⟩ := lockExecution_eq_ok.mp hlock
    refine .written _ s e _ rfl he (.completed newEventId clock s outputJson resourceRefs hst) ?_
    rcases h with ⟨-, h⟩ | ⟨-, h⟩ | ⟨-, rfl⟩
    · obtain ⟨_, -, rfl⟩ := Db.addOutbox_eq_ok.mp h
      rfl
    · obtain ⟨_, -, rfl⟩ := Db.addOutbox_eq_ok.mp h
      rfl
    · rfl
  | fail newEventId clock s error =>
    obtain ⟨_, hx, he⟩ := map_eq_ok.mp h
    obtain ⟨-, rfl⟩ := Prod.mk.inj he
    obtain ⟨p, t, e, hlock, h⟩ := fail_cases hx
    obtain ⟨-, -, he, -, -, hst, -⟩ := lockExecution_eq_ok.mp hlock
    refine .written _ s e _ rfl he (.failed newEventId clock s error hst) ?_
    rcases h with ⟨-, -, h⟩ | ⟨-, c, h⟩
    · obtain ⟨_, -, rfl⟩ := Db.addOutbox_eq_ok.mp h
      rfl
    · obtain ⟨_, -, rfl⟩ := Db.addOutbox_eq_ok.mp h
      rfl
  | requireCompensation s error =>
    obtain ⟨_, hx, he⟩ := map_eq_ok.mp h
    obtain ⟨-, rfl⟩ := Prod.mk.inj he
    obtain ⟨p, t, e, hlock, rfl⟩ := requireCompensation_cases hx
    obtain ⟨-, -, he, -, -, hst, -⟩ := lockExecution_eq_ok.mp hlock
    exact .written _ s e _ rfl he (.required s error hst) rfl
  | beginCompensation clock s =>
    simp only [RuntimeAction.transaction, bind_eq_ok, Prod.exists, pure_eq_ok, Prod.mk.injEq] at h
    obtain ⟨n, _, hx, -, rfl⟩ := h
    obtain ⟨p, t, e, hlock, -, rfl⟩ := beginCompensationAttempt_cases hx
    obtain ⟨-, -, he, -, -, hst, -⟩ := lockCompensationToken_eq_ok.mp hlock
    exact .written _ s e _ rfl he (.counted clock s hst) rfl
  | handleCompensationFailure newEventId clock s eventId error attempt =>
    simp only [RuntimeAction.transaction, bind_eq_ok, Prod.exists, pure_eq_ok, Prod.mk.injEq] at h
    obtain ⟨o, _, hx, -, rfl⟩ := h
    obtain ⟨p, t, e, hlock, hcount, h⟩ := handleCompensationFailure_cases hx
    obtain ⟨-, -, he, -, -, hst, -⟩ := lockCompensationToken_eq_ok.mp hlock
    rcases h with ⟨hmax, -, h⟩ | ⟨hlt, -, mid, hmid, h⟩
    · exact .written _ s e _ rfl he
        (.locked newEventId clock s eventId error attempt hst hcount hmax)
        (recordInboxOnce_inboxOnly h).taskExecutions
    · refine .written _ s e _ rfl he
        (.scheduled newEventId clock s eventId error attempt hst hcount hlt) ?_
      obtain ⟨_, -, rfl⟩ := Db.addOutbox_eq_ok.mp hmid
      exact (recordInboxOnce_inboxOnly h).taskExecutions
  | completeCompensation newEventId clock s eventId =>
    simp only [RuntimeAction.transaction, bind_eq_ok, Prod.exists, pure_eq_ok, Prod.mk.injEq] at h
    obtain ⟨o, _, hx, -, rfl⟩ := h
    obtain ⟨p, t, e, mid, hlock, hinbox, h⟩ := completeCompensation_cases hx
    obtain ⟨-, -, he, -, -, hst, -⟩ := lockCompensationToken_eq_ok.mp hlock
    refine .written _ s e _ rfl he (.compensated newEventId clock s eventId hst) ?_
    rw [(recordInbox_inboxOnly hinbox).taskExecutions]
    rcases h with ⟨-, -, -, h⟩ | ⟨-, -, h⟩
    · obtain ⟨_, -, rfl⟩ := Db.addOutbox_eq_ok.mp h
      rfl
    · obtain ⟨_, -, rfl⟩ := Db.addOutbox_eq_ok.mp h
      rfl

/-- **Where a row comes from**: it was there and is not the snapshot's, it is the rewritten row
of the snapshot, a running one whose lease has run out, or a new one. -/
theorem ExecutionWrite.row {a : RuntimeAction} (h : ExecutionWrite config db db' a)
    {e' : TaskExecution} (he' : e' ∈ db'.taskExecutions) :
    (e' ∈ db.taskExecutions ∧ ∀ s, a.snapshot? = some s → e'.executionId ≠ s.executionId) ∨
    (∃ s e, a.snapshot? = some s ∧ db.taskExecutions.get? s.executionId = some e ∧
      Writes config e a e') ∨
    (a.snapshot? = none ∧ ∃ e ∈ db.taskExecutions, e.status = .running ∧ e' = expireLease e) ∨
    (a.snapshot? = none ∧ (∀ e ∈ db.taskExecutions, e.executionId ≠ e'.executionId) ∧
      e'.status = .running ∧ e'.compensationAttemptCount = 0) := by
  cases h with
  | kept _ hnone hsame =>
    rw [hsame] at he'
    refine .inl ⟨he', fun s hs => ?_⟩
    rw [hnone] at hs
    cases hs
  | written _ s e r hs hget hwrites hsave =>
    obtain ⟨he, hid⟩ := Table.get?_eq_some.mp hget
    have hkey := hwrites.sameAttempt.executionId
    rw [hsave] at he'
    rcases Table.mem_save.mp he' with ⟨rfl, -⟩ | ⟨hold, hne⟩
    · exact .inr (.inl ⟨s, e, hs, hget, hwrites⟩)
    · refine .inl ⟨hold, fun s' hs' => ?_⟩
      obtain rfl := Option.some.inj (hs.symm.trans hs')
      rw [hkey, hid] at hne
      exact hne
  | expired ids clock call e he hexp hsave =>
    rw [hsave] at he'
    rcases Table.mem_save.mp he' with ⟨rfl, -⟩ | ⟨hold, -⟩
    · exact .inr (.inr (.inl ⟨rfl, e, he, hexp.running, rfl⟩))
    · exact .inl ⟨hold, nofun⟩
  | created ids clock call e _ _ hst hcount hins =>
    rcases (Table.mem_insert hins).mp he' with hold | rfl
    · exact .inl ⟨hold, nofun⟩
    · exact .inr (.inr (.inr ⟨rfl, fun x hx => Table.key_not_mem_of_insert hins hx, hst, hcount⟩))

end Executions

/-! ## Operations -/

/-- No two executions share an operation. -/
def OperationsUnique (db : Db) : Prop :=
  ∀ e ∈ db.taskExecutions, ∀ e' ∈ db.taskExecutions, e.operationId = e'.operationId → e = e'

section Operations

variable {config : RuntimeConfig}

/-- Rewriting executions in place keeps their operations apart. -/
theorem OperationsUnique.save {db db' : Db} (h : OperationsUnique db) {e e' : TaskExecution}
    (he : e ∈ db.taskExecutions) (hsame : SameAttempt e e')
    (hsave : db'.taskExecutions = db.taskExecutions.save e') : OperationsUnique db' := by
  have hcorr : Table.Corr (fun x y => y.executionId = x.executionId ∧ y.operationId = x.operationId)
      db.taskExecutions db'.taskExecutions := by
    rw [hsave]
    exact .save (fun _ => ⟨rfl, rfl⟩) he hsame.executionId ⟨hsame.executionId, hsame.operationId⟩
  intro x' hx' y' hy' hop
  obtain ⟨x, hx, hxid, hxop⟩ := hcorr.back x' hx'
  obtain ⟨y, hy, hyid, hyop⟩ := hcorr.back y' hy'
  have hxy : x = y := h x hx y hy (by rw [← hxop, hop, hyop])
  exact Table.eq_of_key hx' hy' (by rw [hxid, hxy, hyid])

theorem OperationsUnique.step {st st' : RuntimeState} {a : RuntimeAction}
    (h : OperationsUnique st.db) (hstep : (runtime config).step st a = some st') :
    OperationsUnique st'.db := by
  obtain ⟨hen, -⟩ := runtime_step hstep
  have hsame : ∀ {db : Db}, db.taskExecutions = st.db.taskExecutions → OperationsUnique db := by
    intro db hdb
    unfold OperationsUnique
    rw [hdb]
    exact h
  rcases runtime_step_cases hstep with ⟨x, db', htx, rfl, -⟩ | ⟨f, -, hdb, -⟩
  case inr => exact hsame (by rw [hdb])
  cases transaction_executions htx with
  | kept _ _ hdb => exact hsame hdb
  | written _ s e e' _ hget hwrites hsave =>
    exact h.save (Table.mem_of_get? hget) hwrites.sameAttempt hsave
  | expired ids clock call e he _ hsave =>
    have hexpired : SameAttempt e (expireLease e) := ⟨rfl, rfl, rfl, rfl, rfl, rfl, rfl⟩
    exact h.save he hexpired hsave
  | created ids clock call e _ hop _ _ hins =>
    have hfresh := hen.2 ids clock false call rfl
    intro x hx y hy hxy
    rcases (Table.mem_insert hins).mp hx with hx | rfl
    · rcases (Table.mem_insert hins).mp hy with hy | rfl
      · exact h x hx y hy hxy
      · exact absurd (hxy.trans hop) (hfresh x hx)
    · rcases (Table.mem_insert hins).mp hy with hy | rfl
      · exact absurd (hxy.symm.trans hop) (hfresh y hy)
      · rfl

theorem reachable_operationsUnique {ok : RuntimeState → RuntimeAction → Prop} {st : RuntimeState}
    (h : (runtime config).ReachableVia ok st) : OperationsUnique st.db := by
  refine h.invariant (P := fun st => OperationsUnique st.db) ?_ fun _ _ _ _ ho _ hs => ho.step hs
  rintro s ⟨-, -, -, he, -, -, -⟩
  simp [OperationsUnique, Table.mem_iff, he]

end Operations

/-! ## The snapshots of the calls -/

/-- The snapshot a call works with. -/
def Phase.snapshot? : Phase → Option Snapshot
  | .claimed task | .executing task | .executed task _ => some task.toSnapshot
  | .recovering s _ | .begun s _ _ | .compensating s _ _ | .compensated s _ _ _ => some s
  | _ => none

/-- The task a call executes. -/
def Phase.task? : Phase → Option TaskSnapshot
  | .claimed task | .executing task | .executed task _ => some task
  | _ => none

def ExecutionExists (db : Db) (x : ExecutionId) : Prop := ∃ e ∈ db.taskExecutions, e.executionId = x

/-- The calls and the executions they belong to. -/
structure Attempts (st : WorkerState) : Prop where
  held : ∀ c ∈ st.calls, ∀ s ∈ c.phase.snapshot?, s ∈ st.runtime.handedOut
  created : Once Call.created (ExecutionExists st.runtime.db) st.calls
  executor : ∀ c ∈ st.calls, ∀ t ∈ c.phase.task?, c.created = some t.executionId

section Attempts

variable {config : RuntimeConfig} {st : WorkerState} {index : Nat} {call call' : Call}

theorem ExecutionsFollow.exists {db db' : Db} (h : ExecutionsFollow db db') (x : ExecutionId)
    (hx : ExecutionExists db x) : ExecutionExists db' x := by
  obtain ⟨e, he, rfl⟩ := hx
  obtain ⟨e', he', hsame, -⟩ := h e he
  exact ⟨e', he', hsame.executionId⟩

/-- A claimed execution is new. -/
theorem ClaimStep.new_execution {registry : CapabilityRegistry} {db db' : Db} {ids : ClaimIds}
    {clock : Clock} {input : ExecuteNextInput} {task : TaskSnapshot}
    (h : ClaimStep registry ids clock input db (.claimed task) db') :
    ¬ ExecutionExists db task.executionId ∧
      ∃ e ∈ db'.taskExecutions, e.executionId = task.executionId ∧ e.status = .running ∧
        e.compensationAttemptCount = 0 := by
  cases h with
  | claimed p t d c db₁ db₂ _ _ _ _ _ _ _ h₁ h₂ h₃ =>
    obtain ⟨-, execs, hexecs, rfl⟩ := Db.addExecution_eq_ok.mp h₁
    obtain ⟨outbox, -, rfl⟩ := Db.addOutbox_eq_ok.mp h₂
    constructor
    · rintro ⟨e, he, hid⟩
      exact Table.key_not_mem_of_insert hexecs he hid
    · refine ⟨newExecution d ids clock p (startTask d clock t), ?_, rfl, rfl, rfl⟩
      rw [(recordInbox_inboxOnly h₃).taskExecutions]
      exact (Table.mem_insert hexecs).mpr (.inr rfl)

/-- The snapshot of a call, after a step of it: the old one, or one that its claim was
handed. -/
theorem CallStep.snapshot {db : Db} {a : Option RuntimeAction}
    (h : CallStep config db call a call') {s : Snapshot} (hs : s ∈ call'.phase.snapshot?) :
    s ∈ call.phase.snapshot? ∨ ∃ ids clock seen r db', a = some (.claim ids clock seen call.input) ∧
      claimNext config.registry ids clock seen call.input db = .ok (r, db') ∧
      r.snapshot? = some s := by
  cases h with
  | checked | skipped | completed | failed | concluded | unsuccessful => cases hs
  | claimed ids clock seen task db' _ hx =>
    exact .inr ⟨ids, clock, seen, _, db', rfl, hx, hs⟩
  | recovering ids clock seen s' db' _ hx =>
    exact .inr ⟨ids, clock, seen, _, db', rfl, hx, hs⟩
  | raised | crashed => exact .inl hs
  | executing t hphase => exact .inl (by rw [hphase]; exact hs)
  | executed t outcome hphase => exact .inl (by rw [hphase]; exact hs)
  | required t error db' hphase => exact .inl (by rw [hphase]; exact hs)
  | begun clock s' eventId attempt db' hphase => exact .inl (by rw [hphase]; exact hs)
  | invoked s' eventId attempt hphase => exact .inl (by rw [hphase]; exact hs)
  | answered s' eventId attempt error hphase => exact .inl (by rw [hphase]; exact hs)

/-- The task of a call, after a step of it. -/
theorem CallStep.task {db : Db} {a : Option RuntimeAction}
    (h : CallStep config db call a call') {t : TaskSnapshot} (ht : t ∈ call'.phase.task?) :
    call'.created = some t.executionId ∨ (t ∈ call.phase.task? ∧ call'.created = call.created) := by
  cases h with
  | claimed =>
    obtain rfl := Option.some.inj ht
    exact .inl rfl
  | executing t' hphase => exact .inr ⟨by rw [hphase]; exact ht, rfl⟩
  | executed t' outcome hphase => exact .inr ⟨by rw [hphase]; exact ht, rfl⟩
  | raised | crashed => exact .inr ⟨ht, rfl⟩
  | _ => cases ht

theorem Attempts.setCall {a : Option RuntimeAction} {r : RuntimeState} (h : Attempts st)
    (hcall : st.calls[index]? = some call) (hstep : CallStep config st.runtime.db call a call')
    (hkept : ∀ s ∈ st.runtime.handedOut, s ∈ r.handedOut)
    (hexecs : ∀ x, ExecutionExists st.runtime.db x → ExecutionExists r.db x)
    (hclaim : ∀ ids clock seen result db', a = some (.claim ids clock seen call.input) →
      claimNext config.registry ids clock seen call.input st.runtime.db = .ok (result, db') →
      r.db = db' ∧ r.handedOut = result.snapshot?.toList ++ st.runtime.handedOut) :
    Attempts (st.setCall index call' r) := by
  have hmem := List.mem_of_getElem? hcall
  refine ⟨fun c hc s hs => ?_, h.created.set hcall hexecs fun x hx => ?_, fun c hc t ht => ?_⟩
  · rcases List.mem_or_eq_of_mem_set hc with hc | rfl
    · exact hkept s (h.held c hc s hs)
    · rcases hstep.snapshot hs with hold | ⟨ids, clock, seen, result, db', ha, hx, hresult⟩
      · exact hkept s (h.held call hmem s hold)
      · show s ∈ r.handedOut
        rw [(hclaim ids clock seen result db' ha hx).2, hresult]
        exact List.mem_cons_self
  · rcases hstep.created with hc | ⟨ids, clock, task, db', ha, hx', rfl⟩
    · rw [hc] at hx
      exact .inl hx
    · obtain rfl := Option.some.inj hx
      rcases claimNext_cases hx' with ⟨-, hr, -⟩ | ⟨-, hclaimed⟩
      · cases hr
      · obtain ⟨hfresh, e, he, hid, -⟩ := hclaimed.new_execution
        have hdb := (hclaim ids clock false _ db' ha hx').1
        exact .inr ⟨hfresh, e, hdb ▸ he, hid⟩
  · rcases List.mem_or_eq_of_mem_set hc with hc | rfl
    · exact h.executor c hc t ht
    · rcases hstep.task ht with hnew | ⟨ht, hsame⟩
      · exact hnew
      · rw [hsame]
        exact h.executor call hmem t ht

theorem handedOut_kept {st r : RuntimeState} {a : RuntimeAction}
    (hr : (runtime config).step st a = some r) : ∀ s ∈ st.handedOut, s ∈ r.handedOut := by
  intro s hs
  rcases runtime_step_cases hr with ⟨x, db', -, -, hout⟩ | ⟨f, -, -, hout⟩
  · rw [hout]
    exact List.mem_append_right _ hs
  · rw [hout]
    exact hs

/-- **The step.** -/
theorem Attempts.step {st' : WorkerState} {act : WorkerAction}
    (hreach : (runtime config).Reachable st.runtime) (h : Attempts st)
    (hstep : (workers config).step st act = some st') : Attempts st' := by
  have hexecs : ∀ {a r}, (runtime config).step st.runtime a = some r →
      ∀ x, ExecutionExists st.runtime.db x → ExecutionExists r.db x :=
    fun hr => (runtime_step_effects (reachable_owned hreach) hr).executionsFollow.exists
  cases workers_step_cases hstep with
  | planned a r _ _ hr =>
    exact ⟨fun c hc s hs => handedOut_kept hr s (h.held c hc s hs), h.created.mono (hexecs hr),
      h.executor⟩
  | delivered input =>
    refine ⟨fun c hc s hs => ?_, h.created.append rfl, fun c hc t ht => ?_⟩
    · rcases List.mem_append.mp hc with hc | hc
      · exact h.held c hc s hs
      · rw [List.mem_singleton.mp hc] at hs
        cases hs
    · rcases List.mem_append.mp hc with hc | hc
      · exact h.executor c hc t ht
      · rw [List.mem_singleton.mp hc] at ht
        cases ht
  | moved index action call call' _ hcall _ hcases =>
    refine h.setCall hcall hcases (fun _ hs => hs) (fun _ hx => hx) fun _ _ _ _ _ ha => ?_
    cases ha
  | committed index action call call' a r _ hcall _ hcases _ hr =>
    refine h.setCall hcall hcases (handedOut_kept hr) (hexecs hr) fun ids clock seen result db' ha hx => ?_
    obtain rfl := Option.some.inj ha
    exact claim_committed hr hx

theorem reachable_attempts {ok : WorkerState → WorkerAction → Prop}
    (h : (workers config).ReachableVia ok st) : Attempts st := by
  refine h.invariant (P := Attempts) ?_
    fun _ _ _ hr ha _ hs => ha.step (workers_runtime_reachable hr) hs
  rintro s ⟨-, hcalls⟩
  refine ⟨by simp [hcalls], ?_, by simp [hcalls]⟩
  rw [hcalls]
  exact .nil

end Attempts

end DocFlow.TaskRuntime
