import DocFlow.TaskRuntime.Transactions

/-!
# What a claim can do

`ClaimStep` lists the ways a claim that has passed its inbox check can commit or
return, with everything it has read on the way; `Recovers` does the same for
the recovery of a current task.  `claimNext_cases` and `recoverStaleExecution_cases`
say that there are no others.
-/

namespace DocFlow.TaskRuntime

/-- The snapshot names the rows it was taken from. -/
theorem recoverySnapshot_fields {db : Db} {p : Plan} {t : Task} {e : TaskExecution} {s : Snapshot}
    (h : recoverySnapshot db p t e = .ok s) :
    s.taskId = t.taskId ∧ s.planId = p.planId ∧ s.attempt = e.attempt ∧
      s.executionId = e.executionId ∧ s.operationId = e.operationId ∧
      e.agentRunId = some s.agentRunId := by
  simp only [recoverySnapshot, bind_eq_ok, orRaise_eq_ok, pure_eq_ok] at h
  obtain ⟨a, ha, c, -, rfl⟩ := h
  exact ⟨rfl, rfl, rfl, rfl, rfl, ha⟩

/-- The rows a recovery looks at: the current task and its latest execution. -/
structure CurrentRows (db : Db) (currentTaskId : TaskId) (t : Task) (e : TaskExecution) :
    Prop where
  task : db.tasks.get? currentTaskId = some t
  latest : db.getLatestByTask t.taskId = some e

/-- The outcomes of `recoverStaleExecution`. -/
inductive Recovers (registry : CapabilityRegistry) (now : Time) (p : Plan) (currentTaskId : TaskId)
    (db : Db) : Option RecoveryClaim → Db → Prop
  | locked (t : Task) (e : TaskExecution) (s : Snapshot) : CurrentRows db currentTaskId t e →
      e.status = .compensationLocked → recoverySnapshot db p t e = .ok s →
      Recovers registry now p currentTaskId db (some (.locked s)) db
  | required (t : Task) (e : TaskExecution) (s : Snapshot) : CurrentRows db currentTaskId t e →
      e.status = .compensationRequired → recoverySnapshot db p t e = .ok s →
      Recovers registry now p currentTaskId db (some (.required s)) db
  | expired (t : Task) (e : TaskExecution) (d : CapabilityDefinition) (s : Snapshot) :
      CurrentRows db currentTaskId t e → e.status = .running →
      registry.get? t.capabilityCode = some d → leaseHeld t d now = false →
      recoverySnapshot db p t (expireLease e) = .ok s →
      Recovers registry now p currentTaskId db (some (.required s)) (db.saveExecution (expireLease e))
  | held (t : Task) (e : TaskExecution) (d : CapabilityDefinition) :
      CurrentRows db currentTaskId t e → e.status = .running →
      registry.get? t.capabilityCode = some d → leaseHeld t d now = true →
      Recovers registry now p currentTaskId db none db

theorem recoverStaleExecution_cases {registry : CapabilityRegistry} {now : Time} {p : Plan}
    {currentTaskId : TaskId} {db db' : Db} {o : Option RecoveryClaim}
    (h : recoverStaleExecution registry now p currentTaskId db = .ok (o, db')) :
    Recovers registry now p currentTaskId db o db' := by
  simp only [recoverStaleExecution, bind_eq_ok, orRaise_eq_ok,
    CapabilityRegistry.require_eq_ok] at h
  obtain ⟨t, ht, d, hd, e, he, h⟩ := h
  have rows : CurrentRows db currentTaskId t e := ⟨ht, he⟩
  cases hs : e.status with
  | compensationLocked =>
    simp only [hs, bind_eq_ok, pure_eq_ok, Prod.mk.injEq] at h
    obtain ⟨s, hsnap, rfl, rfl⟩ := h
    exact .locked t e s rows hs hsnap
  | compensationRequired =>
    simp only [hs, bind_eq_ok, pure_eq_ok, Prod.mk.injEq] at h
    obtain ⟨s, hsnap, rfl, rfl⟩ := h
    exact .required t e s rows hs hsnap
  | running =>
    simp only [hs] at h
    cases hl : leaseHeld t d now with
    | true =>
      simp only [hl, if_true, pure_eq_ok, Prod.mk.injEq] at h
      obtain ⟨rfl, rfl⟩ := h
      exact .held t e d rows hs hd hl
    | false =>
      simp only [hl, Bool.false_eq_true, if_false, bind_eq_ok, pure_eq_ok, Prod.mk.injEq] at h
      obtain ⟨s, hsnap, rfl, rfl⟩ := h
      exact .expired t e d s rows hs hd hl hsnap
  | compensated => simp [hs] at h
  | succeeded => simp [hs] at h
  | failed => simp [hs] at h

/-- The database after `set_status` has put the waiting tasks of a plan back. -/
def resumeRetrying (planId : PlanId) (db : Db) : Db :=
  db.setTaskStatus (db.listByPlanIdAndStatus planId .retryWait) .pending

/-- The outcomes of a claim whose event is not in the inbox. -/
inductive ClaimStep (registry : CapabilityRegistry) (ids : ClaimIds) (clock : Clock)
    (call : ExecuteNextInput) (db : Db) : ClaimNextTaskResult → Db → Prop
  | skipped (p : Plan) (db' : Db) : db.plans.get? call.planId = some p →
      isTerminalForClaim p.status = true ∨
        (p.currentTaskId = none ∧ (call.Directed ∨ ¬ (p.status = .ready ∨ p.status = .running))) →
      recordAndCommitIfEvent call.eventId db db = .ok db' →
      ClaimStep registry ids clock call db .terminal db'
  | mismatched (p : Plan) (currentTaskId : TaskId) (rc : RecoveryClaim) (written db' : Db) :
      db.plans.get? call.planId = some p → isTerminalForClaim p.status = false →
      p.currentTaskId = some currentTaskId →
      Recovers registry (clock.read 0) p currentTaskId db (some rc) written →
      call.Mismatches rc.recovery → recordAndCommitIfEvent call.eventId db written = .ok db' →
      ClaimStep registry ids clock call db .terminal db'
  | locked (p : Plan) (currentTaskId : TaskId) (s : Snapshot) (db' : Db) :
      db.plans.get? call.planId = some p → isTerminalForClaim p.status = false →
      p.currentTaskId = some currentTaskId →
      Recovers registry (clock.read 0) p currentTaskId db (some (.locked s)) db →
      ¬ call.Mismatches s → recordAndCommitIfEvent call.eventId db db = .ok db' →
      ClaimStep registry ids clock call db (.compensationLocked s) db'
  | required (p : Plan) (currentTaskId : TaskId) (s : Snapshot) (db' : Db) :
      db.plans.get? call.planId = some p → isTerminalForClaim p.status = false →
      p.currentTaskId = some currentTaskId →
      Recovers registry (clock.read 0) p currentTaskId db (some (.required s)) db' →
      ¬ call.Mismatches s → ClaimStep registry ids clock call db (.compensationRequired s) db'
  | busy (p : Plan) (currentTaskId : TaskId) (db' : Db) :
      db.plans.get? call.planId = some p → isTerminalForClaim p.status = false →
      p.currentTaskId = some currentTaskId →
      Recovers registry (clock.read 0) p currentTaskId db none db →
      recordAndCommitIfEvent call.eventId db db = .ok db' →
      ClaimStep registry ids clock call db .alreadyRunning db'
  | idle (p : Plan) (db' : Db) : db.plans.get? call.planId = some p → p.currentTaskId = none →
      ¬ call.Directed → p.status = .ready ∨ p.status = .running →
      (resumeRetrying p.planId db).getNextRunnable p.planId .pending .succeeded = none →
      (call.eventId = none ∧ db' = db) ∨
        recordInbox call.eventId (resumeRetrying p.planId db) = .ok db' →
      ClaimStep registry ids clock call db .noTask db'
  | claimed (p : Plan) (t : Task) (d : CapabilityDefinition) (c : ConversationId)
      (db₁ db₂ db' : Db) : db.plans.get? call.planId = some p → p.currentTaskId = none →
      ¬ call.Directed → p.status = .ready ∨ p.status = .running →
      (resumeRetrying p.planId db).getNextRunnable p.planId .pending .succeeded = some t →
      registry.get? t.capabilityCode = some d →
      (((resumeRetrying p.planId db).saveTask (startTask d clock t)).savePlan
        (startPlan clock t p)).addExecution (newExecution d ids clock p (startTask d clock t)) =
          .ok db₁ →
      db₁.addOutbox (leaseWakeup d ids clock p) = .ok db₂ →
      recordInbox call.eventId db₂ = .ok db' →
      ClaimStep registry ids clock call db
        (.claimed (taskSnapshot d ids c p (startTask d clock t))) db'

theorem claimRecovery_cases {registry : CapabilityRegistry} {ids : ClaimIds} {clock : Clock}
    {call : ExecuteNextInput} {db db' : Db} {r : ClaimNextTaskResult} {p : Plan}
    {currentTaskId : TaskId} (hp : db.plans.get? call.planId = some p)
    (hlive : isTerminalForClaim p.status = false) (hcur : p.currentTaskId = some currentTaskId)
    (h : claimRecovery registry clock call p currentTaskId db = .ok (r, db')) :
    ClaimStep registry ids clock call db r db' := by
  simp only [claimRecovery, bind_eq_ok, Prod.exists] at h
  obtain ⟨o, written, ho, h⟩ := h
  have hrec := recoverStaleExecution_cases ho
  cases o with
  | none =>
    simp only [bind_eq_ok, pure_eq_ok, Prod.mk.injEq] at h
    obtain ⟨_, hdb, rfl, rfl⟩ := h
    cases hrec with
    | held t e d rows hs hd hl =>
      exact .busy p currentTaskId _ hp hlive hcur (.held t e d rows hs hd hl) hdb
  | some rc =>
    by_cases hm : call.Mismatches rc.recovery
    · simp only [hm, if_true, bind_eq_ok, pure_eq_ok, Prod.mk.injEq] at h
      obtain ⟨_, hdb, rfl, rfl⟩ := h
      exact .mismatched p currentTaskId rc written _ hp hlive hcur hrec hm hdb
    · simp only [hm, if_false] at h
      cases rc with
      | locked s =>
        simp only [bind_eq_ok, pure_eq_ok, Prod.mk.injEq] at h
        obtain ⟨_, hdb, rfl, rfl⟩ := h
        cases hrec with
        | locked t e _ rows hs hsnap =>
          exact .locked p currentTaskId s _ hp hlive hcur (.locked t e s rows hs hsnap) hm hdb
      | required s =>
        obtain ⟨rfl, rfl⟩ := Prod.mk.inj (pure_eq_ok.mp h)
        exact .required p currentTaskId s _ hp hlive hcur hrec hm

theorem claimRunnable_cases {registry : CapabilityRegistry} {ids : ClaimIds} {clock : Clock}
    {call : ExecuteNextInput} {db db' : Db} {r : ClaimNextTaskResult} {p : Plan}
    (hp : db.plans.get? call.planId = some p) (hcur : p.currentTaskId = none)
    (hundirected : ¬ call.Directed) (hstatus : p.status = .ready ∨ p.status = .running)
    (h : claimRunnable registry ids clock call p db = .ok (r, db')) :
    ClaimStep registry ids clock call db r db' := by
  have hresumed : db.setTaskStatus (db.listByPlanIdAndStatus p.planId .retryWait) .pending =
      resumeRetrying p.planId db := rfl
  rw [claimRunnable] at h
  simp only [hresumed] at h
  cases hnext : (resumeRetrying p.planId db).getNextRunnable p.planId .pending .succeeded with
  | none =>
    simp only [hnext] at h
    split at h
    · simp only [bind_eq_ok, pure_eq_ok, Prod.mk.injEq] at h
      obtain ⟨_, hdb, rfl, rfl⟩ := h
      exact .idle p _ hp hcur hundirected hstatus hnext (.inr hdb)
    · next hquiet =>
      obtain ⟨rfl, rfl⟩ := Prod.mk.inj (pure_eq_ok.mp h)
      rw [not_or, not_not, not_not] at hquiet
      exact .idle p _ hp hcur hundirected hstatus hnext (.inl ⟨hquiet.2, rfl⟩)
  | some t =>
    simp only [hnext, bind_eq_ok, CapabilityRegistry.require_eq_ok, pure_eq_ok,
      Prod.mk.injEq] at h
    obtain ⟨d, hd, c, -, db₁, h₁, db₂, h₂, _, h₃, rfl, rfl⟩ := h
    exact .claimed p t d c db₁ db₂ _ hp hcur hundirected hstatus hnext hd h₁ h₂ h₃

/-- **A claim does one of the listed things.** -/
theorem claimNext_cases {registry : CapabilityRegistry} {ids : ClaimIds} {clock : Clock}
    {call : ExecuteNextInput} {seen : Bool} {db db' : Db} {r : ClaimNextTaskResult}
    (h : claimNext registry ids clock seen call db = .ok (r, db')) :
    (seen = true ∧ r = .terminal ∧ db' = db) ∨
      (seen = false ∧ ClaimStep registry ids clock call db r db') := by
  cases seen with
  | true =>
    simp only [claimNext, if_true] at h
    obtain ⟨rfl, rfl⟩ := Prod.mk.inj (pure_eq_ok.mp h)
    exact .inl ⟨rfl, rfl, rfl⟩
  | false =>
    refine .inr ⟨rfl, ?_⟩
    simp only [claimNext, Bool.false_eq_true, if_false, bind_eq_ok, orRaise_eq_ok] at h
    obtain ⟨p, hp, h⟩ := h
    cases hterm : isTerminalForClaim p.status with
    | true =>
      simp only [hterm, if_true, bind_eq_ok, pure_eq_ok, Prod.mk.injEq] at h
      obtain ⟨_, hdb, rfl, rfl⟩ := h
      exact .skipped p _ hp (.inl hterm) hdb
    | false =>
      simp only [hterm, Bool.false_eq_true, if_false] at h
      cases hcur : p.currentTaskId with
      | some currentTaskId =>
        simp only [hcur] at h
        exact claimRecovery_cases hp hterm hcur h
      | none =>
        simp only [hcur] at h
        split at h
        · next hskip =>
          simp only [bind_eq_ok, pure_eq_ok, Prod.mk.injEq] at h
          obtain ⟨_, hdb, rfl, rfl⟩ := h
          exact .skipped p _ hp (.inr ⟨hcur, hskip⟩) hdb
        · next hgo =>
          rw [not_or, not_not] at hgo
          exact claimRunnable_cases hp hcur hgo.1 hgo.2 h

end DocFlow.TaskRuntime
