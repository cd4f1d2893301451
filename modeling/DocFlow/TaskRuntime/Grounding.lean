import DocFlow.TaskRuntime.Ownership

/-!
# What the rows refer to

A claim looks up the turn of its plan, and a recovery the agent run of its execution; both raise if
there is none.  `reachable_grounded` says that there always is one: the turn of a plan is there when the
plan is created, and no transaction takes a turn away.
-/

namespace DocFlow.TaskRuntime

/-- The turn of every plan is there. -/
def Anchored (db : Db) : Prop :=
  ∀ p ∈ db.plans, ∃ turn ∈ db.conversationTurns, turn.turnId = p.turnId

structure Grounded (db : Db) : Prop where
  turns : Anchored db
  agentRuns : ∀ e ∈ db.taskExecutions, ∃ a, e.agentRunId = some a

/-! ## Single writes -/

section Writes

variable {db db' : Db} {p q : Plan}

theorem Anchored.of_eq (h : Anchored db) (hplans : db'.plans = db.plans)
    (hturns : db'.conversationTurns = db.conversationTurns) : Anchored db' := by
  intro x hx
  rw [hplans] at hx
  rw [hturns]
  exact h x hx

theorem Anchored.savePlan (h : Anchored db) (hp : p ∈ db.plans)
    (hplans : db'.plans = db.plans.save q)
    (hturns : db'.conversationTurns = db.conversationTurns) (hkey : q.planId = p.planId)
    (hturn : q.turnId = p.turnId) : Anchored db' := by
  intro x hx
  rw [hplans] at hx
  rw [hturns]
  rcases (Table.mem_save_of_mem hp hkey).mp hx with rfl | ⟨hx, -⟩
  · rw [hturn]
    exact h p hp
  · exact h x hx

theorem Anchored.saveTurn (h : Anchored db) {turn turn' : ConversationTurn}
    (hturn : turn ∈ db.conversationTurns) (hkey : turn'.turnId = turn.turnId) :
    Anchored (db.saveTurn turn') := by
  intro x hx
  obtain ⟨y, hy, hyx⟩ := h x hx
  by_cases hyt : y = turn
  · exact ⟨turn', (Table.mem_save_of_mem hturn hkey).mpr (.inl rfl), by rw [hkey, ← hyt, hyx]⟩
  · exact ⟨y, (Table.mem_save_of_mem hturn hkey).mpr (.inr ⟨hy, hyt⟩), hyx⟩

theorem Anchored.createPlan (h : Anchored db) {turn : ConversationTurn}
    (hturn : turn ∈ db.conversationTurns) (hid : turn.turnId = p.turnId)
    (hcreate : db.createPlan p = .ok db') : Anchored db' := by
  unfold Db.createPlan at hcreate
  split at hcreate
  · cases hcreate
  · simp only [bind_eq_ok, orRaise_eq_ok, pure_eq_ok] at hcreate
    obtain ⟨plans, hplans, rfl⟩ := hcreate
    intro x hx
    rcases (Table.mem_insert hplans).mp hx with hx | rfl
    · exact h x hx
    · exact ⟨turn, hturn, hid⟩

theorem Anchored.inboxOnly (h : Anchored db) (hin : InboxOnly db db') : Anchored db' :=
  h.of_eq hin.plans hin.conversationTurns

theorem Anchored.addOutbox (h : Anchored db) {ev : OutboxEvent} (hadd : db.addOutbox ev = .ok db') :
    Anchored db' := by
  obtain ⟨outbox, -, rfl⟩ := Db.addOutbox_eq_ok.mp hadd
  exact h.of_eq rfl rfl

end Writes

/-! ## The transactions -/

section Transactions

variable {registry : CapabilityRegistry} {db db' : Db}

theorem Anchored.recovers (h : Anchored db) {now : Time} {p : Plan} {T : TaskId}
    {o : Option RecoveryClaim} (hrec : Recovers registry now p T db o db') : Anchored db' := by
  cases hrec with
  | locked | required | held => exact h
  | expired => exact h.of_eq rfl rfl

theorem Anchored.claimStep (h : Anchored db) {ids : ClaimIds} {clock : Clock}
    {call : ExecuteNextInput} {r : ClaimNextTaskResult}
    (hstep : ClaimStep registry ids clock call db r db') : Anchored db' := by
  cases hstep with
  | skipped p _ _ _ hdb | locked p T s _ _ _ _ _ _ hdb | busy p T _ _ _ _ _ hdb =>
    exact h.inboxOnly (recordAndCommitIfEvent_inboxOnly hdb)
  | mismatched p T rc written _ _ _ _ hrec _ hdb =>
    rcases recordAndCommitIfEvent_cases hdb with rfl | hin
    · exact h
    · exact (h.recovers hrec).inboxOnly hin
  | required p T s _ _ _ _ hrec => exact h.recovers hrec
  | idle p _ _ _ _ _ _ hdb =>
    have hresumed : Anchored (resumeRetrying p.planId db) := h.of_eq rfl rfl
    rcases hdb with ⟨-, rfl⟩ | hdb
    · exact h
    · exact hresumed.inboxOnly (recordInbox_inboxOnly hdb)
  | claimed p t d c db₁ db₂ _ hp _ _ _ _ _ h₁ h₂ h₃ =>
    have hstarted : Anchored (((resumeRetrying p.planId db).saveTask (startTask d clock t)).savePlan
        (startPlan clock t p)) :=
      h.savePlan (Table.mem_of_get? hp) rfl rfl rfl rfl
    obtain ⟨-, execs, -, rfl⟩ := Db.addExecution_eq_ok.mp h₁
    refine Anchored.inboxOnly (Anchored.addOutbox ?_ h₂) (recordInbox_inboxOnly h₃)
    exact hstarted.of_eq rfl rfl

theorem Anchored.prepareRevision (h : Anchored db) {newPlanId : PlanId} {now : Time} {seen : Bool}
    {event : Planning.ReplanRequested}
    (hx : Planning.prepareRevision newPlanId now seen event db = .ok db') : Anchored db' := by
  cases seen with
  | true =>
    obtain rfl := Except.ok.inj hx
    exact h
  | false =>
    simp only [Planning.prepareRevision, Bool.false_eq_true, if_false, bind_eq_ok, orRaise_eq_ok,
      ensure_eq_ok] at hx
    obtain ⟨previous, hprevious, turn, hturn, -, -, hx⟩ := hx
    have hmem := Table.mem_of_get? hprevious
    obtain ⟨hturnMem, hturnId⟩ := Table.get?_eq_some.mp hturn
    split at hx
    · refine Anchored.inboxOnly ?_ (db_recordInboxOnce_inboxOnly hx)
      refine Anchored.saveTurn ?_ hturnMem rfl
      exact h.savePlan hmem rfl rfl rfl rfl
    · split at hx
      · exact h.inboxOnly (db_recordInboxOnce_inboxOnly hx)
      · rw [bind_eq_ok] at hx
        obtain ⟨mid, hcreate, hx⟩ := hx
        have hsaved : Anchored ((db.setUnfinishedStatus previous.planId .superseded).savePlan
            (Planning.supersedePlan now previous)) := h.savePlan hmem rfl rfl rfl rfl
        exact (hsaved.createPlan hturnMem hturnId hcreate).inboxOnly
          (db_recordInboxOnce_inboxOnly hx)

theorem Anchored.transaction {config : RuntimeConfig} {a : RuntimeAction} {s : Option Snapshot}
    (h : Anchored db) (htx : a.transaction config db = .ok (s, db')) : Anchored db' := by
  cases a with
  | createPlan newPlanId newWorkflowId command =>
    obtain ⟨_, hx, he⟩ := map_eq_ok.mp htx
    obtain ⟨-, rfl⟩ := Prod.mk.inj he
    simp only [Planning.createPlan, bind_eq_ok, orRaise_eq_ok] at hx
    obtain ⟨turn, hturn, -, -, hx⟩ := hx
    obtain ⟨hmem, hid⟩ := Table.get?_eq_some.mp hturn
    exact h.createPlan hmem hid hx
  | createTask code newTaskId command =>
    obtain ⟨_, hx, he⟩ := map_eq_ok.mp htx
    obtain ⟨-, rfl⟩ := Prod.mk.inj he
    simp only [Planning.createDocumentTask, bind_eq_ok, Planning.asSequenceConflict_eq_ok,
      Db.createTask] at hx
    obtain ⟨p, -, -, -, -, -, -, -, -, -, -, -, -, -, hx⟩ := hx
    split at hx
    · cases hx
    · simp only [bind_eq_ok, pure_eq_ok] at hx
      obtain ⟨tasks, -, rfl⟩ := hx
      exact h.of_eq rfl rfl
  | finalizePlan newDependencyId newEventId clock command =>
    obtain ⟨_, hx, he⟩ := map_eq_ok.mp htx
    obtain ⟨-, rfl⟩ := Prod.mk.inj he
    simp only [Planning.finalizePlan, bind_eq_ok, orRaise_eq_ok] at hx
    obtain ⟨p, hp, -, -, -, -, -, -, -, -, -, -, pairs, -, turn, hturn, -, -, mid, hdeps, hadd⟩ := hx
    obtain ⟨table, rfl, -⟩ := Db.addDependencies_eq_ok hdeps
    refine Anchored.addOutbox ?_ hadd
    refine Anchored.saveTurn ?_ (Table.mem_of_get? hturn) rfl
    exact h.savePlan (Table.mem_of_get? hp) rfl rfl rfl rfl
  | prepareRevision newPlanId clock seen eventId =>
    simp only [RuntimeAction.transaction] at htx
    split at htx
    · obtain ⟨_, hx, he⟩ := map_eq_ok.mp htx
      obtain ⟨-, rfl⟩ := Prod.mk.inj he
      exact h.prepareRevision hx
    · obtain ⟨-, rfl⟩ := Prod.mk.inj (Except.ok.inj htx)
      exact h
  | claim ids clock seen call =>
    simp only [RuntimeAction.transaction, bind_eq_ok, Prod.exists, pure_eq_ok, Prod.mk.injEq] at htx
    obtain ⟨r, _, hx, -, rfl⟩ := htx
    rcases claimNext_cases hx with ⟨-, -, rfl⟩ | ⟨-, hstep⟩
    · exact h
    · exact h.claimStep hstep
  | complete newEventId clock snapshot outputJson resourceRefs =>
    obtain ⟨_, hx, he⟩ := map_eq_ok.mp htx
    obtain ⟨-, rfl⟩ := Prod.mk.inj he
    obtain ⟨p, t, e, base, hlock, hbase, hcases⟩ := complete_cases hx
    have hp := Table.mem_of_get? (lockExecution_eq_ok.mp hlock).1
    have hsaved : Anchored base := by
      rw [hbase]
      exact h.savePlan hp rfl rfl rfl rfl
    rcases hcases with ⟨-, hadd⟩ | ⟨-, hadd⟩ | ⟨-, rfl⟩
    · exact hsaved.addOutbox hadd
    · have hreleased : releasePlan p ∈ base.plans := by
        have hkey : (releasePlan p).planId = p.planId := rfl
        rw [hbase]
        exact (Table.mem_save_of_mem hp hkey).mpr (.inl rfl)
      refine Anchored.addOutbox ?_ hadd
      exact hsaved.savePlan hreleased rfl rfl rfl rfl
    · exact hsaved
  | fail newEventId clock snapshot error =>
    obtain ⟨_, hx, he⟩ := map_eq_ok.mp htx
    obtain ⟨-, rfl⟩ := Prod.mk.inj he
    obtain ⟨p, t, e, hlock, hcases⟩ := fail_cases hx
    have hp := Table.mem_of_get? (lockExecution_eq_ok.mp hlock).1
    rcases hcases with ⟨-, -, hadd⟩ | ⟨-, c, hadd⟩
    · refine Anchored.addOutbox ?_ hadd
      exact h.savePlan hp rfl rfl rfl rfl
    · refine Anchored.addOutbox ?_ hadd
      exact h.savePlan hp rfl rfl rfl rfl
  | requireCompensation snapshot error =>
    obtain ⟨_, hx, he⟩ := map_eq_ok.mp htx
    obtain ⟨-, rfl⟩ := Prod.mk.inj he
    obtain ⟨p, t, e, -, rfl⟩ := requireCompensation_cases hx
    exact h.of_eq rfl rfl
  | beginCompensation clock snapshot =>
    simp only [RuntimeAction.transaction, bind_eq_ok, Prod.exists, pure_eq_ok, Prod.mk.injEq] at htx
    obtain ⟨n, _, hx, -, rfl⟩ := htx
    obtain ⟨p, t, e, -, -, rfl⟩ := beginCompensationAttempt_cases hx
    exact h.of_eq rfl rfl
  | handleCompensationFailure newEventId clock snapshot eventId error attempt =>
    simp only [RuntimeAction.transaction, bind_eq_ok, Prod.exists, pure_eq_ok, Prod.mk.injEq] at htx
    obtain ⟨o, _, hx, -, rfl⟩ := htx
    obtain ⟨p, t, e, -, -, hcases⟩ := handleCompensationFailure_cases hx
    rcases hcases with ⟨-, -, hin⟩ | ⟨-, -, mid, hadd, hin⟩
    · refine Anchored.inboxOnly ?_ (recordInboxOnce_inboxOnly hin)
      exact h.of_eq rfl rfl
    · refine Anchored.inboxOnly (Anchored.addOutbox ?_ hadd) (recordInboxOnce_inboxOnly hin)
      exact h.of_eq rfl rfl
  | completeCompensation newEventId clock snapshot eventId =>
    simp only [RuntimeAction.transaction, bind_eq_ok, Prod.exists, pure_eq_ok, Prod.mk.injEq] at htx
    obtain ⟨o, _, hx, -, rfl⟩ := htx
    obtain ⟨p, t, e, mid, hlock, hin, hcases⟩ := completeCompensation_cases hx
    have hp := Table.mem_of_get? (lockCompensationToken_eq_ok.mp hlock).1
    refine Anchored.inboxOnly ?_ (recordInbox_inboxOnly hin)
    rcases hcases with ⟨-, -, -, hadd⟩ | ⟨-, -, hadd⟩
    · refine Anchored.addOutbox ?_ hadd
      exact h.savePlan hp rfl rfl rfl rfl
    · refine Anchored.addOutbox ?_ hadd
      exact h.savePlan hp rfl rfl rfl rfl

end Transactions

/-! ## Every run -/

section Runs

variable {registry : CapabilityRegistry} {claiming : Option (ClaimIds × Clock)} {db db' : Db}

/-- An execution is created with the agent run that its claim has drawn, and keeps it. -/
theorem Effect.agentRuns (heff : Effect registry claiming db db')
    (h : ∀ e ∈ db.taskExecutions, ∃ a, e.agentRunId = some a) :
    ∀ e ∈ db'.taskExecutions, ∃ a, e.agentRunId = some a := by
  have saved : ∀ {x x' : TaskExecution}, x ∈ db.taskExecutions → SameAttempt x x' →
      db'.taskExecutions = db.taskExecutions.save x' →
      ∀ e ∈ db'.taskExecutions, ∃ a, e.agentRunId = some a := by
    intro x x' hx hsame hsave e he
    rw [hsave] at he
    rcases (Table.mem_save_of_mem hx hsame.executionId).mp he with rfl | ⟨he, -⟩
    · rw [hsame.agentRunId]
      exact h x hx
    · exact h e he
  have kept : db'.taskExecutions = db.taskExecutions →
      ∀ e ∈ db'.taskExecutions, ∃ a, e.agentRunId = some a := by
    intro heq e he
    rw [heq] at he
    exact h e he
  cases heff with
  | quiet _ _ _ heq | resumed _ _ _ _ _ heq | planCreated _ _ _ _ _ _ heq
  | taskCreated _ _ _ _ _ _ _ _ _ _ heq | published _ _ _ _ _ _ _ _ _ _ _ heq
  | closed _ _ _ _ _ _ _ _ _ _ _ _ _ _ _ _ _ heq => exact kept heq
  | advanced x x' _ hx hsame _ _ _ _ hsave => exact saved hx hsame hsave
  | settled _ _ _ _ x x' _ _ _ hx _ _ _ _ _ _ hsame _ _ _ hsave => exact saved hx hsame hsave
  | started p t d ids clock _ _ _ _ _ _ _ _ _ _ _ _ hins =>
    intro e he
    rcases (Table.mem_insert hins).mp he with he | rfl
    · exact h e he
    · exact ⟨ids.agentRunId, rfl⟩

/-- **The references are whole** in every state that is reached. -/
theorem reachable_grounded {config : RuntimeConfig} {ok : RuntimeState → RuntimeAction → Prop}
    {st : RuntimeState} (h : (runtime config).ReachableVia ok st) : Grounded st.db := by
  refine h.invariant (P := fun st => Grounded st.db) (fun s hfresh => ?_)
    fun s a s' hr hground _ hstep => ⟨?_, ?_⟩
  · obtain ⟨hp, -, -, he, -⟩ := hfresh
    exact ⟨by simp [Anchored, Table.mem_iff, hp], by simp [Table.mem_iff, he]⟩
  · rcases runtime_step_cases hstep with ⟨x, db', htx, rfl, -⟩ | ⟨f, -, hdb, -⟩
    · exact hground.turns.transaction htx
    · rw [hdb]
      exact hground.turns
  · exact (runtime_step_effects (reachable_owned hr) hstep).preserves
      (P := fun db => ∀ e ∈ db.taskExecutions, ∃ a, e.agentRunId = some a)
      (fun _ _ hruns heff => heff.agentRuns hruns) hground.agentRuns

end Runs

end DocFlow.TaskRuntime
