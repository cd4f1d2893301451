import DocFlow.TaskRuntime.DagExecution
import DocFlow.TaskRuntime.Grounding
import DocFlow.TaskRuntime.RetryBackoff
import DocFlow.TaskRuntime.Vigilance
import Mathlib.Data.Fintype.EquivFin

/-!
# A plan can be carried through

Whatever has happened to a plan that is being executed, workers that crashed, leases that ran out,
compensations that failed: as long as its current execution is not locked, one worker alone can bring it to
its end (`plan_settles`), if it does not crash and its executors and compensators succeed from now on.

A turn of the worker begins with a wake-up of the outbox that drives the plan.  If the plan has a current
task, the turn compensates the execution of it (`compensation_turn`), and afterwards the plan has none;
if it has none, the turn executes one (`execution_turn`), and afterwards one task more has succeeded.
-/

namespace DocFlow.TaskRuntime

/-! ## Steps on which nothing fails -/

def CallAction.Smooth : CallAction → Prop
  | .crash => False
  | .endExecutor outcome => ∃ outputJson resourceRefs, outcome = .succeeded outputJson resourceRefs
  | .endCompensator error => error = none
  | _ => True

/-- A delivery, or a step of one of the calls from `n` on. -/
def WorkerAction.Smooth (n : Nat) : WorkerAction → Prop
  | .plan _ => False
  | .deliver _ => True
  | .call index action => n ≤ index ∧ action.Smooth

/-- Wake-ups are delivered as the outbox holds them, and the clock does not go back. -/
def Timely (config : RuntimeConfig) (st : WorkerState) (act : WorkerAction) : Prop :=
  Delivers config st act ∧ ∀ a, st.transaction config act = some a → ClockAdvances st.runtime a

/-- One thing after the other, and nothing fails. -/
def Goes (config : RuntimeConfig) (n : Nat) : WorkerState → WorkerState → Prop :=
  Relation.ReflTransGen fun st st' => ∃ act : WorkerAction, Timely config st act ∧ act.Smooth n ∧
    (workers config).step st act = some st'

/-- Where a call stands. -/
def Stands (st : WorkerState) (n : Nat) (input : ExecuteNextInput) (phase : Phase) : Prop :=
  ∃ call, st.calls[n]? = some call ∧ call.alive = true ∧ call.input = input ∧ call.phase = phase

/-- The call gets there, and leaves the runtime so. -/
def Gets (config : RuntimeConfig) (n : Nat) (input : ExecuteNextInput) (st : WorkerState)
    (phase : Phase) (r : RuntimeState) : Prop :=
  ∃ st', Goes config n st st' ∧ Stands st' n input phase ∧ st'.runtime = r

section Machine

variable {config : RuntimeConfig} {n : Nat} {st st' : WorkerState} {input : ExecuteNextInput}
  {phase phase' : Phase} {r r' : RuntimeState} {action : CallAction}

theorem Gets.trans (h : Gets config n input st phase r)
    (h' : ∀ st', Stands st' n input phase → st'.runtime = r →
      Gets config n input st' phase' r') : Gets config n input st phase' r' := by
  obtain ⟨st₁, hgoes, hstands, hr⟩ := h
  obtain ⟨st₂, hgoes', hstands', hr'⟩ := h' st₁ hstands hr
  exact ⟨st₂, hgoes.trans hgoes', hstands', hr'⟩

theorem stands_setCall {call : Call} (hn : n < st.calls.length) (halive : call.alive = true) :
    Stands (st.setCall n call r) n call.input call.phase :=
  ⟨call, by simp [WorkerState.setCall, hn], halive, rfl, rfl⟩

/-- A step that is no claim is timely as far as the outbox goes. -/
theorem delivers_call {index : Nat}
    (h : ∀ ids clock seen input, st.transaction config (.call index action) = some (.claim ids clock seen input) →
      ∀ ev ∈ st.runtime.db.outbox.rows, input.eventId = some ev.eventId →
        ev.availableAt ≤ clock.read 0) : Delivers config st (.call index action) := by
  unfold Delivers
  split
  · next heq => cases heq
  · split
    · next heq => exact h _ _ _ _ heq
    · trivial

/-- A step without a transaction. -/
theorem Stands.moved (h : Stands st n input phase) (hsmooth : action.Smooth)
    (hstep : ∀ call : Call, call.input = input → call.phase = phase →
      ∃ call', call.step config st.runtime.db action = some (none, call') ∧
        call'.alive = call.alive ∧ call'.input = call.input ∧ call'.phase = phase') :
    Gets config n input st phase' st.runtime := by
  obtain ⟨call, hcall, halive, hinput, hphase⟩ := h
  obtain ⟨call', hcallStep, halive', hinput', hphase'⟩ := hstep call hinput hphase
  have hn := (List.getElem?_eq_some_iff.mp hcall).1
  have hnone : st.transaction config (.call n action) = none := by
    simp [WorkerState.transaction, hcall, hcallStep]
  refine ⟨st.setCall n call' st.runtime, .single ⟨.call n action, ⟨?_, ?_⟩, ⟨le_rfl, hsmooth⟩, ?_⟩,
    ?_, rfl⟩
  · refine delivers_call fun ids clock seen input htx => ?_
    rw [hnone] at htx
    cases htx
  · intro a htx
    rw [hnone] at htx
    cases htx
  · simp [workers, hcall, halive, hcallStep]
  · have hstands := stands_setCall (r := st.runtime) hn (halive'.trans halive)
    rw [hinput', hinput, hphase'] at hstands
    exact hstands

/-- A step whose transaction commits. -/
theorem Stands.committed (h : Stands st n input phase) (hsmooth : action.Smooth) {a : RuntimeAction}
    {s : Option Snapshot} {db' : Db}
    (hstep : ∀ call : Call, call.input = input → call.phase = phase →
      ∃ call', call.step config st.runtime.db action = some (some a, call') ∧
        call'.alive = call.alive ∧ call'.input = call.input ∧ call'.phase = phase')
    (hen : a.Enabled st.runtime) (hclock : ClockAdvances st.runtime a)
    (havailable : ∀ ids clock seen input, a = .claim ids clock seen input →
      ∀ ev ∈ st.runtime.db.outbox.rows, input.eventId = some ev.eventId →
        ev.availableAt ≤ clock.read 0)
    (htx : a.transaction config st.runtime.db = .ok (s, db')) :
    Gets config n input st phase' (st.runtime.after a (.ok (s, db'))) := by
  obtain ⟨call, hcall, halive, hinput, hphase⟩ := h
  obtain ⟨call', hcallStep, halive', hinput', hphase'⟩ := hstep call hinput hphase
  have hn := (List.getElem?_eq_some_iff.mp hcall).1
  have hsome : st.transaction config (.call n action) = some a := by
    simp [WorkerState.transaction, hcall, hcallStep]
  refine ⟨st.setCall n call' (st.runtime.after a (.ok (s, db'))),
    .single ⟨.call n action, ⟨?_, ?_⟩, ⟨le_rfl, hsmooth⟩, ?_⟩, ?_, rfl⟩
  · refine delivers_call fun ids clock seen input htx => ?_
    rw [hsome] at htx
    exact havailable ids clock seen input (Option.some.inj htx)
  · intro b hb
    rw [hsome] at hb
    exact Option.some.inj hb ▸ hclock
  · have hruntime : (runtime config).step st.runtime a =
        some (st.runtime.after a (.ok (s, db'))) := by
      rw [← htx]
      exact if_pos hen
    simp [workers, hcall, halive, hcallStep, hruntime]
  · have hstands := stands_setCall (r := st.runtime.after a (.ok (s, db'))) hn
      (halive'.trans halive)
    rw [hinput', hinput, hphase'] at hstands
    exact hstands

theorem Gets.moved (h : Gets config n input st phase r) (action : CallAction)
    (hsmooth : action.Smooth) (hstep : ∀ call : Call, call.input = input → call.phase = phase →
      ∃ call', call.step config r.db action = some (none, call') ∧
        call'.alive = call.alive ∧ call'.input = call.input ∧ call'.phase = phase') :
    Gets config n input st phase' r := by
  refine h.trans fun st₁ hstands hr => ?_
  subst hr
  exact hstands.moved hsmooth hstep

/-- The claim, once the event is available. -/
theorem Gets.claimed {ev : OutboxEvent} {ids : ClaimIds} {now : Time} {result : ClaimNextTaskResult}
    {db' : Db} (h : Gets config n input st (.checked false) r) (hev : ev ∈ r.db.outbox)
    (hevent : input.eventId = some ev.eventId) (havailable : ev.availableAt ≤ now)
    (hclock : r.clock ≤ now) (hids : ∀ e ∈ r.db.taskExecutions, e.operationId ≠ ids.operationId)
    (hclaim : claimNext config.registry ids (.at now) false input r.db = .ok (result, db'))
    (hcall : ∀ call : Call, call.input = input →
      (call.afterClaim (.ok (result, db'))).alive = call.alive ∧
        (call.afterClaim (.ok (result, db'))).input = call.input ∧
        (call.afterClaim (.ok (result, db'))).phase = phase') :
    Gets config n input st phase' ⟨db', result.snapshot?.toList ++ r.handedOut, now⟩ := by
  refine h.trans fun st₁ hstands hr => ?_
  subst hr
  have htx : (RuntimeAction.claim ids (.at now) false input).transaction config st₁.runtime.db =
      .ok (result.snapshot?, db') := by
    simp only [RuntimeAction.transaction, hclaim]
    rfl
  have hen : (RuntimeAction.claim ids (.at now) false input).Enabled st₁.runtime := by
    refine ⟨?_, ?_⟩
    · intro s hs
      cases hs
    · rintro _ _ _ _ ⟨⟩
      exact hids
  have hadvances : ClockAdvances st₁.runtime (.claim ids (.at now) false input) := by
    rintro _ ⟨⟩
    exact hclock
  refine Stands.committed hstands (show (CallAction.claim ids (.at now)).Smooth from trivial) ?_ hen
    hadvances ?_ htx
  · intro call hinput hphase
    refine ⟨call.afterClaim (.ok (result, db')), ?_, hcall call hinput⟩
    simp only [Call.step, hphase, hinput, hclaim]
  · rintro _ _ _ _ ⟨⟩ x hx hxevent
    obtain rfl : x = ev := Table.eq_of_key hx hev (Option.some.inj (hxevent.symm.trans hevent))
    exact havailable

/-- Another transaction, while the clock stands still. -/
theorem Gets.transacted {db' : Db} {x : Snapshot}
    (h : Gets config n input st phase r) (action : CallAction) (hsmooth : action.Smooth)
    {a : RuntimeAction} (hclock : a.clock? = some (.at r.clock)) (hsnapshot : a.snapshot? = some x)
    (hx : x ∈ r.handedOut) (htx : a.transaction config r.db = .ok (none, db'))
    (hstep : ∀ call : Call, call.input = input → call.phase = phase →
      ∃ call', call.step config r.db action = some (some a, call') ∧
        call'.alive = call.alive ∧ call'.input = call.input ∧ call'.phase = phase') :
    Gets config n input st phase' ⟨db', r.handedOut, r.clock⟩ := by
  refine h.trans fun st₁ hstands hr => ?_
  subst hr
  have hclaims : ∀ ids clock seen call, a ≠ .claim ids clock seen call := by
    rintro ids clock seen call rfl
    cases hsnapshot
  have hen : a.Enabled st₁.runtime := by
    refine ⟨?_, fun ids clock seen call ha => absurd ha (hclaims ids clock seen call)⟩
    intro y hy
    rw [hsnapshot] at hy
    exact Option.some.inj hy ▸ hx
  have hadvances : ClockAdvances st₁.runtime a := by
    intro clock hc
    rw [hclock] at hc
    obtain rfl := Option.some.inj hc
    exact le_rfl
  have hafter : st₁.runtime.after a (.ok (none, db')) =
      ⟨db', st₁.runtime.handedOut, st₁.runtime.clock⟩ := by
    unfold RuntimeState.after
    rw [hclock]
    rfl
  rw [← hafter]
  exact hstands.committed hsmooth hstep hen hadvances
    (fun ids clock seen call ha => absurd ha (hclaims ids clock seen call)) htx

/-- No call is forgotten. -/
theorem Goes.length (h : Goes config n st st') : st.calls.length ≤ st'.calls.length := by
  induction h with
  | refl => exact le_rfl
  | tail _ hstep ih =>
    obtain ⟨act, -, -, hact⟩ := hstep
    refine ih.trans ?_
    cases workers_step_cases hact with
    | planned => exact le_rfl
    | delivered => simp
    | moved | committed => simp [WorkerState.setCall]

theorem Goes.mono {m : Nat} (hle : m ≤ n) (h : Goes config n st st') : Goes config m st st' := by
  refine Relation.ReflTransGen.mono (fun s s' hstep => ?_) st st' h
  obtain ⟨act, htimely, hsmooth, hact⟩ := hstep
  refine ⟨act, htimely, ?_, hact⟩
  cases act with
  | plan a => exact hsmooth
  | deliver input => trivial
  | call index action => exact ⟨hle.trans hsmooth.1, hsmooth.2⟩

theorem Goes.reachable (hs : (workers config).ReachableVia (Delivers config) st)
    (h : Goes config n st st') : (workers config).ReachableVia (Delivers config) st' := by
  induction h with
  | refl => exact hs
  | tail _ hstep ih =>
    obtain ⟨act, htimely, -, hact⟩ := hstep
    exact .step ih htimely.1 hact

/-- These are runs of the workers. -/
theorem Goes.run (h : Goes config n st st') : ∃ acts,
    (workers config).RunVia (Timely config) st acts st' ∧ ∀ act ∈ acts, act.Smooth n := by
  induction h using Relation.ReflTransGen.head_induction_on with
  | refl => exact ⟨[], .nil _, List.forall_mem_nil _⟩
  | head hstep _ ih =>
    obtain ⟨act, htimely, hsmooth, hact⟩ := hstep
    obtain ⟨acts, hrun, hall⟩ := ih
    exact ⟨act :: acts, .cons htimely hact hrun, List.forall_mem_cons.mpr ⟨hsmooth, hall⟩⟩

end Machine

/-! ## Transactions that do not raise -/

/-- There is always a number that is not yet taken. -/
theorem exists_new {α : Type} (f : α → Nat) (l : List α) : ∃ k, ∀ x ∈ l, f x ≠ k := by
  obtain ⟨k, hk⟩ := Infinite.exists_notMem_finset (l.map f).toFinset
  exact ⟨k, fun x hx he => hk (List.mem_toFinset.mpr (List.mem_map.mpr ⟨x, hx, he⟩))⟩

section Transactions

variable {registry : CapabilityRegistry} {db : Db} {p : Plan} {t : Task} {e : TaskExecution}
  {s : Snapshot} {newEventId : EventId} {eventId : Option EventId}

theorem exists_addOutbox (ev : OutboxEvent) (h : ∀ x ∈ db.outbox, x.eventId ≠ ev.eventId) :
    ∃ outbox, ev ∈ outbox ∧
      ∀ mid : Db, mid.outbox = db.outbox → mid.addOutbox ev = .ok (mid.setOutbox outbox) := by
  obtain ⟨outbox, houtbox⟩ := Table.exists_insert h
  refine ⟨outbox, (Table.mem_insert houtbox).mpr (.inr rfl), fun mid hmid => ?_⟩
  exact Db.addOutbox_eq_ok.mpr ⟨outbox, by rw [hmid]; exact houtbox, rfl⟩

theorem exists_recordInbox (h : ∀ i ∈ eventId, ¬ Recorded db i) (mid : Db)
    (hmid : mid.inbox = db.inbox) : ∃ db', recordInbox eventId mid = .ok db' := by
  cases eventId with
  | none => exact ⟨mid, rfl⟩
  | some i =>
    have hnew : ∀ x ∈ mid.inbox, x.uniqueKey ≠ (⟨consumerName, i⟩ : InboxEvent).uniqueKey := by
      intro x hx hkey
      obtain ⟨hname, hid⟩ := Prod.mk.inj hkey
      have hrow : x = ⟨consumerName, i⟩ := by
        cases x
        cases hname
        cases hid
        rfl
      refine h i rfl ?_
      rw [Recorded, ← hrow, ← hmid]
      exact hx
    obtain ⟨inbox, hinbox⟩ := Table.exists_insert hnew
    exact ⟨mid.setInbox inbox, Db.addInbox_eq_ok.mpr ⟨inbox, hinbox, rfl⟩⟩

/-- The success of a current attempt is written down. -/
theorem exists_complete (clock : Clock) (hlock : lockExecution s db = .ok (p, t, e))
    (hnew : ∀ ev ∈ db.outbox, ev.eventId ≠ newEventId) :
    ∃ db', complete newEventId clock s [] [] db = .ok db' ∧
      db'.tasks = db.tasks.save (succeedTask (clock.read 0) [] t) ∧
      ∃ p' ∈ db'.plans, p'.planId = p.planId ∧ p'.currentTaskId = none ∧
        (p'.status = p.status ∨ p'.status = .completed) := by
  have hp := Table.mem_of_get? (lockExecution_eq_ok.mp hlock).1
  have hreleased : releasePlan p ∈ db.plans.save (releasePlan p) := by
    have hkey : (releasePlan p).planId = p.planId := rfl
    exact (Table.mem_save_of_mem hp hkey).mpr (.inl rfl)
  have hcompleted : completePlan (clock.read 0) p ∈
      (db.plans.save (releasePlan p)).save (completePlan (clock.read 0) p) := by
    have hkey : (completePlan (clock.read 0) p).planId = (releasePlan p).planId := rfl
    exact (Table.mem_save_of_mem hreleased hkey).mpr (.inl rfl)
  obtain ⟨woken, -, hwoken⟩ :=
    exists_addOutbox (event newEventId p .planWakeup none (clock.read 1)) hnew
  obtain ⟨requested, -, hrequested⟩ :=
    exists_addOutbox (event newEventId p .aggregationRequested none (clock.read 1)) hnew
  unfold complete
  rw [hlock]
  simp only [bind, Except.bind]
  split
  · exact ⟨_, hwoken _ rfl, rfl, releasePlan p, hreleased, rfl, rfl, .inl rfl⟩
  · split
    · exact ⟨_, hrequested _ rfl, rfl, completePlan (clock.read 0) p, hcompleted, rfl, rfl, .inr rfl⟩
    · exact ⟨_, rfl, rfl, releasePlan p, hreleased, rfl, rfl, .inl rfl⟩

/-- One more attempt to compensate is counted. -/
theorem exists_begin (clock : Clock)
    (hlock : lockCompensationToken s db = .ok (p, t, e)) :
    ∃ k db', beginCompensationAttempt clock s db = .ok (k, db') ∧ db'.outbox = db.outbox ∧
      db'.inbox = db.inbox ∧ db'.plans = db.plans ∧ db'.tasks = db.tasks ∧
      lockCompensationToken s db' = .ok (p, t, countAttempt (clock.read 0) e) := by
  obtain ⟨hp, ht, he, hcur⟩ := lockCompensationToken_eq_ok.mp hlock
  obtain ⟨hmem, hid⟩ := Table.get?_eq_some.mp he
  refine ⟨e.compensationAttemptCount + 1, db.saveExecution (countAttempt (clock.read 0) e), ?_,
    rfl, rfl, rfl, rfl, ?_⟩
  · unfold beginCompensationAttempt
    rw [hlock]
    rfl
  · have hkey : (countAttempt (clock.read 0) e).executionId = e.executionId := rfl
    have hget := Table.get?_save_self hmem hkey
    rw [hkey, hid] at hget
    exact lockCompensationToken_eq_ok.mpr ⟨hp, ht, hget, hcur⟩

/-- A current attempt whose side effects are gone is retried, or the plan asks for its next revision. -/
theorem exists_completeCompensation (settings : RuntimeSettings) (clock : Clock)
    (hlock : lockCompensationToken s db = .ok (p, t, e))
    (hnew : ∀ ev ∈ db.outbox, ev.eventId ≠ newEventId) (hinbox : ∀ i ∈ eventId, ¬ Recorded db i) :
    ∃ o db', completeCompensation settings newEventId clock s eventId db = .ok (o, db') ∧
      ∃ p' ∈ db'.plans, p'.planId = p.planId ∧ p'.currentTaskId = none ∧
        ((e.retryable = some true ∧ (t.attemptCount : Int) < t.maxAttempts ∧ p'.status = p.status) ∨
          (¬ (e.retryable = some true ∧ (t.attemptCount : Int) < t.maxAttempts) ∧
            p'.status = .replanPending ∧ ∃ ev ∈ db'.outbox, ev.eventType = .replanRequested ∧
              ev.aggregateId = p.planId)) := by
  have hrun : ∃ o db', completeCompensation settings newEventId clock s eventId db = .ok (o, db') := by
    have hrecord : ∀ (mid : Db) (f : Failure), mid.inbox = db.inbox →
        recordInbox eventId mid ≠ .error f := by
      intro mid f hmid herror
      obtain ⟨db', hin⟩ := exists_recordInbox hinbox mid hmid
      rw [hin] at herror
      cases herror
    unfold completeCompensation
    rw [hlock]
    simp only [bind, Except.bind]
    split
    · obtain ⟨outbox, -, hadd⟩ := exists_addOutbox (event newEventId p .planWakeup none
        (if e.errorCode = some leaseExpiredCode then clock.read 0
          else clock.read 0 + timedelta settings.retryDelaySeconds)) hnew
      rw [hadd]
      · dsimp only
        split
        · next herror => exact absurd herror (hrecord _ _ rfl)
        · exact ⟨_, _, rfl⟩
      · rfl
    · obtain ⟨outbox, -, hadd⟩ := exists_addOutbox (event newEventId p .replanRequested
        (some (replanPayload s.conversationId p t e.blocked e.errorCode e.errorMessage))
        (clock.read 1)) hnew
      rw [hadd]
      · dsimp only
        split
        · next herror => exact absurd herror (hrecord _ _ rfl)
        · exact ⟨_, _, rfl⟩
      · rfl
  obtain ⟨o, db', hrun⟩ := hrun
  refine ⟨o, db', hrun, ?_⟩
  obtain ⟨p₁, t₁, e₁, mid, hlock₁, hin, hcases⟩ := completeCompensation_cases hrun
  rw [hlock] at hlock₁
  obtain ⟨rfl, hrest⟩ := Prod.mk.inj (Except.ok.inj hlock₁)
  obtain ⟨rfl, rfl⟩ := Prod.mk.inj hrest
  have hp := Table.mem_of_get? (lockCompensationToken_eq_ok.mp hlock).1
  rw [(recordInbox_inboxOnly hin).plans, (recordInbox_inboxOnly hin).outbox]
  rcases hcases with ⟨hretryable, hlt, -, hadd⟩ | ⟨hnot, -, hadd⟩
  · obtain ⟨outbox, -, rfl⟩ := Db.addOutbox_eq_ok.mp hadd
    have hkey : (releasePlan p).planId = p.planId := rfl
    exact ⟨releasePlan p, (Table.mem_save_of_mem hp hkey).mpr (.inl rfl), rfl, rfl,
      .inl ⟨hretryable, hlt, rfl⟩⟩
  · obtain ⟨outbox, houtbox, rfl⟩ := Db.addOutbox_eq_ok.mp hadd
    have hkey : (requestReplan e.errorCode e.errorMessage p).planId = p.planId := rfl
    exact ⟨requestReplan e.errorCode e.errorMessage p,
      (Table.mem_save_of_mem hp hkey).mpr (.inl rfl), rfl, rfl,
      .inr ⟨hnot, rfl, _, (Table.mem_insert houtbox).mpr (.inr rfl), rfl, rfl⟩⟩

theorem exists_conversation (hground : Grounded db) (hp : p ∈ db.plans) {mid : Db}
    (hmid : mid.conversationTurns = db.conversationTurns) :
    ∃ c, turnConversationId mid p.turnId = .ok c := by
  obtain ⟨turn, hturn, hturnId⟩ := hground.turns p hp
  have hget : mid.conversationTurns.get? p.turnId = some turn := by
    rw [hmid]
    exact Table.get?_eq_some.mpr ⟨hturn, hturnId⟩
  refine ⟨turn.conversationId, ?_⟩
  unfold turnConversationId
  rw [hget]
  rfl

/-- A plan that waits is claimed: its next task is started. -/
theorem exists_claimed (hcons : Consistent registry db) (hgraph : TaskGraph db)
    (hground : Grounded db) (hregistry : ∀ code, ∃ d, registry.get? code = some d)
    (hp : p ∈ db.plans) (hlive : Live p) (hcur : p.currentTaskId = none) {input : ExecuteNextInput}
    (hplan : input.planId = p.planId) (hdirected : ¬ input.Directed)
    (hinbox : ∀ i ∈ input.eventId, ¬ Recorded db i) {ids : ClaimIds}
    (hexecution : ∀ e ∈ db.taskExecutions, e.executionId ≠ ids.executionId)
    (hevent : ∀ ev ∈ db.outbox, ev.eventId ≠ ids.eventId) (clock : Clock) :
    ∃ t d task db' e, t ∈ (resumeRetrying p.planId db).tasks ∧ t.planId = p.planId ∧
      t.status = .pending ∧
      claimNext registry ids clock false input db = .ok (.claimed task, db') ∧
      db'.tasks = (resumeRetrying p.planId db).tasks.save (startTask d clock t) ∧
      lockExecution task.toSnapshot db' = .ok (startPlan clock t p, startTask d clock t, e) := by
  obtain ⟨t, hnext⟩ : ∃ t, (resumeRetrying p.planId db).getNextRunnable p.planId .pending .succeeded =
      some t := by
    cases hnext : (resumeRetrying p.planId db).getNextRunnable p.planId .pending .succeeded with
    | some t => exact ⟨t, rfl⟩
    | none =>
      have hidle : ClaimStep registry ids clock ⟨p.planId, none, none, none⟩ db .noTask db :=
        .idle p db (Table.get?_of_mem hp) hcur (not_directed _ _) hlive hnext (.inl ⟨rfl, rfl⟩)
      exact absurd rfl (claim_not_idle hcons hgraph hidle)
  obtain ⟨htm, htp, hst, -⟩ := Db.getNextRunnable_eq_some hnext
  obtain ⟨d, hd⟩ := hregistry t.capabilityCode
  obtain ⟨c, hconversation⟩ := exists_conversation hground hp rfl
  -- the attempts of the task so far have smaller numbers
  have heffect : Effect registry (some (ids, clock)) db (resumeRetrying p.planId db) :=
    resumeRetrying_effect (by simp) p.planId
  have hresumed : Consistent registry (resumeRetrying p.planId db) := heffect.consistent hcons
  have hattempt : ∀ e ∈ db.taskExecutions, ¬ (e.taskId = t.taskId ∧ e.attempt = t.attemptCount + 1) := by
    rintro e he ⟨htask, hk⟩
    obtain ⟨x, hx, hxid, -, -, hle⟩ := hresumed.taskOfExecution e he
    obtain rfl : x = t := Table.eq_of_key hx htm (hxid.trans htask)
    omega
  obtain ⟨execs, hexecs⟩ : ∃ execs, db.taskExecutions.insert
      (newExecution d ids clock p (startTask d clock t)) = some execs :=
    Table.exists_insert hexecution
  obtain ⟨outbox, -, hadd⟩ := exists_addOutbox (leaseWakeup d ids clock p) hevent
  have h₁ : (((resumeRetrying p.planId db).saveTask (startTask d clock t)).savePlan
      (startPlan clock t p)).addExecution (newExecution d ids clock p (startTask d clock t)) = .ok _ :=
    Db.addExecution_eq_ok.mpr ⟨hattempt, execs, hexecs, rfl⟩
  have h₂ := hadd ((((resumeRetrying p.planId db).saveTask (startTask d clock t)).savePlan
    (startPlan clock t p)).setTaskExecutions execs) rfl
  obtain ⟨db', h₃⟩ := exists_recordInbox hinbox (((((resumeRetrying p.planId db).saveTask
    (startTask d clock t)).savePlan (startPlan clock t p)).setTaskExecutions execs).setOutbox outbox)
    rfl
  have hget : db.plans.get? input.planId = some p := Table.get?_eq_some.mpr ⟨hp, hplan.symm⟩
  have hgo : ¬ (input.Directed ∨ ¬ (p.status = .ready ∨ p.status = .running)) := by
    rw [not_or, not_not]
    exact ⟨hdirected, hlive⟩
  have hclaim : claimNext registry ids clock false input db =
      .ok (.claimed (taskSnapshot d ids c p (startTask d clock t)), db') := by
    unfold claimNext
    rw [if_neg Bool.false_ne_true, bind_eq_ok]
    refine ⟨p, orRaise_eq_ok.mpr hget, ?_⟩
    rw [hlive.not_terminal, if_neg Bool.false_ne_true, hcur]
    dsimp only
    rw [if_neg hgo]
    unfold claimRunnable
    dsimp only
    rw [← resumeRetrying, hnext]
    dsimp only
    rw [bind_eq_ok]
    refine ⟨d, CapabilityRegistry.require_eq_ok.mpr hd, ?_⟩
    rw [bind_eq_ok]
    refine ⟨c, hconversation, ?_⟩
    rw [bind_eq_ok]
    refine ⟨_, h₁, ?_⟩
    rw [bind_eq_ok]
    refine ⟨_, h₂, ?_⟩
    rw [bind_eq_ok]
    exact ⟨db', h₃, rfl⟩
  have hin := recordInbox_inboxOnly h₃
  refine ⟨t, d, _, db', newExecution d ids clock p (startTask d clock t), htm, htp, hst, hclaim,
    hin.tasks, lockExecution_eq_ok.mpr ⟨?_, ?_, ?_, rfl, rfl, rfl, rfl, rfl, rfl⟩⟩
  · rw [hin.plans]
    have hkey : (startPlan clock t p).planId = p.planId := rfl
    exact Table.get?_save_self hp hkey
  · rw [hin.tasks]
    have hkey : (startTask d clock t).taskId = t.taskId := rfl
    exact Table.get?_save_self htm hkey
  · rw [hin.taskExecutions]
    exact Table.get?_of_mem ((Table.mem_insert hexecs).mpr (.inr rfl))

/-- The current attempt of the plan can be followed by another one. -/
def MayRetry (db : Db) (p : Plan) : Prop :=
  ∃ t ∈ db.tasks, p.currentTaskId = some t.taskId ∧ (t.attemptCount : Int) < t.maxAttempts ∧
    ∃ e ∈ db.taskExecutions, e.taskId = t.taskId ∧
      (e.status = .running ∨ (e.status = .compensationRequired ∧ e.retryable = some true))

instance (db : Db) (p : Plan) : Decidable (MayRetry db p) :=
  inferInstanceAs (Decidable (∃ t ∈ db.tasks.rows, p.currentTaskId = some t.taskId ∧
    (t.attemptCount : Int) < t.maxAttempts ∧ ∃ e ∈ db.taskExecutions.rows, e.taskId = t.taskId ∧
      (e.status = .running ∨ (e.status = .compensationRequired ∧ e.retryable = some true))))

theorem expireLease_agentRunId (e : TaskExecution) : (expireLease e).agentRunId = e.agentRunId := rfl

theorem exists_recoverySnapshot (hground : Grounded db) (hp : p ∈ db.plans)
    (he : e ∈ db.taskExecutions) {e' : TaskExecution} (hagent : e'.agentRunId = e.agentRunId)
    (t : Task) : ∃ s, recoverySnapshot db p t e' = .ok s := by
  obtain ⟨a, ha⟩ := hground.agentRuns e he
  obtain ⟨c, hc⟩ := exists_conversation hground hp rfl
  unfold recoverySnapshot
  rw [hagent, ha, hc]
  exact ⟨_, rfl⟩

/-- The current execution of a plan is put up for its compensation. -/
theorem exists_recovered (hcons : Consistent registry db) (hground : Grounded db)
    (hregistry : ∀ code, ∃ d, registry.get? code = some d) (hp : p ∈ db.plans)
    (hunlocked : Unlocked db p) {T : TaskId} (hcur : p.currentTaskId = some T) {ev : OutboxEvent}
    {input : ExecuteNextInput} (hdrives : Drives registry db p ev input) {now : Time}
    (hnow : ev.availableAt ≤ now) : ∃ s t e db',
      recoverStaleExecution registry now p T db = .ok (some (.required s), db') ∧
      db'.outbox = db.outbox ∧ db'.inbox = db.inbox ∧
      lockCompensationToken s db' = .ok (p, t, e) ∧
      ((e.retryable = some true ∧ (t.attemptCount : Int) < t.maxAttempts) ↔ MayRetry db p) := by
  obtain ⟨-, t, ht, rfl, -, hrun⟩ := hcons.current p hp T hcur
  obtain ⟨e, he, htask, -, hk, hact⟩ := hcons.live_execution ht hrun
  have hcurrent : p.currentTaskId = some e.taskId := by rw [htask, hcur]
  have hget : db.tasks.get? t.taskId = some t := Table.get?_of_mem ht
  have hlatest : db.getLatestByTask t.taskId = some e := hcons.latest ht he htask hk
  obtain ⟨d, hd⟩ := hregistry t.capabilityCode
  -- the execution is the only active one of the current task
  have hretry : MayRetry db p ↔ (t.attemptCount : Int) < t.maxAttempts ∧
      (e.status = .running ∨ (e.status = .compensationRequired ∧ e.retryable = some true)) := by
    constructor
    · rintro ⟨x, hx, hxcur, hlt, e', he', htask', hst⟩
      obtain rfl : x = t := Table.eq_of_key hx ht (Option.some.inj (hxcur.symm.trans hcur))
      have hact' : isActive e'.status = true := by
        rcases hst with hst | ⟨hst, -⟩ <;> rw [hst] <;> rfl
      obtain rfl := active_unique hcons he' he (htask'.trans htask.symm) hact' hact
      exact ⟨hlt, hst⟩
    · rintro ⟨hlt, hst⟩
      exact ⟨t, ht, hcur, hlt, e, he, htask, hst⟩
  rw [hretry]
  unfold recoverStaleExecution
  rw [hget]
  simp only [orRaise, bind, Except.bind, CapabilityRegistry.require_eq_ok.mpr hd, hlatest]
  cases hst : e.status with
  | running =>
    have hlease : leaseHeld t d now = false :=
      leaseHeld_mono hnow ((hdrives.running e he hcurrent hst).2 t ht htask.symm d hd)
    obtain ⟨s, hs⟩ := exists_recoverySnapshot hground hp he (expireLease_agentRunId e) t
    obtain ⟨hst₁, hst₂, hst₃, hst₄, hst₅, -⟩ := recoverySnapshot_fields hs
    refine ⟨s, t, expireLease e, db.saveExecution (expireLease e), ?_, rfl, rfl, ?_, ?_⟩
    · simp only [hlease, hs]
      rfl
    · have hkey : (expireLease e).executionId = e.executionId := rfl
      refine lockCompensationToken_eq_ok.mpr ⟨?_, ?_, ?_, hcur, hrun, rfl, hst₃.symm, hst₅.symm⟩
      · rw [hst₂]
        exact Table.get?_of_mem hp
      · rw [hst₁]
        exact hget
      · rw [hst₄]
        exact Table.get?_save_self he hkey
    · simp [expireLease]
  | compensationRequired =>
    obtain ⟨s, hs⟩ := exists_recoverySnapshot hground hp he rfl t
    obtain ⟨hst₁, hst₂, hst₃, hst₄, hst₅, -⟩ := recoverySnapshot_fields hs
    refine ⟨s, t, e, db, ?_, rfl, rfl, ?_, ?_⟩
    · simp only [hs]
      rfl
    · refine lockCompensationToken_eq_ok.mpr ⟨?_, ?_, ?_, hcur, hrun, hst, hst₃.symm, hst₅.symm⟩
      · rw [hst₂]
        exact Table.get?_of_mem hp
      · rw [hst₁]
        exact hget
      · rw [hst₄]
        exact Table.get?_of_mem he
    · simp [and_comm]
  | compensationLocked => exact absurd hst (hunlocked e he hcurrent)
  | compensated | succeeded | failed =>
    rw [hst] at hact
    cases hact

/-- A plan with a current execution is claimed for its compensation. -/
theorem exists_required (hcons : Consistent registry db) (hground : Grounded db)
    (hregistry : ∀ code, ∃ d, registry.get? code = some d) (hp : p ∈ db.plans) (hlive : Live p)
    (hunlocked : Unlocked db p) {T : TaskId} (hcur : p.currentTaskId = some T) {ev : OutboxEvent}
    {input : ExecuteNextInput} (hdrives : Drives registry db p ev input) (ids : ClaimIds)
    {clock : Clock} (hclock : ev.availableAt ≤ clock.read 0) : ∃ s t e db',
      claimNext registry ids clock false input db = .ok (.compensationRequired s, db') ∧
      db'.outbox = db.outbox ∧ db'.inbox = db.inbox ∧
      lockCompensationToken s db' = .ok (p, t, e) ∧
      ((e.retryable = some true ∧ (t.attemptCount : Int) < t.maxAttempts) ↔ MayRetry db p) := by
  obtain ⟨s, t, e, db', hrec, hout, hin, hlock, hretry⟩ :=
    exists_recovered hcons hground hregistry hp hunlocked hcur hdrives hclock
  have hmatch : ¬ input.Mismatches s :=
    hdrives.not_mismatches hunlocked hcur (recoverStaleExecution_cases hrec)
  refine ⟨s, t, e, db', ?_, hout, hin, hlock, hretry⟩
  unfold claimNext
  rw [if_neg Bool.false_ne_true, bind_eq_ok]
  refine ⟨p, orRaise_eq_ok.mpr (by rw [hdrives.planId]; exact Table.get?_of_mem hp), ?_⟩
  rw [hlive.not_terminal, if_neg Bool.false_ne_true, hcur]
  dsimp only
  unfold claimRecovery
  rw [bind_eq_ok]
  exact ⟨_, hrec, if_neg hmatch⟩

end Transactions

/-! ## A turn of the worker -/

section Turns

variable {config : RuntimeConfig} {st : WorkerState} {p : Plan}

theorem inboxSeen_eq_false {db : Db} {input : ExecuteNextInput}
    (h : ∀ i ∈ input.eventId, ¬ Recorded db i) : inboxSeen db input = false := by
  rw [Bool.eq_false_iff]
  intro hseen
  cases hevent : input.eventId with
  | none =>
    rw [inboxSeen, hevent] at hseen
    cases hseen
  | some i => exact h i hevent (inboxSeen_recorded hseen i hevent)

theorem exists_ids (db : Db) : ∃ ids : ClaimIds,
    (∀ e ∈ db.taskExecutions, e.executionId ≠ ids.executionId) ∧
    (∀ e ∈ db.taskExecutions, e.operationId ≠ ids.operationId) ∧
    ∀ ev ∈ db.outbox, ev.eventId ≠ ids.eventId := by
  obtain ⟨i, hi⟩ := exists_new TaskExecution.executionId db.taskExecutions.rows
  obtain ⟨j, hj⟩ := exists_new TaskExecution.operationId db.taskExecutions.rows
  obtain ⟨k, hk⟩ := exists_new OutboxEvent.eventId db.outbox.rows
  exact ⟨⟨i, j, 0, k⟩, hi, hj, hk⟩

/-- The turn begins: the wake-up that drives the plan is delivered, and is not in the inbox. -/
theorem exists_checked (h : (workers config).ReachableVia (Delivers config) st)
    (hp : p ∈ st.runtime.db.plans) (hlive : Live p) (hunlocked : Unlocked st.runtime.db p) :
    ∃ ev ∈ st.runtime.db.outbox, ∃ input, Drives config.registry st.runtime.db p ev input ∧
      (∀ i ∈ input.eventId, ¬ Recorded st.runtime.db i) ∧
      Gets config st.calls.length input st (.checked false) st.runtime := by
  obtain ⟨ev, hev, hnew, input, hdrives⟩ :=
    (reachable_vigilant h).wakeful.awake p hp hlive hunlocked
  have hevent : input.eventId = some ev.eventId := (delivery_eq_some.mp hdrives.delivered).2.2.1
  have hinbox : ∀ i ∈ input.eventId, ¬ Recorded st.runtime.db i := by
    intro i hi
    rw [hevent] at hi
    exact Option.some.inj hi ▸ hnew
  have harrived : Gets config st.calls.length input st .arrived st.runtime := by
    refine ⟨{ st with calls := st.calls ++ [.arrive input] }, .single ⟨.deliver input,
      ⟨.inr ⟨ev, hev, hdrives.delivered⟩, ?_⟩, trivial, rfl⟩, ⟨.arrive input, ?_, rfl, rfl, rfl⟩, rfl⟩
    · intro a ha
      cases ha
    · simp
  refine ⟨ev, hev, input, hdrives, hinbox, harrived.moved .check trivial ?_⟩
  intro call hinput hphase
  refine ⟨call.goto (.checked false), ?_, rfl, rfl, rfl⟩
  simp only [Call.step, hphase, hinput, inboxSeen_eq_false hinbox]

/-- **A turn that compensates** leaves the plan without a current task. -/
theorem compensation_turn (hregistry : ∀ code, ∃ d, config.registry.get? code = some d)
    (h : (workers config).ReachableVia (Delivers config) st) (hp : p ∈ st.runtime.db.plans)
    (hlive : Live p) (hunlocked : Unlocked st.runtime.db p) {T : TaskId}
    (hcur : p.currentTaskId = some T) : ∃ st', Goes config st.calls.length st st' ∧
      ∃ p' ∈ st'.runtime.db.plans, p'.planId = p.planId ∧ p'.currentTaskId = none ∧
        ((MayRetry st.runtime.db p ∧ p'.status = p.status) ∨
          (¬ MayRetry st.runtime.db p ∧ p'.status = .replanPending ∧
            ∃ ev ∈ st'.runtime.db.outbox, ev.eventType = .replanRequested ∧
              ev.aggregateId = p.planId)) := by
  have hreach := workers_runtime_reachable h
  have hcons := (reachable_owned hreach).consistent
  obtain ⟨ev, hev, input, hdrives, hinbox, hchecked⟩ := exists_checked h hp hlive hunlocked
  have hevent : input.eventId = some ev.eventId := (delivery_eq_some.mp hdrives.delivered).2.2.1
  obtain ⟨ids, -, hoperation, hnew⟩ := exists_ids st.runtime.db
  -- the worker waits until the wake-up is available
  obtain ⟨now, hclock, hnow⟩ : ∃ now, st.runtime.clock ≤ now ∧ ev.availableAt ≤ now :=
    ⟨max st.runtime.clock ev.availableAt, le_max_left _ _, le_max_right _ _⟩
  have havailable : ev.availableAt ≤ (Clock.at now).read 0 := hnow
  obtain ⟨s, t, e, db₁, hclaim, hout₁, hin₁, hlock₁, hretry⟩ := exists_required hcons
    (reachable_grounded hreach) hregistry hp hlive hunlocked hcur hdrives ids havailable
  obtain ⟨k, db₂, hbegin, hout₂, hin₂, -, -, hlock₂⟩ := exists_begin (.at now) hlock₁
  have hout : db₂.outbox = st.runtime.db.outbox := hout₂.trans hout₁
  have hnew₂ : ∀ x ∈ db₂.outbox, x.eventId ≠ ids.eventId := by
    rw [hout]
    exact hnew
  have hinbox₂ : ∀ i ∈ input.eventId, ¬ Recorded db₂ i := by
    simpa only [Recorded, hin₂, hin₁] using hinbox
  obtain ⟨o, db₃, hcomplete, p', hp', hid, hnone, hcases⟩ :=
    exists_completeCompensation config.settings (.at now) hlock₂ hnew₂ hinbox₂
  have hrecovering : Gets config st.calls.length input st (.recovering s input.eventId)
      ⟨db₁, s :: st.runtime.handedOut, now⟩ :=
    hchecked.claimed hev hevent hnow hclock hoperation hclaim fun call hinput =>
      ⟨rfl, rfl, congrArg (Phase.recovering s) (congrArg ExecuteNextInput.eventId hinput)⟩
  have hbegun : Gets config st.calls.length input st (.begun s input.eventId k)
      ⟨db₂, s :: st.runtime.handedOut, now⟩ := by
    refine hrecovering.transacted (.begin (.at now)) trivial rfl rfl List.mem_cons_self
      (a := .beginCompensation (.at now) s) ?_ ?_
    · simp only [RuntimeAction.transaction, hbegin]
      rfl
    · intro call _ hphase
      refine ⟨call.afterBegin s input.eventId (.ok (k, db₂)), ?_, rfl, rfl, rfl⟩
      simp only [Call.step, hphase, hbegin]
  have hcompensating : Gets config st.calls.length input st (.compensating s input.eventId k)
      ⟨db₂, s :: st.runtime.handedOut, now⟩ := by
    refine hbegun.moved .invokeCompensator trivial fun call _ hphase => ?_
    refine ⟨{ call with phase := .compensating s input.eventId k, invoked := true }, ?_, rfl, rfl, rfl⟩
    simp only [Call.step, hphase]
  have hcompensated : Gets config st.calls.length input st (.compensated s input.eventId k none)
      ⟨db₂, s :: st.runtime.handedOut, now⟩ := by
    refine hcompensating.moved (.endCompensator none) rfl fun call _ hphase => ?_
    refine ⟨call.goto (.compensated s input.eventId k none), ?_, rfl, rfl, rfl⟩
    simp only [Call.step, hphase]
  have hreturned : Gets config st.calls.length input st (.returned o)
      ⟨db₃, s :: st.runtime.handedOut, now⟩ := by
    refine hcompensated.transacted (.conclude ids.eventId (.at now)) trivial rfl rfl
      List.mem_cons_self (a := .completeCompensation ids.eventId (.at now) s input.eventId) ?_ ?_
    · simp only [RuntimeAction.transaction, hcomplete]
      rfl
    · intro call _ hphase
      refine ⟨call.goto (.returned o), ?_, rfl, rfl, rfl⟩
      simp only [Call.step, hphase, hcomplete, Call.afterOutcome]
  obtain ⟨st', hgoes, -, hruntime⟩ := hreturned
  refine ⟨st', hgoes, ?_⟩
  rw [hruntime]
  refine ⟨p', hp', hid, hnone, ?_⟩
  have hcount : (countAttempt ((Clock.at now).read 0) e).retryable = e.retryable := rfl
  rw [hcount, hretry] at hcases
  rcases hcases with ⟨hretryable, hlt, hst⟩ | hcases
  · exact .inl ⟨hretry.mp ⟨hretryable, hlt⟩, hst⟩
  · exact .inr hcases

/-- The tasks of a plan that have not succeeded. -/
def unsucceeded (db : Db) (planId : PlanId) : Finset TaskId :=
  ((db.tasks.rows.filter fun t => t.planId = planId ∧ t.status ≠ .succeeded).map
    Task.taskId).toFinset

theorem mem_unsucceeded {db : Db} {planId : PlanId} {T : TaskId} : T ∈ unsucceeded db planId ↔
    ∃ t ∈ db.tasks, t.taskId = T ∧ t.planId = planId ∧ t.status ≠ .succeeded := by
  simp only [unsucceeded, List.mem_toFinset, List.mem_map, List.mem_filter, decide_eq_true_eq]
  constructor
  · rintro ⟨t, ⟨ht, htp, hst⟩, htid⟩
    exact ⟨t, ht, htid, htp, hst⟩
  · rintro ⟨t, ht, htid, htp, hst⟩
    exact ⟨t, ⟨ht, htp, hst⟩, htid⟩

theorem mem_unsucceeded_resumed {db : Db} {planId : PlanId} {t : Task}
    (ht : t ∈ (resumeRetrying planId db).tasks) (htp : t.planId = planId)
    (hst : t.status ≠ .succeeded) : t.taskId ∈ unsucceeded db planId := by
  rcases mem_resumeRetrying.mp ht with ⟨ht, -⟩ | ⟨x, hx, hxp, hxst, rfl⟩
  · exact mem_unsucceeded.mpr ⟨t, ht, rfl, htp, hst⟩
  · refine mem_unsucceeded.mpr ⟨x, hx, rfl, hxp, ?_⟩
    rw [hxst]
    decide

/-- A task that is started and succeeds is one less. -/
theorem unsucceeded_ssubset {db db' : Db} {planId : PlanId} {t t₁ t₂ : Task}
    (ht : t ∈ (resumeRetrying planId db).tasks) (htp : t.planId = planId)
    (hst : t.status ≠ .succeeded)
    (htasks : db'.tasks = ((resumeRetrying planId db).tasks.save t₁).save t₂)
    (h₁ : t₁.taskId = t.taskId) (h₂ : t₂.taskId = t.taskId) (hdone : t₂.status = .succeeded) :
    unsucceeded db' planId ⊂ unsucceeded db planId := by
  have hback : ∀ x ∈ db'.tasks, x.planId = planId → x.status ≠ .succeeded →
      x.taskId ≠ t.taskId ∧ x ∈ (resumeRetrying planId db).tasks := by
    intro x hx hxp hxst
    rw [htasks] at hx
    rcases Table.mem_save.mp hx with ⟨rfl, -⟩ | ⟨hx, hne⟩
    · exact absurd hdone hxst
    · rw [h₂] at hne
      rcases Table.mem_save.mp hx with ⟨rfl, -⟩ | ⟨hx, -⟩
      · exact absurd h₁ hne
      · exact ⟨hne, hx⟩
  refine Finset.ssubset_iff_of_subset ?_ |>.mpr
    ⟨t.taskId, mem_unsucceeded_resumed ht htp hst, fun hin => ?_⟩
  · intro T hT
    obtain ⟨x, hx, rfl, hxp, hxst⟩ := mem_unsucceeded.mp hT
    exact mem_unsucceeded_resumed (hback x hx hxp hxst).2 hxp hxst
  · obtain ⟨x, hx, hxid, hxp, hxst⟩ := mem_unsucceeded.mp hin
    exact (hback x hx hxp hxst).1 hxid

/-- **A turn that executes**: one task more has succeeded. -/
theorem execution_turn (hregistry : ∀ code, ∃ d, config.registry.get? code = some d)
    (h : (workers config).ReachableVia (Delivers config) st) (hp : p ∈ st.runtime.db.plans)
    (hlive : Live p) (hcur : p.currentTaskId = none) : ∃ st', Goes config st.calls.length st st' ∧
      unsucceeded st'.runtime.db p.planId ⊂ unsucceeded st.runtime.db p.planId ∧
      ∃ p' ∈ st'.runtime.db.plans, p'.planId = p.planId ∧ p'.currentTaskId = none ∧
        (p'.status = .running ∨ p'.status = .completed) := by
  have hreach := workers_runtime_reachable h
  have hcons := (reachable_owned hreach).consistent
  have hunlocked : Unlocked st.runtime.db p := by
    intro e _ hcurrent
    rw [hcur] at hcurrent
    cases hcurrent
  obtain ⟨ev, hev, input, hdrives, hinbox, hchecked⟩ := exists_checked h hp hlive hunlocked
  have hevent : input.eventId = some ev.eventId := (delivery_eq_some.mp hdrives.delivered).2.2.1
  obtain ⟨ids, hexecution, hoperation, hnew⟩ := exists_ids st.runtime.db
  obtain ⟨now, hclock, hnow⟩ : ∃ now, st.runtime.clock ≤ now ∧ ev.availableAt ≤ now :=
    ⟨max st.runtime.clock ev.availableAt, le_max_left _ _, le_max_right _ _⟩
  obtain ⟨t, d, task, db₁, e, ht, htp, hst, hclaim, htasks₁, hlock⟩ := exists_claimed hcons
    (reachable_taskGraph hreach) (reachable_grounded hreach) hregistry hp hlive hcur hdrives.planId
    (hdrives.idle hcur) hinbox hexecution hnew (.at now)
  obtain ⟨newEventId, hnew₁⟩ := exists_new OutboxEvent.eventId db₁.outbox.rows
  obtain ⟨db₂, hcomplete, htasks₂, p', hp', hid, hnone, hstatus⟩ :=
    exists_complete (.at now) hlock hnew₁
  have hclaimed : Gets config st.calls.length input st (.claimed task)
      ⟨db₁, task.toSnapshot :: st.runtime.handedOut, now⟩ :=
    hchecked.claimed hev hevent hnow hclock hoperation hclaim fun _ _ => ⟨rfl, rfl, rfl⟩
  have hexecuting : Gets config st.calls.length input st (.executing task)
      ⟨db₁, task.toSnapshot :: st.runtime.handedOut, now⟩ := by
    refine hclaimed.moved .startExecutor trivial fun call _ hphase => ?_
    refine ⟨call.goto (.executing task), ?_, rfl, rfl, rfl⟩
    simp only [Call.step, hphase]
  have hexecuted : Gets config st.calls.length input st (.executed task (.succeeded [] []))
      ⟨db₁, task.toSnapshot :: st.runtime.handedOut, now⟩ := by
    refine hexecuting.moved (.endExecutor (.succeeded [] [])) ⟨[], [], rfl⟩ fun call _ hphase => ?_
    refine ⟨call.goto (.executed task (.succeeded [] [])), ?_, rfl, rfl, rfl⟩
    simp only [Call.step, hphase]
  have hreturned : Gets config st.calls.length input st (.returned .taskSucceeded)
      ⟨db₂, task.toSnapshot :: st.runtime.handedOut, now⟩ := by
    refine hexecuted.transacted (.report newEventId (.at now)) trivial rfl rfl List.mem_cons_self
      (a := .complete newEventId (.at now) task.toSnapshot [] []) ?_ ?_
    · simp only [RuntimeAction.transaction, hcomplete]
      rfl
    · intro call _ hphase
      refine ⟨call.goto (.returned .taskSucceeded), ?_, rfl, rfl, rfl⟩
      simp only [Call.step, hphase, Call.report, hcomplete, Call.afterCommit]
  obtain ⟨st', hgoes, -, hruntime⟩ := hreturned
  refine ⟨st', hgoes, ?_⟩
  rw [hruntime]
  refine ⟨?_, p', hp', hid, hnone, hstatus⟩
  rw [htasks₁] at htasks₂
  refine unsucceeded_ssubset ht htp ?_ htasks₂ rfl rfl rfl
  rw [hst]
  decide

/-- A plan without a current task is executed task by task. -/
theorem exists_completed (hregistry : ∀ code, ∃ d, config.registry.get? code = some d) {k : Nat}
    (hk : (unsucceeded st.runtime.db p.planId).card = k)
    (h : (workers config).ReachableVia (Delivers config) st) (hp : p ∈ st.runtime.db.plans)
    (hlive : Live p) (hcur : p.currentTaskId = none) : ∃ st', Goes config st.calls.length st st' ∧
      ∃ p' ∈ st'.runtime.db.plans, p'.planId = p.planId ∧ p'.status = .completed := by
  induction k using Nat.strong_induction_on generalizing st p with
  | _ k ih =>
    obtain ⟨st₁, hgoes₁, hless, p₁, hp₁, hid₁, hnone₁, hst₁⟩ := execution_turn hregistry h hp hlive hcur
    rcases hst₁ with hrunning | hdone
    · have hlt : (unsucceeded st₁.runtime.db p₁.planId).card < k := by
        rw [hid₁, ← hk]
        exact Finset.card_lt_card hless
      obtain ⟨st₂, hgoes₂, p₂, hp₂, hid₂, hdone⟩ :=
        ih _ hlt rfl (hgoes₁.reachable h) hp₁ (.inr hrunning) hnone₁
      exact ⟨st₂, hgoes₁.trans (hgoes₂.mono hgoes₁.length), p₂, hp₂, hid₂.trans hid₁, hdone⟩
    · exact ⟨st₁, hgoes₁, p₁, hp₁, hid₁, hdone⟩

end Turns

/-- **A plan under execution can be brought to its end**, from every state the workers reach: with
no failures from here on it is completed, unless its current attempt was the last one or must not
be retried; then it asks for its next revision. -/
theorem plan_settles (config : RuntimeConfig)
    (hregistry : ∀ code, ∃ d, config.registry.get? code = some d) (st : WorkerState)
    (h : (workers config).ReachableVia (Delivers config) st) (p : Plan)
    (hp : p ∈ st.runtime.db.plans) (hlive : p.status = .ready ∨ p.status = .running)
    (hunlocked : ∀ e ∈ st.runtime.db.taskExecutions, p.currentTaskId = some e.taskId →
      e.status ≠ .compensationLocked) :
    ∃ acts st', (workers config).RunVia (Timely config) st acts st' ∧
      (∀ act ∈ acts, act.Smooth st.calls.length) ∧
      ∃ p' ∈ st'.runtime.db.plans, p'.planId = p.planId ∧
        (p.currentTaskId = none ∨ MayRetry st.runtime.db p → p'.status = .completed ∧
          (∀ t ∈ st'.runtime.db.tasks, t.planId = p.planId → t.status = .succeeded) ∧
          (aggregations st'.runtime.db p.planId).length = 1) ∧
        (p.currentTaskId ≠ none ∧ ¬ MayRetry st.runtime.db p → p'.status = .replanPending ∧
          ∃ ev ∈ st'.runtime.db.outbox, ev.eventType = .replanRequested ∧
            ev.aggregateId = p.planId) := by
  -- what it means that the plan is completed
  have hcompleted : ∀ st', (workers config).ReachableVia (Delivers config) st' →
      ∀ p' ∈ st'.runtime.db.plans, p'.planId = p.planId → p'.status = .completed →
        (∀ t ∈ st'.runtime.db.tasks, t.planId = p.planId → t.status = .succeeded) ∧
          (aggregations st'.runtime.db p.planId).length = 1 := by
    intro st' h' p' hp' hid hdone
    have hprogress := (reachable_dagConsistent (workers_runtime_reachable h')).progress p' hp'
    have hcount := hprogress.aggregated
    have hall := (hprogress.completed_iff (by rw [hdone]; decide)).mp hdone
    rw [hdone, if_pos rfl] at hcount
    rw [hid] at hcount hall
    exact ⟨hall, hcount⟩
  cases hcur : p.currentTaskId with
  | none =>
    obtain ⟨st', hgoes, p', hp', hid, hdone⟩ := exists_completed hregistry rfl h hp hlive hcur
    obtain ⟨acts, hrun, hsmooth⟩ := hgoes.run
    exact ⟨acts, st', hrun, hsmooth, p', hp', hid,
      fun _ => ⟨hdone, hcompleted st' (hgoes.reachable h) p' hp' hid hdone⟩,
      fun hnot => absurd rfl hnot.1⟩
  | some T =>
    obtain ⟨st₁, hgoes₁, p₁, hp₁, hid₁, hnone₁, hcases⟩ :=
      compensation_turn hregistry h hp hlive hunlocked hcur
    rcases hcases with ⟨hretry, hst₁⟩ | ⟨hnot, hst₁, hreplan⟩
    · -- the task goes back to its plan, which is then executed to its end
      have hlive₁ : Live p₁ := by
        rw [Live, hst₁]
        exact hlive
      obtain ⟨st₂, hgoes₂, p₂, hp₂, hid₂, hdone⟩ :=
        exists_completed hregistry rfl (hgoes₁.reachable h) hp₁ hlive₁ hnone₁
      have hgoes : Goes config st.calls.length st st₂ :=
        hgoes₁.trans (hgoes₂.mono hgoes₁.length)
      obtain ⟨acts, hrun, hsmooth⟩ := hgoes.run
      exact ⟨acts, st₂, hrun, hsmooth, p₂, hp₂, hid₂.trans hid₁,
        fun _ => ⟨hdone, hcompleted st₂ (hgoes.reachable h) p₂ hp₂ (hid₂.trans hid₁) hdone⟩,
        fun hfails => absurd hretry hfails.2⟩
    · obtain ⟨acts, hrun, hsmooth⟩ := hgoes₁.run
      refine ⟨acts, st₁, hrun, hsmooth, p₁, hp₁, hid₁, ?_, fun _ => ⟨hst₁, hreplan⟩⟩
      rintro (hnone | hretry)
      · cases hnone
      · exact absurd hretry hnot

/-- After two crashes the example's plan can still be completed: its first attempt waits for its
compensation, and two more are left. -/
theorem crashedTwice_completes : ∃ acts st',
    (workers defaultConfig).RunVia (Timely defaultConfig) crashedTwice acts st' ∧
      ∃ p' ∈ st'.runtime.db.plans, p'.planId = 1 ∧ p'.status = .completed := by
  have hregistry : ∀ code, ∃ d, defaultConfig.registry.get? code = some d := by
    intro code
    cases code <;> exact ⟨_, rfl⟩
  have hrun : (workers defaultConfig).runWhile (Delivers defaultConfig) noWorkers crashTwice =
      some crashedTwice := rfl
  have hreach := workers_reachable_of_run (.of_runWhile hrun)
  have hget : crashedTwice.runtime.db.plans.get? 1 = some ((crashedTwice.runtime.db.plans.get? 1).getD
      firstPlan) := rfl
  obtain ⟨acts, st', hacts, -, p', hp', hid, hdone, -⟩ := plan_settles defaultConfig hregistry
    crashedTwice hreach _ (Table.mem_of_get? hget) (.inr rfl) (by
      intro e he _
      have hall : ∀ x ∈ crashedTwice.runtime.db.taskExecutions.rows,
        x.status ≠ .compensationLocked := by decide
      exact hall e he)
  exact ⟨acts, st', hacts, p', hp', hid, (hdone (.inr (by decide))).1⟩

end DocFlow.TaskRuntime
