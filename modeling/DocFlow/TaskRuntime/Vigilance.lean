import DocFlow.TaskRuntime.Wakeups

/-!
# The workers lose no wake-up

The workers call the runtime for events of the outbox, none before it is available.  A call owes
its event to the inbox until a transaction of it has recorded the event (`Phase.owes`), and it
returns owing nothing; so a message that is acknowledged only after its handler has returned is
never acknowledged unrecorded.

`no_lost_wakeup` puts this together with the runtime's `transaction_awake`.
-/

namespace DocFlow.TaskRuntime

/-! ## Deliveries -/

/-- A delivery is of a wake-up of the outbox, or names no event, and no claim is made for an
event before the event is available. -/
def Delivers (config : RuntimeConfig) (st : WorkerState) : WorkerAction → Prop
  | .deliver input => input.eventId = none ∨
      ∃ ev ∈ st.runtime.db.outbox.rows, delivery ev = some input
  | act =>
    match st.transaction config act with
    | some (.claim _ clock _ input) => ∀ ev ∈ st.runtime.db.outbox.rows,
        input.eventId = some ev.eventId → ev.availableAt ≤ clock.read 0
    | _ => True

instance (config : RuntimeConfig) (st : WorkerState) (act : WorkerAction) :
    Decidable (Delivers config st act) := by
  unfold Delivers
  split
  · infer_instance
  · exact match st.transaction config _ with
    | some (.claim _ clock _ input) => inferInstanceAs (Decidable (∀ ev ∈ st.runtime.db.outbox.rows,
        input.eventId = some ev.eventId → ev.availableAt ≤ clock.read 0))
    | none | some (.createPlan ..) | some (.createTask ..) | some (.finalizePlan ..)
    | some (.prepareRevision ..) | some (.complete ..) | some (.fail ..)
    | some (.requireCompensation ..) | some (.beginCompensation ..)
    | some (.handleCompensationFailure ..) | some (.completeCompensation ..) => .isTrue trivial

/-- The event a call has still to record. -/
def Phase.owes (input : ExecuteNextInput) : Phase → Option EventId
  | .arrived | .checked false => input.eventId
  | .recovering _ eventId | .begun _ eventId _ | .compensating _ eventId _
  | .compensated _ eventId _ _ => eventId
  | _ => none

/-- The snapshot a call recovers with. -/
def Phase.recovery? : Phase → Option Snapshot
  | .recovering s _ | .begun s _ _ | .compensating s _ _ | .compensated s _ _ _ => some s
  | _ => none

/-- A call has been delivered an event of the outbox, and the event is recorded unless the call
still owes it. -/
structure Answers (db : Db) (call : Call) : Prop where
  delivered : call.input.eventId = none ∨ ∃ ev ∈ db.outbox, delivery ev = some call.input
  owed : ∀ i ∈ call.phase.owes call.input, call.input.eventId = some i
  plan : ∀ s ∈ call.phase.recovery?, call.phase.owes call.input ≠ none →
    s.planId = call.input.planId
  recorded : ∀ i ∈ call.input.eventId, call.phase.owes call.input = none → Recorded db i

section Calls

variable {config : RuntimeConfig} {db db' : Db} {call call' : Call} {a : Option RuntimeAction}

theorem Answers.mono (h : Answers db call) (hout : ∀ ev ∈ db.outbox, ev ∈ db'.outbox)
    (hrec : ∀ i, Recorded db i → Recorded db' i) : Answers db' call where
  delivered := h.delivered.imp id fun ⟨ev, hev, hdel⟩ => ⟨ev, hout ev hev, hdel⟩
  owed := h.owed
  plan := h.plan
  recorded := fun i hi howes => hrec i (h.recorded i hi howes)

/-- A call whose phase changes, and owes what it owed. -/
theorem Answers.goto (h : Answers db call) {phase : Phase}
    (howes : phase.owes call.input = call.phase.owes call.input)
    (hrecovery : phase.recovery? = call.phase.recovery? ∨ phase.recovery? = none) :
    Answers db (call.goto phase) where
  delivered := h.delivered
  owed := by
    show ∀ i ∈ phase.owes call.input, _
    rw [howes]
    exact h.owed
  plan := by
    intro s hs hne
    show s.planId = call.input.planId
    rcases hrecovery with hsame | hnone
    · exact h.plan s (hsame ▸ hs) (howes ▸ hne)
    · rw [show (call.goto phase).phase.recovery? = none from hnone] at hs
      cases hs
  recorded := by
    intro i hi hnone
    exact h.recorded i hi (howes ▸ hnone)

/-- A call that has settled its event. -/
theorem Answers.settle (h : Answers db call) {phase : Phase} (howes : phase.owes call.input = none)
    (hrec : ∀ i ∈ call.input.eventId, Recorded db i) : Answers db (call.goto phase) where
  delivered := h.delivered
  owed := by
    intro i hi
    have hnone : i ∈ phase.owes call.input := hi
    rw [howes] at hnone
    cases hnone
  plan := fun s _ hne => absurd howes hne
  recorded := fun i hi _ => hrec i hi

theorem inboxSeen_recorded {input : ExecuteNextInput} (h : inboxSeen db input = true) :
    ∀ i ∈ input.eventId, Recorded db i := by
  intro i hi
  rw [inboxSeen, Option.mem_def.mp hi] at h
  exact Db.inboxExists_iff.mp h

/-- A recovery is of the plan that the claim was made for. -/
theorem ClaimStep.recovery_plan {registry : CapabilityRegistry} {ids : ClaimIds} {clock : Clock}
    {input : ExecuteNextInput} {s : Snapshot}
    (h : ClaimStep registry ids clock input db (.compensationRequired s) db') :
    s.planId = input.planId := by
  cases h with
  | required p T _ _ hp _ _ hrec =>
    have hid : p.planId = input.planId := Table.key_of_get? hp
    cases hrec with
    | required t e _ _ _ hsnap => exact (recoverySnapshot_fields hsnap).2.1.trans hid
    | expired t e d _ _ _ _ _ hsnap => exact (recoverySnapshot_fields hsnap).2.1.trans hid

/-- **The step of a call**: it owes its event until a transaction of it has recorded the event. -/
theorem CallStep.answers (h : CallStep config db call a call') (hans : Answers db call)
    (hout : ∀ ev ∈ db.outbox, ev ∈ db'.outbox) (hrec : ∀ i, Recorded db i → Recorded db' i)
    (hdb : ∀ b y d, a = some b → b.transaction config db = .ok (y, d) → db' = d) :
    Answers db' call' := by
  have hkept := hans.mono hout hrec
  -- what a claim that hands out no recovery has done with its event
  have hclaim : ∀ ids clock seen r d, call.phase = .checked seen →
      a = some (.claim ids clock seen call.input) →
      claimNext config.registry ids clock seen call.input db = .ok (r, d) →
      (∀ recovery, r ≠ .compensationRequired recovery) →
      ∀ i ∈ call.input.eventId, Recorded db' i := by
    intro ids clock seen r d hphase ha hx hr i hi
    have hd : db' = d := by
      refine hdb _ r.snapshot? d ha ?_
      simp only [RuntimeAction.transaction, hx]
      rfl
    rcases claimNext_cases hx with ⟨rfl, -, -⟩ | ⟨-, hstep⟩
    · exact hkept.recorded i hi (by rw [hphase]; rfl)
    · rw [hd]
      exact hstep.records.2 hr i hi
  -- what the end of a recovery has done with the event it carries
  have hend : ∀ eventId, call.phase.owes call.input = eventId →
      (∀ j ∈ eventId, Recorded db' j) → ∀ i ∈ call.input.eventId, Recorded db' i := by
    intro eventId howes hrecorded i hi
    cases heq : eventId with
    | none => exact hkept.recorded i hi (howes.trans heq)
    | some j =>
      have hj := hans.owed j (howes.trans heq)
      obtain rfl : j = i := Option.some.inj (hj.symm.trans hi)
      exact hrecorded j heq
  cases h with
  | checked hphase =>
    cases hseen : inboxSeen db call.input with
    | true => exact hkept.settle rfl fun i hi => hrec i (inboxSeen_recorded hseen i hi)
    | false => exact hkept.goto (by rw [hphase]; rfl) (.inr rfl)
  | claimed ids clock seen task d hphase hx =>
    have hsettled : Answers db' (call.goto (.claimed task)) := by
      refine hkept.settle rfl (hclaim ids clock seen _ d hphase rfl hx ?_)
      intro recovery hr
      cases hr
    exact ⟨hsettled.delivered, hsettled.owed, hsettled.plan, hsettled.recorded⟩
  | recovering ids clock seen s d hphase hx =>
    rcases claimNext_cases hx with ⟨-, hr, -⟩ | ⟨rfl, hstep⟩
    · cases hr
    · refine ⟨hkept.delivered, fun i hi => hi, fun s' hs' _ => ?_, fun i hi hnone => ?_⟩
      · obtain rfl := Option.some.inj hs'
        exact hstep.recovery_plan
      · have hnone : call.input.eventId = none := hnone
        rw [show call.input.eventId = some i from hi] at hnone
        cases hnone
  | skipped ids clock seen r d outcome hphase hx hr hr' =>
    exact hkept.settle rfl (hclaim ids clock seen r d hphase rfl hx hr')
  | executing task hphase => exact hkept.goto (by rw [hphase]; rfl) (.inr rfl)
  | executed task outcome hphase => exact hkept.goto (by rw [hphase]; rfl) (.inr rfl)
  | completed newEventId clock task outputJson resourceRefs d hphase =>
    exact hkept.goto (by rw [hphase]; rfl) (.inr rfl)
  | failed newEventId clock task error d hphase =>
    exact hkept.goto (by rw [hphase]; rfl) (.inr rfl)
  | required task error d hphase =>
    exact hkept.settle rfl fun i hi => hkept.recorded i hi (by rw [hphase]; rfl)
  | begun clock s eventId attempt d hphase =>
    have hmoved : Answers db' (call.goto (.begun s eventId attempt)) :=
      hkept.goto (by rw [hphase]; rfl) (.inl (by rw [hphase]; rfl))
    exact ⟨hmoved.delivered, hmoved.owed, hmoved.plan, hmoved.recorded⟩
  | invoked s eventId attempt hphase =>
    have hmoved : Answers db' (call.goto (.compensating s eventId attempt)) :=
      hkept.goto (by rw [hphase]; rfl) (.inl (by rw [hphase]; rfl))
    exact ⟨hmoved.delivered, hmoved.owed, hmoved.plan, hmoved.recorded⟩
  | answered s eventId attempt error hphase =>
    exact hkept.goto (by rw [hphase]; rfl) (.inl (by rw [hphase]; rfl))
  | concluded newEventId clock s eventId attempt outcome d hphase hx =>
    have hd : db' = d := by
      refine hdb _ none d rfl ?_
      simp only [RuntimeAction.transaction, hx]
      rfl
    refine hkept.settle rfl (hend eventId (by rw [hphase]; rfl) ?_)
    rw [hd]
    exact (completeCompensation_records hx).2
  | unsuccessful newEventId clock s eventId attempt error outcome d hphase hx =>
    have hd : db' = d := by
      refine hdb _ none d rfl ?_
      simp only [RuntimeAction.transaction, hx]
      rfl
    refine hkept.settle rfl (hend eventId (by rw [hphase]; rfl) ?_)
    rw [hd]
    exact (handleCompensationFailure_records hx).2
  | raised | crashed => exact ⟨hkept.delivered, hkept.owed, hkept.plan, hkept.recorded⟩

/-- The transaction of a call is punctual. -/
theorem CallStep.punctual {b : RuntimeAction} (h : CallStep config db call (some b) call')
    (hans : Answers db call) {y : Option Snapshot × Db} (htx : b.transaction config db = .ok y)
    (havailable : ∀ ids clock seen input, b = .claim ids clock seen input →
      ∀ ev ∈ db.outbox, input.eventId = some ev.eventId → ev.availableAt ≤ clock.read 0) :
    Punctual db b := by
  have hclaim : ∀ ids clock seen, b = .claim ids clock seen call.input →
      Punctual db (.claim ids clock seen call.input) := by
    intro ids clock seen hb
    rcases hans.delivered with hnone | ⟨ev, hev, hdel⟩
    · exact .inl hnone
    · exact .inr ⟨ev, hev, hdel, havailable ids clock seen call.input hb ev hev
        (delivery_eq_some.mp hdel).2.2.1⟩
  have hend : ∀ s eventId, call.phase.recovery? = some s → call.phase.owes call.input = eventId →
      ∀ i ∈ eventId, ∃ ev ∈ db.outbox, ev.eventId = i ∧
        ∃ input, delivery ev = some input ∧ input.planId = s.planId := by
    rintro s _ hs rfl i hi
    have hplan := hans.plan s hs (by rw [Option.mem_def.mp hi]; nofun)
    have hinput := hans.owed i hi
    rcases hans.delivered with hnone | ⟨ev, hev, hdel⟩
    · rw [hinput] at hnone
      cases hnone
    · have hid := (delivery_eq_some.mp hdel).2.2.1
      exact ⟨ev, hev, Option.some.inj (hid.symm.trans hinput), call.input, hdel, hplan.symm⟩
  cases h with
  | claimed ids clock seen | recovering ids clock seen | skipped ids clock seen =>
    exact hclaim ids clock seen rfl
  | completed | failed | required | begun => trivial
  | concluded newEventId clock s eventId attempt outcome d hphase =>
    exact hend s eventId (by rw [hphase]; rfl) (by rw [hphase]; rfl)
  | unsuccessful newEventId clock s eventId attempt error outcome d hphase =>
    exact hend s eventId (by rw [hphase]; rfl) (by rw [hphase]; rfl)
  | raised _ f hf =>
    rw [hf] at htx
    cases htx

end Calls

/-! ## The invariant over a run -/

/-- The plans are awake, and every call answers for its event. -/
structure Vigilant (registry : CapabilityRegistry) (st : WorkerState) : Prop where
  wakeful : Wakeful registry st.runtime.db
  answers : ∀ c ∈ st.calls, Answers st.runtime.db c

section Runs

variable {config : RuntimeConfig} {st : WorkerState}

/-- A step of the runtime keeps the plans awake. -/
theorem Wakeful.step {s s' : RuntimeState} {a : RuntimeAction} (howned : Owned config.registry s)
    (hgraph : TaskGraph s.db) (h : Wakeful config.registry s.db)
    (hstep : (runtime config).step s a = some s')
    (hok : ∀ y, a.transaction config s.db = .ok y → Punctual s.db a) :
    Wakeful config.registry s'.db := by
  rcases runtime_step_cases hstep with ⟨x, db', htx, rfl, -⟩ | ⟨f, -, hdb, -⟩
  · exact transaction_awake howned.consistent hgraph
      (snapshot_coherent howned (runtime_step hstep).1) (hok _ htx) htx h
  · rw [hdb]
    exact h

/-- **The step.** -/
theorem Vigilant.step {st' : WorkerState} {act : WorkerAction}
    (hreach : (runtime config).Reachable st.runtime) (h : Vigilant config.registry st)
    (hok : Delivers config st act) (hstep : (workers config).step st act = some st') :
    Vigilant config.registry st' := by
  have hout : ∀ {a r}, (runtime config).step st.runtime a = some r →
      ∀ ev ∈ st.runtime.db.outbox, ev ∈ r.db.outbox :=
    fun hr => (runtime_step_effects (reachable_owned hreach) hr).outbox_kept
  have hrec : ∀ {a r}, (runtime config).step st.runtime a = some r →
      ∀ i, Recorded st.runtime.db i → Recorded r.db i :=
    fun hr i hi => (runtime_step_records hr).kept _ hi
  cases workers_step_cases hstep with
  | planned a r _ hplan hr =>
    refine ⟨h.wakeful.step (reachable_owned hreach) (reachable_taskGraph hreach) hr fun _ _ => ?_,
      fun c hc => (h.answers c hc).mono (hout hr) (hrec hr)⟩
    cases a with
    | createPlan | createTask | finalizePlan | prepareRevision => trivial
    | _ => cases hplan
  | delivered input hact =>
    subst hact
    refine ⟨h.wakeful, fun c hc => ?_⟩
    rcases List.mem_append.mp hc with hc | hc
    · exact h.answers c hc
    · obtain rfl := List.mem_singleton.mp hc
      refine ⟨hok, fun i hi => hi, fun s hs => ?_, fun i hi hnone => ?_⟩
      · cases hs
      · have hnone : input.eventId = none := hnone
        rw [show input.eventId = some i from hi] at hnone
        cases hnone
  | moved index action call call' _ hcall _ hcases =>
    refine ⟨h.wakeful, fun c hc => ?_⟩
    rcases List.mem_or_eq_of_mem_set hc with hc | rfl
    · exact h.answers c hc
    · exact hcases.answers (h.answers call (List.mem_of_getElem? hcall)) (fun _ hev => hev)
        (fun _ hi => hi) fun _ _ _ hb => by cases hb
  | committed index action call call' b r hact hcall _ hcases htx hr =>
    subst hact
    have hans := h.answers call (List.mem_of_getElem? hcall)
    refine ⟨h.wakeful.step (reachable_owned hreach) (reachable_taskGraph hreach) hr
      fun y hy => hcases.punctual hans hy ?_, fun c hc => ?_⟩
    · rintro ids clock seen input rfl
      simp only [Delivers, htx] at hok
      exact hok
    · rcases List.mem_or_eq_of_mem_set hc with hc | rfl
      · exact (h.answers c hc).mono (hout hr) (hrec hr)
      · refine hcases.answers hans (hout hr) (hrec hr) fun b' y d hb hd => ?_
        obtain rfl := Option.some.inj hb
        exact (committed hr hd).1

theorem reachable_vigilant (h : (workers config).ReachableVia (Delivers config) st) :
    Vigilant config.registry st := by
  refine h.invariant (P := Vigilant config.registry) ?_ fun _ _ _ hr hv hok hs =>
    hv.step (workers_runtime_reachable hr) hok hs
  rintro s ⟨hfresh, hcalls⟩
  exact ⟨hfresh.wakeful, by simp [hcalls]⟩

end Runs

/-- A locked execution of the current task is the latest one. -/
theorem Unlocked.of_latest {registry : CapabilityRegistry} {db : Db} {p : Plan}
    (hcons : Consistent registry db) (h : ∀ T, p.currentTaskId = some T →
      ∀ e, db.getLatestByTask T = some e → e.status ≠ .compensationLocked) : Unlocked db p := by
  intro e he hcur hst
  obtain ⟨t, ht, hid, -⟩ := hcons.taskOfExecution e he
  have hk := ((hcons.active t ht e he hid.symm).mp (by rw [hst]; rfl)).2
  have hlatest := hcons.latest ht he hid.symm hk
  rw [hid] at hlatest
  exact h e.taskId hcur e hlatest hst

/-- **No wake-up is lost**: whenever a plan is ready or running and its current execution, if it
has one, is not locked, the outbox holds a wake-up of the plan that the runtime has not recorded;
and no call that was delivered this wake-up has returned. -/
theorem no_lost_wakeup (config : RuntimeConfig) (st : WorkerState)
    (h : (workers config).ReachableVia (Delivers config) st) (p : Plan)
    (hp : p ∈ st.runtime.db.plans) (hlive : p.status = .ready ∨ p.status = .running)
    (hunlocked : ∀ T, p.currentTaskId = some T → ∀ e, st.runtime.db.getLatestByTask T = some e →
      e.status ≠ .compensationLocked) :
    ∃ ev ∈ st.runtime.db.outbox, ev.eventType = .planWakeup ∧ ev.payload.planId = some p.planId ∧
      ¬ Recorded st.runtime.db ev.eventId ∧
      ∀ c ∈ st.calls, c.input.eventId = some ev.eventId → c.phase.isReturned = false := by
  have hvigilant := reachable_vigilant h
  have hcons := (reachable_owned (workers_runtime_reachable h)).consistent
  obtain ⟨ev, hev, hnew, input, hdrives⟩ :=
    hvigilant.wakeful.awake p hp hlive (.of_latest hcons hunlocked)
  obtain ⟨htype, hplan, -⟩ := delivery_eq_some.mp hdrives.delivered
  refine ⟨ev, hev, htype, by rw [hplan, hdrives.planId], hnew, fun c hc hinput => ?_⟩
  by_contra hret
  refine hnew ((hvigilant.answers c hc).recorded ev.eventId hinput ?_)
  cases hphase : c.phase with
  | returned outcome => rfl
  | _ => simp [hphase, Phase.isReturned] at hret

/-! ## A crash between two transactions -/

/-- The worker of the first task crashes after its claim, and the lease wake-up is delivered to a
second one, which crashes after it has counted an attempt. -/
def crashTwice : List WorkerAction :=
  crashFirstWorker ++
    [ .deliver ⟨1, some 2, none, none⟩, .call 1 .check,
      .call 1 (.claim ⟨2, 2, 2, 3⟩ (.at (timedelta 300))),
      .call 1 (.begin (.at (timedelta 300))), .call 1 .crash ]

def crashedTwice : WorkerState :=
  ((workers defaultConfig).run noWorkers crashTwice).getD noWorkers

/-- The wake-up of the lease is still there. -/
theorem crashedTwice_awake : ∃ ev ∈ crashedTwice.runtime.db.outbox, ev.eventType = .planWakeup ∧
    ev.payload.planId = some 1 ∧ ¬ Recorded crashedTwice.runtime.db ev.eventId := by
  have hrun : (workers defaultConfig).runWhile (Delivers defaultConfig) noWorkers crashTwice =
      some crashedTwice := rfl
  have hreach := workers_reachable_of_run (.of_runWhile hrun)
  have hlen : 0 < crashedTwice.runtime.db.plans.rows.length := by decide
  obtain ⟨ev, hev, htype, hplan, hnew, -⟩ :=
    no_lost_wakeup defaultConfig crashedTwice hreach _ (List.getElem_mem hlen) (.inr rfl) (by
      rintro T ⟨⟩ e he
      obtain rfl := Option.some.inj he
      exact nofun)
  exact ⟨ev, hev, htype, hplan, hnew⟩

end DocFlow.TaskRuntime
