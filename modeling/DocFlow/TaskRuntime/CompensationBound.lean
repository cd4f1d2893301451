import DocFlow.TaskRuntime.Quiescence

/-!
# The bound on compensation attempts

`max_compensation_attempts` is tested where a failed attempt is reported, and only there.  An
attempt that is never reported, because its worker has crashed or because another attempt has
begun in the meantime, is counted and not tested: the next recovery begins one more.

The bound holds as long as no attempt begins before the last admissible one has been reported
(`bounded_compensation`).  `crashes_exceed_bound` is a run in which every attempt crashes.
-/

namespace DocFlow.TaskRuntime

/-! ## The condition -/

/-- The attempt a call has begun and not reported: its execution and its number. -/
def Phase.unreported? : Phase → Option (ExecutionId × Nat)
  | .begun s _ n | .compensating s _ n | .compensated s _ n _ => some (s.executionId, n)
  | _ => none

/-- The execution waits for its compensation. -/
def AwaitsCompensation (db : Db) (x : ExecutionId) : Prop :=
  ∃ e ∈ db.taskExecutions.get? x, e.status = .compensationRequired

instance (db : Db) (x : ExecutionId) : Decidable (AwaitsCompensation db x) := by
  unfold AwaitsCompensation
  infer_instance

/-- No attempt begins while the last admissible one is unreported, and when the last one is
reported as failed, no earlier one is in flight in a living call. -/
def ReportedInTurn (config : RuntimeConfig) (st : WorkerState) (act : WorkerAction) : Prop :=
  match st.transaction config act with
  | some (.beginCompensation _ s) => AwaitsCompensation st.runtime.db s.executionId →
      ∀ c ∈ st.calls, c.phase.unreported? ≠
        some (s.executionId, config.settings.maxCompensationAttempts)
  | some (.handleCompensationFailure _ _ s _ _ attempt) =>
      AwaitsCompensation st.runtime.db s.executionId →
      config.settings.maxCompensationAttempts ≤ attempt →
      ∀ c ∈ st.calls, c.alive = true → c.phase.compensates? ≠ some s.executionId
  | _ => True

instance (config : RuntimeConfig) (st : WorkerState) (act : WorkerAction) :
    Decidable (ReportedInTurn config st act) := by
  unfold ReportedInTurn
  exact match st.transaction config act with
  | some (.beginCompensation _ s) =>
    inferInstanceAs (Decidable (AwaitsCompensation st.runtime.db s.executionId →
      ∀ c ∈ st.calls, c.phase.unreported? ≠
        some (s.executionId, config.settings.maxCompensationAttempts)))
  | some (.handleCompensationFailure _ _ s _ _ attempt) =>
    inferInstanceAs (Decidable (AwaitsCompensation st.runtime.db s.executionId →
      config.settings.maxCompensationAttempts ≤ attempt →
      ∀ c ∈ st.calls, c.alive = true → c.phase.compensates? ≠ some s.executionId))
  | none | some (.createPlan ..) | some (.createTask ..) | some (.finalizePlan ..)
  | some (.prepareRevision ..) | some (.claim ..) | some (.complete ..) | some (.fail ..)
  | some (.requireCompensation ..) | some (.completeCompensation ..) => .isTrue trivial

/-! ## The invariant -/

/-- How often the compensation of an execution has begun, and how often its compensator has
been invoked. -/
def attemptsBegun (calls : List Call) (x : ExecutionId) : Nat :=
  calls.countP fun c => c.attempted = some x

def invocations (calls : List Call) (x : ExecutionId) : Nat :=
  calls.countP fun c => c.invoked = true ∧ c.attempted = some x

theorem invocations_le (calls : List Call) (x : ExecutionId) :
    invocations calls x ≤ attemptsBegun calls x := by
  refine List.countP_mono_left fun c _ h => ?_
  simp only [decide_eq_true_eq] at h ⊢
  exact h.2

/-- The attempts of one execution, with `m` of them admissible. -/
structure Budget (m : Nat) (calls : List Call) (e : TaskExecution) : Prop where
  unattempted : e.status = .running → e.compensationAttemptCount = 0
  counted : attemptsBegun calls e.executionId ≤ e.compensationAttemptCount
  bounded : e.compensationAttemptCount ≤ m
  unreported : e.status = .compensationRequired → e.compensationAttemptCount = m →
    ∃ c ∈ calls, c.phase.unreported? = some (e.executionId, m)
  locked : e.status = .compensationLocked → ∀ c ∈ calls, c.alive = true →
    c.phase.compensates? ≠ some e.executionId

/-- Every execution keeps to its budget, and every attempt is of an execution that exists. -/
structure Budgets (m : Nat) (st : WorkerState) : Prop where
  budget : ∀ e ∈ st.runtime.db.taskExecutions, Budget m st.calls e
  known : ∀ c ∈ st.calls, ∀ x ∈ c.attempted, ExecutionExists st.runtime.db x

section Steps

variable {config : RuntimeConfig} {db : Db} {call call' : Call} {a : Option RuntimeAction}

/-- A call begins an attempt by the transaction that counts it, and at no other time. -/
theorem CallStep.attempted (h : CallStep config db call a call') :
    call'.attempted = call.attempted ∨ ∃ clock s n db', a = some (.beginCompensation clock s) ∧
      beginCompensationAttempt clock s db = .ok (n, db') ∧
      call'.attempted = some s.executionId ∧
      call'.phase.unreported? = some (s.executionId, n) := by
  cases h with
  | begun clock s eventId attempt db' _ hbegin =>
    exact .inr ⟨clock, s, attempt, db', rfl, hbegin, rfl, rfl⟩
  | _ => exact .inl rfl

/-- An attempt stays unreported until its call runs a transaction on its execution. -/
theorem CallStep.unreported (h : CallStep config db call a call') {k : ExecutionId × Nat}
    (hk : call.phase.unreported? = some k) :
    call'.phase.unreported? = some k ∨
      ∃ b s, a = some b ∧ b.snapshot? = some s ∧ s.executionId = k.1 := by
  cases h with
  | checked hphase | claimed _ _ _ _ _ hphase | recovering _ _ _ _ _ hphase
  | skipped _ _ _ _ _ _ hphase | executing _ hphase | executed _ _ hphase
  | completed _ _ _ _ _ _ hphase | failed _ _ _ _ _ hphase | required _ _ _ hphase
  | begun _ _ _ _ _ hphase =>
    rw [hphase] at hk
    cases hk
  | invoked s eventId attempt hphase =>
    rw [hphase] at hk
    exact .inl hk
  | answered s eventId attempt error hphase =>
    rw [hphase] at hk
    exact .inl hk
  | concluded newEventId clock s eventId attempt outcome db' hphase =>
    rw [hphase] at hk
    obtain rfl := Option.some.inj hk
    exact .inr ⟨_, s, rfl, rfl, rfl⟩
  | unsuccessful newEventId clock s eventId attempt error outcome db' hphase =>
    rw [hphase] at hk
    obtain rfl := Option.some.inj hk
    exact .inr ⟨_, s, rfl, rfl, rfl⟩
  | raised | crashed => exact .inl hk

/-- The budget of a row that the step of a call leaves alone. -/
theorem Budget.set {m : Nat} {calls : List Call} {index : Nat} {e : TaskExecution}
    (h : Budget m calls e) (hcall : calls[index]? = some call)
    (hattempted : call'.attempted = some e.executionId → call.attempted = some e.executionId)
    (hunreported : call.phase.unreported? = some (e.executionId, m) →
      call'.phase.unreported? = some (e.executionId, m))
    (hcompensates : call'.alive = true → call'.phase.compensates? = some e.executionId →
      call.alive = true ∧ call.phase.compensates? = some e.executionId) :
    Budget m (calls.set index call') e where
  unattempted := h.unattempted
  counted := by
    refine le_trans (countP_set_le hcall fun hc => ?_) h.counted
    simp only [decide_eq_true_eq] at hc ⊢
    exact hattempted hc
  bounded := h.bounded
  unreported := by
    intro hst hm
    obtain ⟨c, hc, hk⟩ := h.unreported hst hm
    obtain ⟨j, hj⟩ := List.mem_iff_getElem?.mp hc
    have hlt := (List.getElem?_eq_some_iff.mp hcall).1
    by_cases hij : index = j
    · subst hij
      obtain rfl := Option.some.inj (hcall.symm.trans hj)
      exact ⟨call', List.mem_set hlt call', hunreported hk⟩
    · refine ⟨c, List.mem_iff_getElem?.mpr ⟨j, ?_⟩, hk⟩
      rw [List.getElem?_set_ne hij]
      exact hj
  locked := by
    intro hst c hc halive hx
    rcases List.mem_or_eq_of_mem_set hc with hc | rfl
    · exact h.locked hst c hc halive hx
    · obtain ⟨halive, hx⟩ := hcompensates halive hx
      exact h.locked hst call (List.mem_of_getElem? hcall) halive hx

/-- The budget of an execution whose outcome is written. -/
theorem Budget.settled {m : Nat} {calls calls' : List Call} {e e' : TaskExecution}
    (h : Budget m calls e)
    (hcalls : attemptsBegun calls' e.executionId ≤ attemptsBegun calls e.executionId)
    (hid : e'.executionId = e.executionId)
    (hcount : e'.compensationAttemptCount = e.compensationAttemptCount)
    (hst : isActive e'.status = false) : Budget m calls' e' where
  unattempted := fun hrun => by rw [hrun] at hst; cases hst
  counted := by
    rw [hid, hcount]
    exact le_trans hcalls h.counted
  bounded := by
    rw [hcount]
    exact h.bounded
  unreported := fun hreq => by rw [hreq] at hst; cases hst
  locked := fun hlock => by rw [hlock] at hst; cases hst

/-- The budget of an execution that starts to wait for its compensation. -/
theorem Budget.stopped {m : Nat} {calls calls' : List Call} {e e' : TaskExecution}
    (h : Budget m calls e) (hpos : 0 < m)
    (hcalls : attemptsBegun calls' e.executionId ≤ attemptsBegun calls e.executionId)
    (hid : e'.executionId = e.executionId)
    (hcount : e'.compensationAttemptCount = e.compensationAttemptCount)
    (hrun : e.status = .running) (hst : e'.status = .compensationRequired) :
    Budget m calls' e' where
  unattempted := fun hrun' => by rw [hst] at hrun'; cases hrun'
  counted := by
    rw [hid, hcount]
    exact le_trans hcalls h.counted
  bounded := by
    rw [hcount]
    exact h.bounded
  unreported := fun _ hm => by
    have hzero := h.unattempted hrun
    omega
  locked := fun hlock => by rw [hst] at hlock; cases hlock

theorem attemptsBegun_set_le {calls : List Call} {index : Nat} {call call' : Call}
    {x : ExecutionId} (hcall : calls[index]? = some call)
    (h : call'.attempted = some x → call.attempted = some x) :
    attemptsBegun (calls.set index call') x ≤ attemptsBegun calls x := by
  refine countP_set_le hcall fun hc => ?_
  simp only [decide_eq_true_eq] at hc ⊢
  exact h hc

/-- The budget of the execution that a transaction rewrites. -/
theorem Budget.written {calls : List Call} {index : Nat} {b : RuntimeAction} {s : Snapshot}
    {e e' : TaskExecution} (h : Budget config.settings.maxCompensationAttempts calls e)
    (hcall : calls[index]? = some call) (hcases : CallStep config db call (some b) call')
    {y : Option Snapshot × Db} (htx : b.transaction config db = .ok y)
    (hs : b.snapshot? = some s) (hget : db.taskExecutions.get? s.executionId = some e)
    (hwrites : Writes config e b e')
    (hbegin : ∀ clock, b = .beginCompensation clock s → ∀ c ∈ calls,
      c.phase.unreported? ≠ some (s.executionId, config.settings.maxCompensationAttempts))
    (hlock : ∀ newEventId clock eventId error attempt,
      b = .handleCompensationFailure newEventId clock s eventId error attempt →
      config.settings.maxCompensationAttempts ≤ attempt →
      ∀ c ∈ calls, c.alive = true → c.phase.compensates? ≠ some s.executionId) :
    Budget config.settings.maxCompensationAttempts (calls.set index call') e' := by
  have hid : e.executionId = s.executionId := Table.key_of_get? hget
  have hcalls : (∀ clock s, b ≠ .beginCompensation clock s) →
      attemptsBegun (calls.set index call') e.executionId ≤ attemptsBegun calls e.executionId := by
    intro hb
    refine attemptsBegun_set_le hcall fun hx => ?_
    rcases hcases.attempted with hsame | ⟨clock, s', _, _, ha, -⟩
    · rw [← hsame]
      exact hx
    · exact absurd (Option.some.inj ha) (hb clock s')
  have hpos := config.settings.maxCompensationAttempts_pos
  cases hwrites with
  | completed | failed | compensated => exact h.settled (hcalls nofun) rfl rfl rfl
  | required _ _ hrun => exact h.stopped hpos (hcalls nofun) rfl rfl hrun rfl
  | counted clock s' hst =>
    obtain rfl := Option.some.inj hs
    -- the last admissible attempt is not out, so it has not been counted
    have hlt : e.compensationAttemptCount < config.settings.maxCompensationAttempts := by
      have hne : e.compensationAttemptCount ≠ config.settings.maxCompensationAttempts := by
        intro hm
        obtain ⟨c, hc, hk⟩ := h.unreported hst hm
        exact hbegin clock rfl c hc (hid ▸ hk)
      have hle := h.bounded
      omega
    refine ⟨fun hrun => ?_, ?_, hlt, fun _ hm => ?_, fun hl => ?_⟩
    · rw [show (countAttempt (clock.read 0) e).status = e.status from rfl, hst] at hrun
      cases hrun
    · exact le_trans (countP_set_le_succ _ _ _ _) (Nat.succ_le_succ h.counted)
    · cases hcases with
      | begun _ _ eventId n db' _ hbeg =>
        obtain ⟨p, t, e₁, htoken, hn, -⟩ := beginCompensationAttempt_cases hbeg
        obtain ⟨-, -, he₁, -⟩ := lockCompensationToken_eq_ok.mp htoken
        obtain rfl := Option.some.inj (hget.symm.trans he₁)
        have hnum : n = config.settings.maxCompensationAttempts := hn.trans hm
        refine ⟨_, List.mem_set (List.getElem?_eq_some_iff.mp hcall).1 _, ?_⟩
        show some (s'.executionId, n) = some (e.executionId, _)
        rw [hnum, hid]
      | raised _ f hf =>
        rw [hf] at htx
        cases htx
    · rw [show (countAttempt (clock.read 0) e).status = e.status from rfl, hst] at hl
      cases hl
  | scheduled newEventId clock s' eventId error attempt hst hcount hlt =>
    refine ⟨fun hrun => ?_, ?_, h.bounded, fun _ hm => ?_, fun hl => ?_⟩
    · rw [show (recordCompensationError error e).status = e.status from rfl, hst] at hrun
      cases hrun
    · exact le_trans (hcalls nofun) h.counted
    · have hm' : e.compensationAttemptCount = config.settings.maxCompensationAttempts := hm
      omega
    · rw [show (recordCompensationError error e).status = e.status from rfl, hst] at hl
      cases hl
  | locked newEventId clock s' eventId error attempt hst hcount hle =>
    obtain rfl := Option.some.inj hs
    refine ⟨nofun, le_trans (hcalls nofun) h.counted, h.bounded, nofun, fun _ c hc halive hx => ?_⟩
    rcases List.mem_or_eq_of_mem_set hc with hc | rfl
    · exact hlock newEventId clock eventId error attempt rfl hle c hc halive (hx.trans (by rw [← hid]; rfl))
    · cases hcases with
      | unsuccessful => cases hx
      | raised => cases halive

/-- A call ends when its transaction raises. -/
theorem CallStep.of_error {b : RuntimeAction} (h : CallStep config db call (some b) call')
    {f : Failure} (hf : b.transaction config db = .error f) : call' = call.raised := by
  cases h with
  | claimed _ _ _ _ db' _ hx | recovering _ _ _ _ db' _ hx | skipped _ _ _ _ db' _ _ hx
  | completed _ _ _ _ _ db' _ hx | failed _ _ _ _ db' _ hx | required _ _ db' _ hx
  | begun _ _ _ _ db' _ hx | concluded _ _ _ _ _ _ db' _ hx
  | unsuccessful _ _ _ _ _ _ _ db' _ hx =>
    simp only [RuntimeAction.transaction, hx] at hf
    cases hf
  | raised => rfl

end Steps

/-! ## The invariant over a run -/

section Runs

variable {config : RuntimeConfig} {st : WorkerState} {index : Nat} {call call' : Call}

theorem Budgets.moved {m : Nat} (h : Budgets m st) (hcall : st.calls[index]? = some call)
    (halive : call.alive = true) (hcases : CallStep config st.runtime.db call none call') :
    Budgets m (st.setCall index call' st.runtime) := by
  have hsame : call'.attempted = call.attempted := by
    rcases hcases.attempted with hsame | ⟨_, _, _, _, ha, -⟩
    · exact hsame
    · cases ha
  refine ⟨fun e he => (h.budget e he).set hcall (fun hx => ?_) (fun hk => ?_) fun _ hx => ?_,
    fun c hc x hx => ?_⟩
  · rw [← hsame]
    exact hx
  · rcases hcases.unreported hk with hk | ⟨_, _, ha, -⟩
    · exact hk
    · cases ha
  · rcases hcases.compensates hx with hx | ⟨_, _, _, _, ha, -⟩
    · exact ⟨halive, hx⟩
    · cases ha
  · rcases List.mem_or_eq_of_mem_set hc with hc | rfl
    · exact h.known c hc x hx
    · rw [hsame] at hx
      exact h.known call (List.mem_of_getElem? hcall) x hx

/-- A transaction that raises ends its call. -/
theorem Budgets.raised {m : Nat} (h : Budgets m st) (hcall : st.calls[index]? = some call)
    {r : RuntimeState} (hdb : r.db = st.runtime.db) :
    Budgets m (st.setCall index call.raised r) := by
  refine ⟨fun e he => ?_, fun c hc x hx => ?_⟩
  · have he' : e ∈ st.runtime.db.taskExecutions := hdb ▸ he
    exact (h.budget e he').set hcall (fun hx => hx) (fun hk => hk) nofun
  · show ExecutionExists r.db x
    rw [hdb]
    rcases List.mem_or_eq_of_mem_set hc with hc | rfl
    · exact h.known c hc x hx
    · exact h.known call (List.mem_of_getElem? hcall) x hx

theorem Budgets.committed {b : RuntimeAction} {r : RuntimeState} {y : Option Snapshot} {db' : Db}
    {action : CallAction} (h : Budgets config.settings.maxCompensationAttempts st)
    (hok : ReportedInTurn config st (.call index action)) (hcall : st.calls[index]? = some call)
    (halive : call.alive = true) (hcases : CallStep config st.runtime.db call (some b) call')
    (htx : st.transaction config (.call index action) = some b)
    (hexists : ∀ x, ExecutionExists st.runtime.db x → ExecutionExists r.db x)
    (hy : b.transaction config st.runtime.db = .ok (y, db')) (hdb : r.db = db') :
    Budgets config.settings.maxCompensationAttempts (st.setCall index call' r) := by
  have hpos := config.settings.maxCompensationAttempts_pos
  -- an execution that is not the snapshot's gains no attempt by this call
  have hattempted : ∀ x, (∀ s, b.snapshot? = some s → x ≠ s.executionId) →
      call'.attempted = some x → call.attempted = some x := by
    intro x hne hx
    rcases hcases.attempted with hsame | ⟨clock, s, _, _, ha, -, hs, -⟩
    · rw [← hsame]
      exact hx
    · obtain rfl := Option.some.inj ha
      exact absurd (Option.some.inj (hx.symm.trans hs)) (hne s rfl)
  refine ⟨fun e he => ?_, fun c hc x hx => ?_⟩
  · rcases (transaction_executions hy).row (hdb ▸ he) with ⟨hold, hne⟩ |
      ⟨s, e₀, hs, hget, hwrites⟩ | ⟨hnone, e₀, he₀, hrun, rfl⟩ | ⟨hnone, hnew, hrun, hcount⟩
    · refine (h.budget e hold).set hcall (hattempted _ hne) (fun hk => ?_) fun _ hx => ?_
      · rcases hcases.unreported hk with hk | ⟨b', s, ha, hs, hid⟩
        · exact hk
        · obtain rfl := Option.some.inj ha
          exact absurd hid.symm (hne s hs)
      · rcases hcases.compensates hx with hx | ⟨clock, s, _, _, ha, -, hid⟩
        · exact ⟨halive, hx⟩
        · obtain rfl := Option.some.inj ha
          exact absurd hid.symm (hne s rfl)
    · have hbudget := h.budget e₀ (Table.mem_of_get? hget)
      refine hbudget.written hcall hcases hy hs hget hwrites (fun clock hb => ?_)
        fun newEventId clock eventId error attempt hb hle => ?_
      · subst hb
        simp only [ReportedInTurn, htx] at hok
        cases hwrites with
        | counted _ _ hst => exact hok ⟨e₀, hget, hst⟩
      · subst hb
        simp only [ReportedInTurn, htx] at hok
        cases hwrites with
        | scheduled _ _ _ _ _ _ hst => exact hok ⟨e₀, hget, hst⟩ hle
        | locked _ _ _ _ _ _ hst => exact hok ⟨e₀, hget, hst⟩ hle
    · refine (h.budget e₀ he₀).stopped hpos (attemptsBegun_set_le hcall ?_) rfl rfl hrun rfl
      refine hattempted _ fun s hs => ?_
      rw [hnone] at hs
      cases hs
    · -- nobody has attempted to compensate an execution before it exists
      have hzero : attemptsBegun (st.calls.set index call') e.executionId = 0 := by
        refine List.countP_eq_zero.mpr fun c hc => ?_
        rw [decide_eq_true_eq]
        intro hx
        have hknown : ExecutionExists st.runtime.db e.executionId := by
          rcases List.mem_or_eq_of_mem_set hc with hc | rfl
          · exact h.known c hc _ hx
          · refine h.known call (List.mem_of_getElem? hcall) _ (hattempted _ (fun s hs => ?_) hx)
            rw [hnone] at hs
            cases hs
        obtain ⟨x, hx, hid⟩ := hknown
        exact hnew x hx hid
      refine ⟨fun _ => hcount, ?_, by omega, fun hst => ?_, fun hst => ?_⟩
      · show attemptsBegun (st.calls.set index call') e.executionId ≤ _
        omega
      · rw [hrun] at hst
        cases hst
      · rw [hrun] at hst
        cases hst
  · refine hexists x ?_
    rcases List.mem_or_eq_of_mem_set hc with hc | rfl
    · exact h.known c hc x hx
    · rcases hcases.attempted with hsame | ⟨clock, s, n, _, -, hbegin, hs, -⟩
      · rw [hsame] at hx
        exact h.known call (List.mem_of_getElem? hcall) x hx
      · obtain ⟨p, t, e, htoken, -, -⟩ := beginCompensationAttempt_cases hbegin
        obtain ⟨-, -, he, -⟩ := lockCompensationToken_eq_ok.mp htoken
        obtain ⟨hem, hid⟩ := Table.get?_eq_some.mp he
        exact ⟨e, hem, hid.trans (Option.some.inj (hs.symm.trans hx))⟩

/-- **The step.** -/
theorem Budgets.step {st' : WorkerState} {act : WorkerAction}
    (hreach : (runtime config).Reachable st.runtime)
    (h : Budgets config.settings.maxCompensationAttempts st) (hok : ReportedInTurn config st act)
    (hstep : (workers config).step st act = some st') :
    Budgets config.settings.maxCompensationAttempts st' := by
  cases workers_step_cases hstep with
  | planned a r _ hplan hr =>
    have hsame := planning_executions hplan hr
    refine ⟨fun e he => h.budget e (hsame ▸ he), fun c hc x hx => ?_⟩
    obtain ⟨e, he, hid⟩ := h.known c hc x hx
    exact ⟨e, hsame ▸ he, hid⟩
  | delivered input =>
    refine ⟨fun e he => ?_, fun c hc x hx => ?_⟩
    · have hbudget := h.budget e he
      refine ⟨hbudget.unattempted, ?_, hbudget.bounded, fun hst hm => ?_,
        fun hst c hc halive => ?_⟩
      · simpa [attemptsBegun, Call.arrive] using hbudget.counted
      · obtain ⟨c, hc, hk⟩ := hbudget.unreported hst hm
        exact ⟨c, List.mem_append_left _ hc, hk⟩
      · rcases List.mem_append.mp hc with hc | hc
        · exact hbudget.locked hst c hc halive
        · rw [List.mem_singleton.mp hc]
          nofun
    · rcases List.mem_append.mp hc with hc | hc
      · exact h.known c hc x hx
      · rw [List.mem_singleton.mp hc] at hx
        cases hx
  | moved index action call call' _ hcall halive hcases => exact h.moved hcall halive hcases
  | committed index action call call' b r hact hcall halive hcases htx hr =>
    subst hact
    have hexists := (runtime_step_effects (reachable_owned hreach) hr).executionsFollow.exists
    rcases runtime_step_cases hr with ⟨y, db', hy, hdb, -⟩ | ⟨f, hf, hdb, -⟩
    · exact h.committed hok hcall halive hcases htx hexists hy hdb
    · rw [hcases.of_error hf]
      exact h.raised hcall hdb

theorem reachable_budgets (h : (workers config).ReachableVia (ReportedInTurn config) st) :
    Budgets config.settings.maxCompensationAttempts st := by
  refine h.invariant (P := Budgets config.settings.maxCompensationAttempts) ?_
    fun _ _ _ hr hb hok hs => hb.step (workers_runtime_reachable hr) hok hs
  rintro s ⟨⟨-, -, -, he, -⟩, hcalls⟩
  exact ⟨by simp [Table.mem_iff, he], by simp [hcalls]⟩

end Runs

/-- **Bounded compensation**: in every run in which no attempt begins before the last
admissible one has been reported, the compensator of an execution is invoked at most
`max_compensation_attempts` times and no more attempts are counted.  Once the last attempt is
reported, the execution does not wait for its compensation any more, and no living call
compensates an execution that is locked. -/
theorem bounded_compensation (config : RuntimeConfig) (st : WorkerState)
    (h : (workers config).ReachableVia (ReportedInTurn config) st) :
    ∀ e ∈ st.runtime.db.taskExecutions,
      invocations st.calls e.executionId ≤ config.settings.maxCompensationAttempts ∧
      e.compensationAttemptCount ≤ config.settings.maxCompensationAttempts ∧
      (e.compensationAttemptCount = config.settings.maxCompensationAttempts →
        (∀ c ∈ st.calls, c.phase.unreported? ≠
          some (e.executionId, config.settings.maxCompensationAttempts)) →
        e.status ≠ .compensationRequired) ∧
      (e.status = .compensationLocked → ∀ c ∈ st.calls, c.alive = true →
        c.phase.compensates? ≠ some e.executionId) := by
  intro e he
  have hbudget := (reachable_budgets h).budget e he
  refine ⟨?_, hbudget.bounded, fun hm hreported hst => ?_, hbudget.locked⟩
  · calc invocations st.calls e.executionId
        ≤ attemptsBegun st.calls e.executionId := invocations_le _ _
      _ ≤ e.compensationAttemptCount := hbudget.counted
      _ ≤ config.settings.maxCompensationAttempts := hbudget.bounded
  · obtain ⟨c, hc, hk⟩ := hbudget.unreported hst hm
    exact hreported c hc hk

/-! ## Attempts that crash -/

/-- The lease wake-up is delivered; the call counts an attempt, invokes the compensator and
crashes. -/
def crashAttempt (index : Nat) : List WorkerAction :=
  [ .deliver ⟨1, some 2, none, none⟩, .call index .check,
    .call index (.claim ⟨index + 1, index + 1, index + 1, index + 2⟩ (.at (timedelta 300))),
    .call index (.begin (.at (timedelta 300))), .call index .invokeCompensator,
    .call index .crash ]

/-- The worker of the first task crashes, and so do the next six that are delivered the lease
wake-up. -/
def crashedAttempts : WorkerState :=
  ((workers defaultConfig).run noWorkers
    (crashFirstWorker ++ [1, 2, 3, 4, 5, 6].flatMap crashAttempt)).getD noWorkers

/-- **Crashes exceed the bound**: with `max_compensation_attempts = 5`, the compensator of one
execution is invoked six times, and six attempts are counted. -/
theorem crashes_exceed_bound :
    (workers defaultConfig).Reachable crashedAttempts ∧
      defaultConfig.settings.maxCompensationAttempts = 5 ∧
      invocations crashedAttempts.calls 1 = 6 ∧ compensationAttempts crashedAttempts 1 = some 6 := by
  have hrun : (workers defaultConfig).run noWorkers
      (crashFirstWorker ++ [1, 2, 3, 4, 5, 6].flatMap crashAttempt) = some crashedAttempts := rfl
  exact ⟨workers_reachable_of_run (.of_run hrun), rfl, by decide, by decide⟩

/-- The deployed settings with a single compensation attempt. -/
def oneAttemptConfig : RuntimeConfig :=
  { defaultConfig with
    settings := { RuntimeSettings.default with
      maxCompensationAttempts := 1
      maxCompensationAttempts_pos := by decide } }

/-- The executor fails, and so does the only attempt to compensate it. -/
def lockFirstTask : List WorkerAction :=
  publishTwoTasks.map .plan ++
    [ .deliver ⟨1, some 1, none, none⟩, .call 0 .check, .call 0 (.claim ⟨1, 1, 1, 2⟩ (.at 0)),
      .call 0 .startExecutor, .call 0 (.endExecutor (.failed ⟨"timeout", "", true, false⟩)),
      .call 0 (.report 3 (.at (timedelta 300))), .call 0 (.begin (.at (timedelta 300))),
      .call 0 .invokeCompensator, .call 0 (.endCompensator (some "unreachable")),
      .call 0 (.conclude 4 (.at (timedelta 300))) ]

def firstTaskLocked : WorkerState :=
  ((workers oneAttemptConfig).run noWorkers lockFirstTask).getD noWorkers

theorem firstTaskLocked_bounded :
    ∃ e ∈ firstTaskLocked.runtime.db.taskExecutions, e.status = .compensationLocked ∧
      invocations firstTaskLocked.calls e.executionId ≤ 1 ∧ e.compensationAttemptCount ≤ 1 := by
  have hrun : (workers oneAttemptConfig).runWhile (ReportedInTurn oneAttemptConfig) noWorkers
      lockFirstTask = some firstTaskLocked := rfl
  have hreach := workers_reachable_of_run (.of_runWhile hrun)
  have hlen : 0 < firstTaskLocked.runtime.db.taskExecutions.rows.length := by decide
  have hbound := bounded_compensation oneAttemptConfig firstTaskLocked hreach _
    (List.getElem_mem hlen)
  exact ⟨_, List.getElem_mem hlen, rfl, hbound.1, hbound.2.1⟩

end DocFlow.TaskRuntime
