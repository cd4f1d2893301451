import DocFlow.TaskRuntime.System

/-!
# Who owns a plan

The ownership invariant of the runtime: a plan has a current task exactly when one of
its tasks is running, a running task has exactly one live execution, its latest, and
the executions of a task are numbered from one without gaps.

`Consistent` is the invariant as it is carried through the effects, row by row;
`Effect.consistent` is the step and `reachable_consistent` the run.
-/

namespace DocFlow.TaskRuntime

/-! ## The invariant -/

/-- The statuses from which a claim can still start a task, now or later. -/
def isWaiting : TaskStatus → Bool
  | .draft | .pending | .retryWait => true
  | _ => false

/-- The statuses in which a plan may have asked for a revision. -/
def isClosed : PlanStatus → Bool
  | .replanPending | .retryPending | .needsClarification | .superseded | .failed => true
  | _ => false

/-- How often a task may have been attempted. -/
structure AttemptsBounded (registry : CapabilityRegistry) (t : Task) : Prop where
  bound : (t.attemptCount : Int) ≤ max 1 t.maxAttempts
  configured : 0 < t.attemptCount →
    ∃ d, registry.get? t.capabilityCode = some d ∧ t.maxAttempts = d.maxAttempts
  waiting : isWaiting t.status = true → 0 < t.attemptCount → (t.attemptCount : Int) < t.maxAttempts

/-- The ownership invariant of the tables. -/
structure Consistent (registry : CapabilityRegistry) (db : Db) : Prop where
  planOfTask : ∀ t ∈ db.tasks, ∃ p ∈ db.plans, p.planId = t.planId
  current : ∀ p ∈ db.plans, ∀ T, p.currentTaskId = some T →
    p.status = .running ∧ ∃ t ∈ db.tasks, t.taskId = T ∧ t.planId = p.planId ∧ t.status = .running
  running : ∀ t ∈ db.tasks, t.status = .running → ∀ p ∈ db.plans, p.planId = t.planId →
    p.currentTaskId = some t.taskId
  taskOfExecution : ∀ e ∈ db.taskExecutions, ∃ t ∈ db.tasks, t.taskId = e.taskId ∧
    t.planId = e.planId ∧ 1 ≤ e.attempt ∧ e.attempt ≤ t.attemptCount
  attempts : ∀ t ∈ db.tasks, ∀ k, 1 ≤ k → k ≤ t.attemptCount →
    ∃ e ∈ db.taskExecutions, e.taskId = t.taskId ∧ e.attempt = k
  unique : ∀ e ∈ db.taskExecutions, ∀ e' ∈ db.taskExecutions, e.taskId = e'.taskId →
    e.attempt = e'.attempt → e = e'
  active : ∀ t ∈ db.tasks, ∀ e ∈ db.taskExecutions, e.taskId = t.taskId →
    (isActive e.status = true ↔ t.status = .running ∧ e.attempt = t.attemptCount)
  bounded : ∀ t ∈ db.tasks, AttemptsBounded registry t
  started : ∀ t ∈ db.tasks, t.status = .running → 1 ≤ t.attemptCount
  replanned : ∀ ev ∈ db.outbox, ev.eventType = .replanRequested → ∀ r, ev.payload = .replan r →
    ∃ p ∈ db.plans, p.planId = r.previousPlanId ∧ isClosed p.status = true

namespace Consistent

variable {registry : CapabilityRegistry} {db db' : Db}

/-- The execution with the highest attempt of a task is the latest one. -/
theorem latest (h : Consistent registry db) {t : Task} (ht : t ∈ db.tasks) {e : TaskExecution}
    (he : e ∈ db.taskExecutions) (hte : e.taskId = t.taskId) (hk : e.attempt = t.attemptCount) :
    db.getLatestByTask t.taskId = some e := by
  rw [← hte]
  refine Db.getLatestByTask_of_max he fun x hx hxt hne => ?_
  obtain ⟨t', ht', htx, -, -, hle⟩ := h.taskOfExecution x hx
  have htt : t' = t := Table.eq_of_key ht' ht (by rw [htx, hxt, hte])
  rw [htt] at hle
  have hxk : x.attempt ≠ e.attempt := fun hxe => hne (h.unique x hx e he hxt hxe)
  omega

/-- Two running tasks of one plan are one task. -/
theorem running_unique (h : Consistent registry db) {t t' : Task} (ht : t ∈ db.tasks)
    (ht' : t' ∈ db.tasks) (hp : t.planId = t'.planId) (hr : t.status = .running)
    (hr' : t'.status = .running) : t = t' := by
  obtain ⟨p, hpm, hpt⟩ := h.planOfTask t ht
  have h₁ := h.running t ht hr p hpm hpt
  have h₂ := h.running t' ht' hr' p hpm (hpt.trans hp)
  exact Table.eq_of_key ht ht' (Option.some.inj (h₁.symm.trans h₂))

/-! ## Rows that change in place -/

/-- A plan row rewritten without touching its ownership. -/
structure PlanKept (p p' : Plan) : Prop where
  planId : p'.planId = p.planId
  currentTaskId : p'.currentTaskId = p.currentTaskId
  running : p.status = .running → p.currentTaskId ≠ none → p'.status = .running
  closed : isClosed p.status = true → isClosed p'.status = true

/-- A task row rewritten without starting or ending an attempt. -/
structure TaskKept (t t' : Task) : Prop where
  taskId : t'.taskId = t.taskId
  planId : t'.planId = t.planId
  capabilityCode : t'.capabilityCode = t.capabilityCode
  attemptCount : t'.attemptCount = t.attemptCount
  maxAttempts : t'.maxAttempts = t.maxAttempts
  running : t'.status = .running ↔ t.status = .running
  waiting : isWaiting t'.status = true → isWaiting t.status = true

/-- An execution row rewritten without leaving or entering the active statuses. -/
structure ExecutionKept (e e' : TaskExecution) : Prop where
  executionId : e'.executionId = e.executionId
  taskId : e'.taskId = e.taskId
  planId : e'.planId = e.planId
  attempt : e'.attempt = e.attempt
  active : isActive e'.status = isActive e.status

theorem PlanKept.refl (p : Plan) : PlanKept p p := ⟨rfl, rfl, fun h _ => h, id⟩

theorem TaskKept.refl (t : Task) : TaskKept t t := ⟨rfl, rfl, rfl, rfl, rfl, Iff.rfl, id⟩

theorem ExecutionKept.refl (e : TaskExecution) : ExecutionKept e e := ⟨rfl, rfl, rfl, rfl, rfl⟩

theorem TaskKept.bounded {t t' : Task} (h : TaskKept t t') (hb : AttemptsBounded registry t) :
    AttemptsBounded registry t' := by
  refine ⟨?_, ?_, ?_⟩
  · rw [h.attemptCount, h.maxAttempts]
    exact hb.bound
  · rw [h.attemptCount, h.maxAttempts, h.capabilityCode]
    exact hb.configured
  · intro hw hpos
    rw [h.attemptCount] at hpos
    rw [h.attemptCount, h.maxAttempts]
    exact hb.waiting (h.waiting hw) hpos

/-- **Rows rewritten in place keep the invariant.** -/
theorem rewrite (h : Consistent registry db) (hp : Table.Corr PlanKept db.plans db'.plans)
    (ht : Table.Corr TaskKept db.tasks db'.tasks)
    (he : Table.Corr ExecutionKept db.taskExecutions db'.taskExecutions)
    (hout : ∀ ev ∈ db'.outbox, ev.eventType = .replanRequested → ev ∈ db.outbox) :
    Consistent registry db' where
  planOfTask := by
    intro t' ht'
    obtain ⟨t, htm, hk⟩ := ht.back t' ht'
    obtain ⟨p, hpm, hpt⟩ := h.planOfTask t htm
    obtain ⟨p', hpm', hpk⟩ := hp.forth p hpm
    exact ⟨p', hpm', by rw [hpk.planId, hpt, hk.planId]⟩
  current := by
    intro p' hp' T hT
    obtain ⟨p, hpm, hpk⟩ := hp.back p' hp'
    rw [hpk.currentTaskId] at hT
    obtain ⟨hrun, t, htm, hid, hpl, hst⟩ := h.current p hpm T hT
    obtain ⟨t', htm', hk⟩ := ht.forth t htm
    refine ⟨hpk.running hrun (by simp [hT]), t', htm', ?_, ?_, hk.running.mpr hst⟩
    · rw [hk.taskId, hid]
    · rw [hk.planId, hpl, hpk.planId]
  running := by
    intro t' ht' hst p' hp' hpl
    obtain ⟨t, htm, hk⟩ := ht.back t' ht'
    obtain ⟨p, hpm, hpk⟩ := hp.back p' hp'
    rw [hpk.currentTaskId, hk.taskId]
    exact h.running t htm (hk.running.mp hst) p hpm (by rw [← hpk.planId, hpl, hk.planId])
  taskOfExecution := by
    intro e' he'
    obtain ⟨e, hem, hek⟩ := he.back e' he'
    obtain ⟨t, htm, h₁, h₂, h₃, h₄⟩ := h.taskOfExecution e hem
    obtain ⟨t', htm', hk⟩ := ht.forth t htm
    refine ⟨t', htm', ?_, ?_, ?_, ?_⟩
    · rw [hk.taskId, h₁, hek.taskId]
    · rw [hk.planId, h₂, hek.planId]
    · rw [hek.attempt]
      exact h₃
    · rw [hek.attempt, hk.attemptCount]
      exact h₄
  attempts := by
    intro t' ht' k hk₁ hk₂
    obtain ⟨t, htm, hk⟩ := ht.back t' ht'
    rw [hk.attemptCount] at hk₂
    obtain ⟨e, hem, h₁, h₂⟩ := h.attempts t htm k hk₁ hk₂
    obtain ⟨e', hem', hek⟩ := he.forth e hem
    exact ⟨e', hem', by rw [hek.taskId, h₁, hk.taskId], by rw [hek.attempt, h₂]⟩
  unique := by
    intro x' hx' y' hy' h₁ h₂
    obtain ⟨x, hx, hxk⟩ := he.back x' hx'
    obtain ⟨y, hy, hyk⟩ := he.back y' hy'
    rw [hxk.taskId, hyk.taskId] at h₁
    rw [hxk.attempt, hyk.attempt] at h₂
    have hxy := h.unique x hx y hy h₁ h₂
    exact Table.eq_of_key hx' hy' (by rw [hxk.executionId, hyk.executionId, hxy])
  active := by
    intro t' ht' e' he' hte
    obtain ⟨t, htm, hk⟩ := ht.back t' ht'
    obtain ⟨e, hem, hek⟩ := he.back e' he'
    rw [hek.active, hek.attempt, hk.attemptCount, hk.running]
    exact h.active t htm e hem (by rw [← hek.taskId, hte, hk.taskId])
  bounded := by
    intro t' ht'
    obtain ⟨t, htm, hk⟩ := ht.back t' ht'
    exact hk.bounded (h.bounded t htm)
  started := by
    intro t' ht' hst
    obtain ⟨t, htm, hk⟩ := ht.back t' ht'
    rw [hk.attemptCount]
    exact h.started t htm (hk.running.mp hst)
  replanned := by
    intro ev hev htype r hr
    obtain ⟨p, hpm, hid, hclosed⟩ := h.replanned ev (hout ev hev htype) htype r hr
    obtain ⟨p', hpm', hpk⟩ := hp.forth p hpm
    exact ⟨p', hpm', by rw [hpk.planId, hid], hpk.closed hclosed⟩

/-! ## Rows that are added -/

theorem planCreated (h : Consistent registry db) {p : Plan} (hcur : p.currentTaskId = none)
    (hp : db.plans.insert p = some db'.plans) (ht : db'.tasks = db.tasks)
    (he : db'.taskExecutions = db.taskExecutions) (ho : db'.outbox = db.outbox) :
    Consistent registry db' where
  planOfTask := by
    intro t htm
    rw [ht] at htm
    obtain ⟨q, hq, hqt⟩ := h.planOfTask t htm
    exact ⟨q, (Table.mem_insert hp).mpr (.inl hq), hqt⟩
  current := by
    intro q hq T hT
    rcases (Table.mem_insert hp).mp hq with hq | rfl
    · rw [ht]
      exact h.current q hq T hT
    · rw [hcur] at hT
      cases hT
  running := by
    intro t htm hst q hq hqt
    rw [ht] at htm
    rcases (Table.mem_insert hp).mp hq with hq | rfl
    · exact h.running t htm hst q hq hqt
    · -- the task has a plan already, and the key of a new plan is new
      obtain ⟨q', hq', hqt'⟩ := h.planOfTask t htm
      exact absurd (hqt'.trans hqt.symm) (Table.key_not_mem_of_insert hp hq')
  taskOfExecution := by
    rw [ht, he]
    exact h.taskOfExecution
  attempts := by
    rw [ht, he]
    exact h.attempts
  unique := by
    rw [he]
    exact h.unique
  active := by
    rw [ht, he]
    exact h.active
  bounded := by
    rw [ht]
    exact h.bounded
  started := by
    rw [ht]
    exact h.started
  replanned := by
    intro ev hev htype r hr
    rw [ho] at hev
    obtain ⟨q, hq, hqr, hclosed⟩ := h.replanned ev hev htype r hr
    exact ⟨q, (Table.mem_insert hp).mpr (.inl hq), hqr, hclosed⟩

theorem taskCreated (h : Consistent registry db) {p : Plan} {t : Task} (hp : p ∈ db.plans)
    (htp : t.planId = p.planId) (hst : t.status = .draft) (hk : t.attemptCount = 0)
    (hplans : db'.plans = db.plans) (ht : db.tasks.insert t = some db'.tasks)
    (he : db'.taskExecutions = db.taskExecutions) (ho : db'.outbox = db.outbox) :
    Consistent registry db' where
  planOfTask := by
    intro x hx
    rw [hplans]
    rcases (Table.mem_insert ht).mp hx with hx | rfl
    · exact h.planOfTask x hx
    · exact ⟨p, hp, htp.symm⟩
  current := by
    intro q hq T hT
    rw [hplans] at hq
    obtain ⟨hrun, x, hx, hid, hpl, hxst⟩ := h.current q hq T hT
    exact ⟨hrun, x, (Table.mem_insert ht).mpr (.inl hx), hid, hpl, hxst⟩
  running := by
    intro x hx hxst
    rw [hplans]
    rcases (Table.mem_insert ht).mp hx with hx | rfl
    · exact h.running x hx hxst
    · rw [hst] at hxst
      cases hxst
  taskOfExecution := by
    intro e hem
    rw [he] at hem
    obtain ⟨x, hx, hrest⟩ := h.taskOfExecution e hem
    exact ⟨x, (Table.mem_insert ht).mpr (.inl hx), hrest⟩
  attempts := by
    intro x hx k hk₁ hk₂
    rw [he]
    rcases (Table.mem_insert ht).mp hx with hx | rfl
    · exact h.attempts x hx k hk₁ hk₂
    · omega
  unique := by
    rw [he]
    exact h.unique
  active := by
    intro x hx e hem hex
    rw [he] at hem
    rcases (Table.mem_insert ht).mp hx with hx | rfl
    · exact h.active x hx e hem hex
    · -- no execution refers to a task that is only now created
      obtain ⟨y, hy, hye, -⟩ := h.taskOfExecution e hem
      exact absurd (hye.trans hex) (Table.key_not_mem_of_insert ht hy)
  bounded := by
    intro x hx
    rcases (Table.mem_insert ht).mp hx with hx | rfl
    · exact h.bounded x hx
    · refine ⟨?_, fun hpos => ?_, fun _ hpos => ?_⟩ <;> omega
  started := by
    intro x hx hxst
    rcases (Table.mem_insert ht).mp hx with hx | rfl
    · exact h.started x hx hxst
    · rw [hst] at hxst
      cases hxst
  replanned := by
    rw [hplans, ho]
    exact h.replanned

/-! ## An attempt that starts or ends -/

theorem attemptStarted (h : Consistent registry db) {p : Plan} {t : Task}
    {d : CapabilityDefinition} {ids : ClaimIds} {clock : Clock} (hp : p ∈ db.plans)
    (hcur : p.currentTaskId = none) (hpst : p.status = .ready ∨ p.status = .running)
    (ht : t ∈ db.tasks) (htp : t.planId = p.planId) (hst : t.status = .pending)
    (hd : registry.get? t.capabilityCode = some d)
    (hplans : db'.plans = db.plans.save (startPlan clock t p))
    (htasks : db'.tasks = db.tasks.save (startTask d clock t))
    (hexecs : db.taskExecutions.insert (newExecution d ids clock p (startTask d clock t)) =
      some db'.taskExecutions)
    (hout : ∀ ev ∈ db'.outbox, ev.eventType = .replanRequested → ev ∈ db.outbox) :
    Consistent registry db' := by
  have memPlan : ∀ q, q ∈ db'.plans ↔ q = startPlan clock t p ∨ (q ∈ db.plans ∧ q ≠ p) := by
    intro q
    rw [hplans]
    exact Table.mem_save_of_mem hp rfl
  have memTask : ∀ x, x ∈ db'.tasks ↔ x = startTask d clock t ∨ (x ∈ db.tasks ∧ x ≠ t) := by
    intro x
    rw [htasks]
    exact Table.mem_save_of_mem ht rfl
  have memExec : ∀ e, e ∈ db'.taskExecutions ↔
      e ∈ db.taskExecutions ∨ e = newExecution d ids clock p (startTask d clock t) :=
    fun e => Table.mem_insert hexecs
  -- the plan has no current task, so none of its tasks is running
  have hidle : ∀ x ∈ db.tasks, x.planId = p.planId → x.status ≠ .running := by
    intro x hx hxp hxst
    have := h.running x hx hxst p hp hxp.symm
    rw [hcur] at this
    cases this
  have hneTask : ∀ x ∈ db.tasks, x ≠ t → x.taskId ≠ t.taskId :=
    fun x hx hne hid => hne (Table.eq_of_key hx ht hid)
  have hnePlan : ∀ q ∈ db.plans, q ≠ p → q.planId ≠ p.planId :=
    fun q hq hne hid => hne (Table.eq_of_key hq hp hid)
  constructor
  case planOfTask =>
    intro x hx
    have hplan : ∃ q ∈ db.plans, q.planId = x.planId := by
      rcases (memTask x).mp hx with rfl | ⟨hx, -⟩
      · exact ⟨p, hp, htp.symm⟩
      · exact h.planOfTask x hx
    obtain ⟨q, hq, hqx⟩ := hplan
    by_cases hqp : q = p
    · exact ⟨startPlan clock t p, (memPlan _).mpr (.inl rfl), by rw [← hqx, hqp]; rfl⟩
    · exact ⟨q, (memPlan _).mpr (.inr ⟨hq, hqp⟩), hqx⟩
  case current =>
    intro q hq T hT
    rcases (memPlan q).mp hq with rfl | ⟨hq, hqp⟩
    · obtain rfl : t.taskId = T := Option.some.inj hT
      exact ⟨rfl, startTask d clock t, (memTask _).mpr (.inl rfl), rfl, htp, rfl⟩
    · obtain ⟨hrun, x, hx, hid, hpl, hxst⟩ := h.current q hq T hT
      refine ⟨hrun, x, (memTask x).mpr (.inr ⟨hx, ?_⟩), hid, hpl, hxst⟩
      intro hxt
      rw [hxt, hst] at hxst
      cases hxst
  case running =>
    intro x hx hxst q hq hqx
    rcases (memTask x).mp hx with rfl | ⟨hx, hxt⟩
    · rcases (memPlan q).mp hq with rfl | ⟨hq, hqp⟩
      · rfl
      · exact absurd (hqx.trans htp) (hnePlan q hq hqp)
    · rcases (memPlan q).mp hq with rfl | ⟨hq, hqp⟩
      · exact absurd hxst (hidle x hx hqx.symm)
      · exact h.running x hx hxst q hq hqx
  case taskOfExecution =>
    intro e he
    rcases (memExec e).mp he with he | rfl
    · obtain ⟨x, hx, h₁, h₂, h₃, h₄⟩ := h.taskOfExecution e he
      by_cases hxt : x = t
      · subst hxt
        refine ⟨startTask d clock x, (memTask _).mpr (.inl rfl), h₁, h₂, h₃, ?_⟩
        exact Nat.le_succ_of_le h₄
      · exact ⟨x, (memTask x).mpr (.inr ⟨hx, hxt⟩), h₁, h₂, h₃, h₄⟩
    · exact ⟨startTask d clock t, (memTask _).mpr (.inl rfl), rfl, htp, Nat.succ_pos _, le_rfl⟩
  case attempts =>
    intro x hx k hk₁ hk₂
    rcases (memTask x).mp hx with rfl | ⟨hx, -⟩
    · rcases Nat.lt_or_ge t.attemptCount k with hlt | hle
      · have hk : t.attemptCount + 1 = k := by
          have : k ≤ t.attemptCount + 1 := hk₂
          omega
        exact ⟨_, (memExec _).mpr (.inr rfl), rfl, hk⟩
      · obtain ⟨e, he, h₁, h₂⟩ := h.attempts t ht k hk₁ hle
        exact ⟨e, (memExec e).mpr (.inl he), h₁, h₂⟩
    · obtain ⟨e, he, h₁, h₂⟩ := h.attempts x hx k hk₁ hk₂
      exact ⟨e, (memExec e).mpr (.inl he), h₁, h₂⟩
  case unique =>
    -- the new attempt is above every old one
    have hnew : ∀ e ∈ db.taskExecutions, e.taskId = t.taskId → e.attempt ≠ t.attemptCount + 1 := by
      intro e he het hek
      obtain ⟨x, hx, h₁, -, -, h₄⟩ := h.taskOfExecution e he
      have hxt : x = t := Table.eq_of_key hx ht (h₁.trans het)
      rw [hxt] at h₄
      omega
    intro e he e' he' h₁ h₂
    rcases (memExec e).mp he with he | rfl
    · rcases (memExec e').mp he' with he' | rfl
      · exact h.unique e he e' he' h₁ h₂
      · exact absurd h₂ (hnew e he h₁)
    · rcases (memExec e').mp he' with he' | rfl
      · exact absurd h₂.symm (hnew e' he' h₁.symm)
      · rfl
  case active =>
    intro x hx e he hex
    rcases (memTask x).mp hx with rfl | ⟨hx, hxt⟩
    · rcases (memExec e).mp he with he | rfl
      · -- an older attempt: the task was not running, so it is closed
        have hinactive : ¬ isActive e.status = true := by
          intro hact
          have hrun := ((h.active t ht e he hex).mp hact).1
          rw [hst] at hrun
          cases hrun
        have hlt : e.attempt ≠ t.attemptCount + 1 := by
          obtain ⟨y, hy, h₁, -, -, h₄⟩ := h.taskOfExecution e he
          have hyt : y = t := Table.eq_of_key hy ht (h₁.trans hex)
          rw [hyt] at h₄
          omega
        exact iff_of_false hinactive fun hrun => hlt hrun.2
      · exact iff_of_true rfl ⟨rfl, rfl⟩
    · rcases (memExec e).mp he with he | rfl
      · exact h.active x hx e he hex
      · exact absurd hex.symm (hneTask x hx hxt)
  case bounded =>
    intro x hx
    rcases (memTask x).mp hx with rfl | ⟨hx, -⟩
    · have hb := h.bounded t ht
      refine ⟨?_, fun _ => ⟨d, hd, rfl⟩, fun hw => by cases hw⟩
      show ((t.attemptCount + 1 : Nat) : Int) ≤ max 1 d.maxAttempts
      rcases Nat.eq_zero_or_pos t.attemptCount with hz | hpos
      · rw [hz]
        exact le_max_left _ _
      · obtain ⟨d', hd', hmax⟩ := hb.configured hpos
        obtain rfl : d = d' := Option.some.inj (hd.symm.trans hd')
        have hlt := hb.waiting (by rw [hst]; rfl) hpos
        rw [hmax] at hlt
        have hle : ((t.attemptCount + 1 : Nat) : Int) ≤ d.maxAttempts := by omega
        exact le_trans hle (le_max_right _ _)
    · exact h.bounded x hx
  case started =>
    intro x hx hxst
    rcases (memTask x).mp hx with rfl | ⟨hx, -⟩
    · exact Nat.succ_pos _
    · exact h.started x hx hxst
  case replanned =>
    intro ev hev htype r hr
    obtain ⟨q, hq, hqr, hclosed⟩ := h.replanned ev (hout ev hev htype) htype r hr
    refine ⟨q, (memPlan q).mpr (.inr ⟨hq, ?_⟩), hqr, hclosed⟩
    intro hqp
    rw [hqp] at hclosed
    rcases hpst with hp' | hp' <;> rw [hp'] at hclosed <;> cases hclosed

theorem attemptEnded (h : Consistent registry db) {p p' : Plan} {t t' : Task}
    {e e' : TaskExecution} (hp : p ∈ db.plans) (ht : t ∈ db.tasks) (he : e ∈ db.taskExecutions)
    (hcur : p.currentTaskId = some t.taskId) (hst : t.status = .running)
    (hte : e.taskId = t.taskId) (hact : isActive e.status = true)
    (hpid : p'.planId = p.planId) (hcur' : p'.currentTaskId = none) (hst' : t'.status ≠ .running)
    (hinact : isActive e'.status = false) (hwait : isWaiting t'.status = true →
      (t.attemptCount : Int) < t.maxAttempts) (hsame : SameTask t t') (hsamee : SameAttempt e e')
    (hplans : db'.plans = db.plans.save p') (htasks : db'.tasks = db.tasks.save t')
    (hexecs : db'.taskExecutions = db.taskExecutions.save e')
    (hout : ∀ ev ∈ db'.outbox, ev.eventType = .replanRequested → ev ∈ db.outbox ∨
      (isClosed p'.status = true ∧ ∀ r, ev.payload = .replan r → r.previousPlanId = p.planId)) :
    Consistent registry db' := by
  have memPlan : ∀ q, q ∈ db'.plans ↔ q = p' ∨ (q ∈ db.plans ∧ q ≠ p) := by
    intro q
    rw [hplans]
    exact Table.mem_save_of_mem hp hpid
  have memTask : ∀ x, x ∈ db'.tasks ↔ x = t' ∨ (x ∈ db.tasks ∧ x ≠ t) := by
    intro x
    rw [htasks]
    exact Table.mem_save_of_mem ht hsame.taskId
  have memExec : ∀ x, x ∈ db'.taskExecutions ↔ x = e' ∨ (x ∈ db.taskExecutions ∧ x ≠ e) := by
    intro x
    rw [hexecs]
    exact Table.mem_save_of_mem he hsamee.executionId
  obtain ⟨hprun, y, hy, hyid, hyp, -⟩ := h.current p hp _ hcur
  have htp : t.planId = p.planId := by rw [← Table.eq_of_key hy ht hyid, hyp]
  have hatt : e.attempt = t.attemptCount := ((h.active t ht e he hte).mp hact).2
  -- the other tasks of the plan are not running
  have honly : ∀ x ∈ db.tasks, x ≠ t → x.planId = p.planId → x.status ≠ .running :=
    fun x hx hne hxp hxst => hne (h.running_unique hx ht (hxp.trans htp.symm) hxst hst)
  have back : ∀ x ∈ db'.taskExecutions, ∃ x₀ ∈ db.taskExecutions, x₀.executionId = x.executionId ∧
      x₀.taskId = x.taskId ∧ x₀.planId = x.planId ∧ x₀.attempt = x.attempt := by
    intro x hx
    rcases (memExec x).mp hx with rfl | ⟨hx, -⟩
    · exact ⟨e, he, hsamee.executionId.symm, hsamee.taskId.symm, hsamee.planId.symm,
        hsamee.attempt.symm⟩
    · exact ⟨x, hx, rfl, rfl, rfl, rfl⟩
  constructor
  case planOfTask =>
    intro x hx
    have hplan : ∃ q ∈ db.plans, q.planId = x.planId := by
      rcases (memTask x).mp hx with rfl | ⟨hx, -⟩
      · exact ⟨p, hp, by rw [hsame.planId, htp]⟩
      · exact h.planOfTask x hx
    obtain ⟨q, hq, hqx⟩ := hplan
    by_cases hqp : q = p
    · exact ⟨p', (memPlan _).mpr (.inl rfl), by rw [hpid, ← hqp, hqx]⟩
    · exact ⟨q, (memPlan _).mpr (.inr ⟨hq, hqp⟩), hqx⟩
  case current =>
    intro q hq T hT
    rcases (memPlan q).mp hq with rfl | ⟨hq, hqp⟩
    · rw [hcur'] at hT
      cases hT
    · obtain ⟨hrun, x, hx, hid, hpl, hxst⟩ := h.current q hq T hT
      refine ⟨hrun, x, (memTask x).mpr (.inr ⟨hx, ?_⟩), hid, hpl, hxst⟩
      intro hxt
      exact hqp (Table.eq_of_key hq hp (by rw [← hpl, hxt, htp]))
  case running =>
    intro x hx hxst q hq hqx
    rcases (memTask x).mp hx with rfl | ⟨hx, hxt⟩
    · exact absurd hxst hst'
    · rcases (memPlan q).mp hq with rfl | ⟨hq, hqp⟩
      · exact absurd hxst (honly x hx hxt (by rw [← hqx, hpid]))
      · exact h.running x hx hxst q hq hqx
  case taskOfExecution =>
    intro x hx
    obtain ⟨x₀, hx₀, -, htask, hplan, hatt₀⟩ := back x hx
    obtain ⟨z, hz, h₁, h₂, h₃, h₄⟩ := h.taskOfExecution x₀ hx₀
    rw [htask] at h₁
    rw [hplan] at h₂
    rw [hatt₀] at h₃ h₄
    by_cases hzt : z = t
    · refine ⟨t', (memTask _).mpr (.inl rfl), ?_, ?_, h₃, ?_⟩
      · rw [hsame.taskId, ← hzt, h₁]
      · rw [hsame.planId, ← hzt, h₂]
      · rw [hsame.attemptCount, ← hzt]
        exact h₄
    · exact ⟨z, (memTask z).mpr (.inr ⟨hz, hzt⟩), h₁, h₂, h₃, h₄⟩
  case attempts =>
    intro x hx k hk₁ hk₂
    have hold : ∃ x₀ ∈ db.taskExecutions, x₀.taskId = x.taskId ∧ x₀.attempt = k := by
      rcases (memTask x).mp hx with rfl | ⟨hx, -⟩
      · rw [hsame.taskId]
        exact h.attempts t ht k hk₁ (hsame.attemptCount ▸ hk₂)
      · exact h.attempts x hx k hk₁ hk₂
    obtain ⟨x₀, hx₀, h₁, h₂⟩ := hold
    by_cases hxe : x₀ = e
    · exact ⟨e', (memExec _).mpr (.inl rfl), by rw [hsamee.taskId, ← hxe, h₁],
        by rw [hsamee.attempt, ← hxe, h₂]⟩
    · exact ⟨x₀, (memExec _).mpr (.inr ⟨hx₀, hxe⟩), h₁, h₂⟩
  case unique =>
    intro x hx z hz h₁ h₂
    obtain ⟨x₀, hx₀, hxid, hxt, -, hxa⟩ := back x hx
    obtain ⟨z₀, hz₀, hzid, hzt, -, hza⟩ := back z hz
    have hxz : x₀ = z₀ := h.unique x₀ hx₀ z₀ hz₀ (by rw [hxt, hzt, h₁]) (by rw [hxa, hza, h₂])
    exact Table.eq_of_key hx hz (by rw [← hxid, ← hzid, hxz])
  case active =>
    intro x hx z hz hzx
    rcases (memTask x).mp hx with rfl | ⟨hx, hxt⟩
    · refine iff_of_false ?_ fun hrun => hst' hrun.1
      rcases (memExec z).mp hz with rfl | ⟨hz, hze⟩
      · simp [hinact]
      · -- only the execution that ended was active
        rw [hsame.taskId] at hzx
        intro hzact
        have hzk := ((h.active t ht z hz hzx).mp hzact).2
        exact hze (h.unique z hz e he (hzx.trans hte.symm) (hzk.trans hatt.symm))
    · rcases (memExec z).mp hz with rfl | ⟨hz, hze⟩
      · rw [hsamee.taskId, hte] at hzx
        exact absurd (Table.eq_of_key hx ht hzx.symm) hxt
      · exact h.active x hx z hz hzx
  case bounded =>
    intro x hx
    rcases (memTask x).mp hx with rfl | ⟨hx, -⟩
    · have hb := h.bounded t ht
      refine ⟨?_, ?_, fun hw _ => ?_⟩
      · rw [hsame.attemptCount, hsame.maxAttempts]
        exact hb.bound
      · rw [hsame.attemptCount, hsame.maxAttempts, hsame.capabilityCode]
        exact hb.configured
      · rw [hsame.attemptCount, hsame.maxAttempts]
        exact hwait hw
    · exact h.bounded x hx
  case started =>
    intro x hx hxst
    rcases (memTask x).mp hx with rfl | ⟨hx, -⟩
    · exact absurd hxst hst'
    · exact h.started x hx hxst
  case replanned =>
    intro ev hev htype r hr
    rcases hout ev hev htype with hold | ⟨hclosed, hprev⟩
    · obtain ⟨q, hq, hqr, hclosed⟩ := h.replanned ev hold htype r hr
      refine ⟨q, (memPlan q).mpr (.inr ⟨hq, ?_⟩), hqr, hclosed⟩
      intro hqp
      rw [hqp, hprun] at hclosed
      cases hclosed
    · exact ⟨p', (memPlan _).mpr (.inl rfl), by rw [hpid, hprev r hr], hclosed⟩

end Consistent

/-! ## Every effect -/

section Effects

variable {registry : CapabilityRegistry} {claiming : Option (ClaimIds × Clock)} {db db' : Db}

theorem mem_append_wakeups {news : List OutboxEvent}
    (hrows : db'.outbox.rows = db.outbox.rows ++ news) (hnews : ∀ ev ∈ news, IsWakeup ev) :
    ∀ ev ∈ db'.outbox, ev.eventType = .replanRequested → ev ∈ db.outbox := by
  intro ev hev htype
  rw [Table.mem_iff, hrows, List.mem_append] at hev
  rcases hev with hev | hev
  · exact hev
  · have := hnews ev hev
    rw [IsWakeup, htype] at this
    cases this

theorem Advances.isActive {s s' : TaskExecutionStatus} (h : Advances s s') :
    isActive s' = isActive s := by
  cases h <;> rfl

theorem Advances.wasActive {s s' : TaskExecutionStatus} (h : Advances s s') :
    TaskRuntime.isActive s = true := by
  cases h <;> rfl

theorem Fails.isActive {s s' : TaskExecutionStatus} (h : Fails s s') :
    isActive s = true ∧ isActive s' = false := by
  cases h <;> exact ⟨rfl, rfl⟩

/-- What an ended attempt looks like, whatever ended it. -/
structure Ended (p p' : Plan) (t t' : Task) (e e' : TaskExecution) (news : List OutboxEvent) :
    Prop where
  wasActive : isActive e.status = true
  inactive : isActive e'.status = false
  idle : t'.status ≠ .running
  waiting : isWaiting t'.status = true → (t.attemptCount : Int) < t.maxAttempts
  news : ∀ ev ∈ news, ev.eventType = .replanRequested →
    isClosed p'.status = true ∧ ∀ r, ev.payload = .replan r → r.previousPlanId = p.planId

theorem Settlement.ended {p p' : Plan} {t t' : Task} {e e' : TaskExecution}
    {news : List OutboxEvent} (h : Settlement db' p p' t t' e e' news) :
    Ended p p' t t' e e' news := by
  cases h with
  | succeeded ev he he' ht' _ hnews hplain =>
    refine ⟨by rw [he]; rfl, by rw [he']; rfl, by simp [ht'], by simp [ht', isWaiting], ?_⟩
    intro x hx htype
    rw [hnews, List.mem_singleton] at hx
    rw [hx, hplain.eventType] at htype
    cases htype
  | finished ev he he' ht' _ hnews hagg =>
    refine ⟨by rw [he]; rfl, by rw [he']; rfl, by simp [ht'], by simp [ht', isWaiting], ?_⟩
    intro x hx htype
    rw [hnews, List.mem_singleton] at hx
    rw [hx, hagg] at htype
    cases htype
  | stuck x he he' ht' _ hnews =>
    refine ⟨by rw [he]; rfl, by rw [he']; rfl, by simp [ht'], by simp [ht', isWaiting], ?_⟩
    intro ev hev
    rw [hnews] at hev
    cases hev
  | retried ev hfails hretries hlt _ hnews hplain =>
    refine ⟨hfails.isActive.1, hfails.isActive.2, ?_, fun _ => hlt, ?_⟩
    · rcases hretries.status with ht' | ht' <;> simp [ht']
    · intro x hx htype
      rw [hnews, List.mem_singleton] at hx
      rw [hx, hplain.eventType] at htype
      cases htype
  | replanned ev r hfails ht' hp' hnews _ hpayload hprev =>
    refine ⟨hfails.isActive.1, hfails.isActive.2, ?_, ?_, ?_⟩
    · rcases ht' with ht' | ht' <;> simp [ht']
    · rcases ht' with ht' | ht' <;> simp [ht', isWaiting]
    · intro x hx _
      rw [hnews, List.mem_singleton] at hx
      refine ⟨by rw [hp']; rfl, fun r' hr' => ?_⟩
      rw [hx, hpayload] at hr'
      obtain rfl := EventPayload.replan.inj hr'
      exact hprev

/-- **The step**: every effect keeps the ownership invariant. -/
theorem Effect.consistent (h : Consistent registry db) (heff : Effect registry claiming db db') :
    Consistent registry db' := by
  cases heff with
  | quiet hp ht _ he ho =>
    exact h.rewrite (.of_eq .refl hp) (.of_eq .refl ht) (.of_eq .refl he) (fun ev hev _ => ho ▸ hev)
  | advanced e e' news hem hsame hadv hp ht _ he hrows hnews =>
    refine h.rewrite (.of_eq .refl hp) (.of_eq .refl ht) ?_ (mem_append_wakeups hrows hnews)
    rw [he]
    exact .save .refl hem hsame.executionId
      ⟨hsame.executionId, hsame.taskId, hsame.planId, hsame.attempt, hadv.isActive⟩
  | settled p p' t t' e e' news hp ht he hcur hst hte hpid hcur' hsame hsamee hplans htasks _ hexecs
      hrows hsettle =>
    have hend := hsettle.ended
    refine h.attemptEnded hp ht he hcur hst hte hend.wasActive hpid hcur' hend.idle hend.inactive
      hend.waiting hsame hsamee hplans htasks hexecs ?_
    intro ev hev htype
    rw [Table.mem_iff, hrows, List.mem_append] at hev
    rcases hev with hev | hev
    · exact .inl hev
    · exact .inr (hend.news ev hev htype)
  | resumed planId _ hp ht _ he ho =>
    refine h.rewrite (.of_eq .refl hp) ?_ (.of_eq .refl he) (fun ev hev _ => ho ▸ hev)
    rw [ht]
    refine .mapRows (Db.withStatus_taskId _ _) fun t htm => ?_
    unfold Db.withStatus
    split
    · next hin =>
      obtain ⟨x, hx, hid⟩ := List.mem_map.mp hin
      obtain ⟨hxm, -, hxst⟩ := Db.mem_listByPlanIdAndStatus.mp hx
      rw [Table.eq_of_key hxm htm hid] at hxst
      exact ⟨rfl, rfl, rfl, rfl, rfl, by simp [hxst], fun _ => by rw [hxst]; rfl⟩
    · exact .refl t
  | started p t d ids clock _ hp hcur hpst ht htp hst _ hd hplans htasks _ hexecs hout =>
    refine h.attemptStarted hp hcur hpst ht htp hst hd hplans htasks hexecs ?_
    intro ev hev htype
    rcases (Table.mem_insert hout).mp hev with hev | rfl
    · exact hev
    · cases htype
  | planCreated p _ hcur hp ht _ he ho => exact h.planCreated hcur hp ht he ho
  | taskCreated p t hp _ htp hst hk hplans ht _ he ho =>
    exact h.taskCreated hp htp hst hk hplans ht he ho
  | published p pairs _ ev hp hst _ _ hplans ht _ he hout hplain =>
    refine h.rewrite ?_ ?_ (.of_eq .refl he) ?_
    · rw [hplans]
      refine .save .refl hp rfl ⟨rfl, rfl, fun hrun => ?_, fun hclosed => ?_⟩
      · rw [hst] at hrun
        cases hrun
      · rw [hst] at hclosed
        cases hclosed
    · rw [ht]
      refine .mapRows (Planning.publishTask_taskId _) fun t htm => ?_
      unfold Planning.publishTask
      split
      · next hin =>
        obtain ⟨x, hx, hid⟩ := List.mem_map.mp hin
        obtain ⟨hxm, -, hxst⟩ := Db.mem_listByPlanIdAndStatus.mp hx
        rw [Table.eq_of_key hxm htm hid] at hxst
        exact ⟨rfl, rfl, rfl, rfl, rfl, by simp [hxst], fun _ => by rw [hxst]; rfl⟩
      · exact .refl t
    · intro x hx htype
      rcases (Table.mem_insert hout).mp hx with hx | rfl
      · exact hx
      · rw [hplain.eventType] at htype
        cases htype
  | closed p p' status ev r hp hev htype hpayload hprev hpid hcur hp' hstatus hplans ht _ he ho =>
    obtain ⟨q, hq, hqid, hclosed⟩ := h.replanned ev hev htype r hpayload
    obtain rfl : q = p := Table.eq_of_key hq hp (hqid.trans hprev)
    -- a closed plan has no current task, so none of its tasks is running
    have hidle : ∀ t ∈ db.tasks, t.planId = q.planId → t.status ≠ .running := by
      intro t htm htq hst
      have hrun := (h.current q hp _ (h.running t htm hst q hp htq.symm)).1
      rw [hrun] at hclosed
      cases hclosed
    refine h.rewrite ?_ ?_ (.of_eq .refl he) (fun ev hev _ => ho ▸ hev)
    · rw [hplans]
      refine .save .refl hp hpid ⟨hpid, hcur, fun hrun => ?_, fun _ => ?_⟩
      · rw [hrun] at hclosed
        cases hclosed
      · rcases hp' with hp' | hp' <;> rw [hp'] <;> rfl
    · rw [ht]
      refine .mapRows (Db.unfinishedWithStatus_taskId _ _) fun t htm => ?_
      unfold Db.unfinishedWithStatus
      split
      · next hin =>
        have hst := hidle t htm hin.1
        rcases hstatus with rfl | rfl
        · exact ⟨rfl, rfl, rfl, rfl, rfl, by simp [hst], fun hw => by cases hw⟩
        · exact ⟨rfl, rfl, rfl, rfl, rfl, by simp [hst], fun hw => by cases hw⟩
      · exact .refl t

/-! ## Snapshots -/

/-- What an effect does to an execution that exists. -/
inductive StatusStep : TaskExecutionStatus → TaskExecutionStatus → Prop
  | same (s : TaskExecutionStatus) : StatusStep s s
  | advances {s s' : TaskExecutionStatus} : Advances s s' → StatusStep s s'
  | fails {s s' : TaskExecutionStatus} : Fails s s' → StatusStep s s'
  | succeeds : StatusStep .running .succeeded

theorem Settlement.statusStep {p p' : Plan} {t t' : Task} {e e' : TaskExecution}
    {news : List OutboxEvent} (h : Settlement db' p p' t t' e e' news) :
    StatusStep e.status e'.status := by
  cases h with
  | succeeded _ he he' => rw [he, he']; exact .succeeds
  | finished _ he he' => rw [he, he']; exact .succeeds
  | stuck _ he he' => rw [he, he']; exact .succeeds
  | retried _ hfails => exact .fails hfails
  | replanned _ _ hfails => exact .fails hfails

theorem SameAttempt.refl (e : TaskExecution) : SameAttempt e e := ⟨rfl, rfl, rfl, rfl, rfl, rfl, rfl⟩

/-- An execution is never deleted, and its status moves by one step at most. -/
theorem Effect.execution (heff : Effect registry claiming db db') {e : TaskExecution}
    (he : e ∈ db.taskExecutions) :
    ∃ e' ∈ db'.taskExecutions, SameAttempt e e' ∧ StatusStep e.status e'.status := by
  have saved : ∀ {x x' : TaskExecution}, x ∈ db.taskExecutions → SameAttempt x x' →
      StatusStep x.status x'.status → db'.taskExecutions = db.taskExecutions.save x' →
      ∃ e' ∈ db'.taskExecutions, SameAttempt e e' ∧ StatusStep e.status e'.status := by
    intro x x' hx hsame hstep hsave
    rw [hsave]
    exact (Table.Corr.save (R := fun x y => SameAttempt x y ∧ StatusStep x.status y.status)
      (fun x => ⟨.refl x, .same _⟩) hx hsame.executionId ⟨hsame, hstep⟩).forth e he
  have kept : db'.taskExecutions = db.taskExecutions →
      ∃ e' ∈ db'.taskExecutions, SameAttempt e e' ∧ StatusStep e.status e'.status :=
    fun heq => ⟨e, heq ▸ he, .refl e, .same _⟩
  cases heff with
  | quiet _ _ _ heq => exact kept heq
  | advanced x x' _ hx hsame hadv _ _ _ hsave => exact saved hx hsame (.advances hadv) hsave
  | settled _ _ _ _ x x' _ _ _ hx _ _ _ _ _ _ hsame _ _ _ hsave _ hsettle =>
    exact saved hx hsame hsettle.statusStep hsave
  | resumed _ _ _ _ _ heq => exact kept heq
  | started _ _ _ _ _ _ _ _ _ _ _ _ _ _ _ _ _ hins =>
    exact ⟨e, (Table.mem_insert hins).mpr (.inl he), .refl e, .same _⟩
  | planCreated _ _ _ _ _ _ heq => exact kept heq
  | taskCreated _ _ _ _ _ _ _ _ _ _ heq => exact kept heq
  | published _ _ _ _ _ _ _ _ _ _ _ heq => exact kept heq
  | closed _ _ _ _ _ _ _ _ _ _ _ _ _ _ _ _ _ heq => exact kept heq

theorem Effect.coherent (heff : Effect registry claiming db db') {s : Snapshot} (hs : Coherent db s) :
    Coherent db' s := by
  obtain ⟨e, he, h₁, h₂, h₃, h₄, h₅, h₆⟩ := hs
  obtain ⟨e', he', hsame, -⟩ := heff.execution he
  exact ⟨e', he', by rw [hsame.executionId, h₁], by rw [hsame.taskId, h₂], by rw [hsame.planId, h₃],
    by rw [hsame.attempt, h₄], by rw [hsame.operationId, h₅], by rw [hsame.agentRunId, h₆]⟩

theorem Effects.coherent (heff : Effects registry claiming db db') {s : Snapshot} (hs : Coherent db s) :
    Coherent db' s :=
  heff.preserves (fun _ _ hc he => he.coherent hc) hs

/-- The snapshot of a recovery belongs to the execution it was taken from. -/
theorem Recovers.coherent (h : Consistent registry db) {now : Time} {p : Plan} {T : TaskId}
    (hp : p ∈ db.plans) (hcur : p.currentTaskId = some T) {rc : RecoveryClaim}
    (hrec : Recovers registry now p T db (some rc) db') : Coherent db rc.recovery := by
  have main : ∀ {t : Task} {e e' : TaskExecution} {s : Snapshot}, CurrentRows db T t e →
      SameAttempt e e' → recoverySnapshot db p t e' = .ok s → Coherent db s := by
    intro t e e' s rows hsame hsnap
    obtain ⟨ht, htid, he, het⟩ := rows.mem
    obtain ⟨h₁, h₂, h₃, h₄, h₅, h₆⟩ := recoverySnapshot_fields hsnap
    obtain ⟨-, y, hy, hyid, hyp, -⟩ := h.current p hp T hcur
    obtain ⟨x, hx, hxid, hxp, -⟩ := h.taskOfExecution e he
    have hxy : x = y := Table.eq_of_key hx hy (by rw [hxid, hyid, het])
    refine ⟨e, he, ?_, ?_, ?_, ?_, ?_, ?_⟩
    · rw [h₄, hsame.executionId]
    · rw [h₁, htid, het]
    · rw [h₂, ← hxp, hxy, hyp]
    · rw [h₃, hsame.attempt]
    · rw [h₅, hsame.operationId]
    · rw [← h₆, hsame.agentRunId]
  cases hrec with
  | locked t e s rows _ hsnap => exact main rows (.refl e) hsnap
  | required t e s rows _ hsnap => exact main rows (.refl e) hsnap
  | expired t e d s rows _ _ _ hsnap =>
    have hsame : SameAttempt e (expireLease e) := ⟨rfl, rfl, rfl, rfl, rfl, rfl, rfl⟩
    exact main rows hsame hsnap

/-- **Every snapshot a claim hands out is coherent.** -/
theorem ClaimStep.coherent (h : Consistent registry db) {ids : ClaimIds} {clock : Clock}
    {call : ExecuteNextInput} {r : ClaimNextTaskResult}
    (hstep : ClaimStep registry ids clock call db r db') {s : Snapshot}
    (hs : r.snapshot? = some s) : Coherent db' s := by
  have heffs := hstep.effects
  cases hstep with
  | skipped => cases hs
  | mismatched => cases hs
  | busy => cases hs
  | idle => cases hs
  | locked p T s' _ hp _ hcur hrec =>
    obtain rfl := Option.some.inj hs
    exact heffs.coherent (hrec.coherent h (Table.mem_of_get? hp) hcur)
  | required p T s' _ hp _ hcur hrec =>
    obtain rfl := Option.some.inj hs
    exact heffs.coherent (hrec.coherent h (Table.mem_of_get? hp) hcur)
  | claimed p t d c db₁ db₂ _ hp _ _ _ _ _ h₁ h₂ h₃ =>
    obtain rfl := Option.some.inj hs
    obtain ⟨-, execs, hexecs, rfl⟩ := Db.addExecution_eq_ok.mp h₁
    obtain ⟨outbox, -, rfl⟩ := Db.addOutbox_eq_ok.mp h₂
    refine ⟨newExecution d ids clock p (startTask d clock t), ?_, rfl, rfl, rfl, rfl, rfl, rfl⟩
    rw [(recordInbox_inboxOnly h₃).taskExecutions]
    exact (Table.mem_insert hexecs).mpr (.inr rfl)

end Effects

/-! ## Every run -/

/-- The tables are consistent and so are the snapshots in circulation. -/
structure Owned (registry : CapabilityRegistry) (st : RuntimeState) : Prop where
  consistent : Consistent registry st.db
  coherent : ∀ s ∈ st.handedOut, Coherent st.db s

section Runs

variable {config : RuntimeConfig} {st st' : RuntimeState} {a : RuntimeAction}

theorem RuntimeState.Fresh.owned (h : st.Fresh) : Owned config.registry st := by
  obtain ⟨hp, ht, -, he, ho, -, hs⟩ := h
  refine ⟨?_, by simp [hs]⟩
  constructor <;> simp [Table.mem_iff, hp, ht, he, ho]

theorem snapshot_coherent (h : Owned config.registry st) (hen : a.Enabled st) :
    ∀ x, a.snapshot? = some x → Coherent st.db x :=
  fun x hx => h.coherent x (hen.1 x hx)

theorem runtime_step_effects (h : Owned config.registry st)
    (hstep : (runtime config).step st a = some st') : Effects config.registry a.claiming st.db st'.db := by
  obtain ⟨hen, -⟩ := runtime_step hstep
  rcases runtime_step_cases hstep with ⟨s, db', htx, rfl, -⟩ | ⟨f, -, hdb, -⟩
  · exact transaction_effects (snapshot_coherent h hen) htx
  · rw [hdb]

theorem Owned.step (h : Owned config.registry st)
    (hstep : (runtime config).step st a = some st') : Owned config.registry st' := by
  have heffs := runtime_step_effects h hstep
  have hcons : Consistent config.registry st'.db :=
    heffs.preserves (fun _ _ hc he => he.consistent hc) h.consistent
  refine ⟨hcons, ?_⟩
  rcases runtime_step_cases hstep with ⟨s, db', htx, rfl, hout⟩ | ⟨f, -, hdb, hout⟩
  · intro x hx
    rw [hout, List.mem_append, Option.mem_toList] at hx
    rcases hx with rfl | hx
    · obtain ⟨ids, clock, seen, call, r, rfl, hclaim, hr⟩ := transaction_snapshot htx
      rcases claimNext_cases hclaim with ⟨-, rfl, -⟩ | ⟨-, hclaim⟩
      · cases hr
      · exact hclaim.coherent h.consistent hr
    · exact heffs.coherent (h.coherent x hx)
  · rw [hdb, hout]
    exact h.coherent

/-- **Every reachable state is owned consistently.** -/
theorem reachable_owned {ok : RuntimeState → RuntimeAction → Prop}
    (h : (runtime config).ReachableVia ok st) : Owned config.registry st :=
  h.invariant (fun _ hi => RuntimeState.Fresh.owned hi) (fun _ _ _ _ ho _ hs => ho.step hs)

end Runs

/-! ## The invariant of one plan -/

/-- An execution whose outcome is written. -/
def isSettled (s : TaskExecutionStatus) : Prop := s = .succeeded ∨ s = .failed ∨ s = .compensated

theorem isSettled_iff {s : TaskExecutionStatus} : isSettled s ↔ isActive s = false := by
  cases s <;> simp [isSettled, isActive]

/-- What the runtime guarantees of a plan between two transactions. -/
structure PlanOwnership (db : Db) (p : Plan) : Prop where
  currentTask : ∀ T, p.currentTaskId = some T ↔
    ∃ t ∈ db.tasks, t.taskId = T ∧ t.planId = p.planId ∧ t.status = .running
  oneRunning : ∀ t ∈ db.tasks, ∀ t' ∈ db.tasks, t.planId = p.planId → t'.planId = p.planId →
    t.status = .running → t'.status = .running → t = t'
  liveExecution : ∀ T, p.currentTaskId = some T → ∃ e, db.getLatestByTask T = some e ∧
    e.planId = p.planId ∧
    (e.status = .running ∨ e.status = .compensationRequired ∨ e.status = .compensationLocked) ∧
    ∀ x ∈ db.taskExecutions, x.planId = p.planId → x ≠ e → isSettled x.status
  noLiveExecution : p.currentTaskId = none →
    ∀ x ∈ db.taskExecutions, x.planId = p.planId → isSettled x.status
  attempts : ∀ t ∈ db.tasks, t.planId = p.planId →
    ((db.taskExecutions.rows.filter fun e => e.taskId = t.taskId).map TaskExecution.attempt).Perm
      (List.range' 1 t.attemptCount)
  bounded : ∀ t ∈ db.tasks, t.planId = p.planId → (t.attemptCount : Int) ≤ max 1 t.maxAttempts

namespace Consistent

variable {registry : CapabilityRegistry} {db : Db}

/-- An active execution is the latest of the current task of its plan. -/
theorem owner_of_active (h : Consistent registry db) {p : Plan} (hp : p ∈ db.plans)
    {e : TaskExecution} (he : e ∈ db.taskExecutions) (hep : e.planId = p.planId)
    (hact : isActive e.status = true) :
    ∃ t ∈ db.tasks, t.taskId = e.taskId ∧ t.planId = p.planId ∧ t.status = .running ∧
      e.attempt = t.attemptCount ∧ p.currentTaskId = some t.taskId := by
  obtain ⟨t, ht, hid, htp, -, -⟩ := h.taskOfExecution e he
  obtain ⟨hrun, hatt⟩ := (h.active t ht e he hid.symm).mp hact
  have htp' : t.planId = p.planId := htp.trans hep
  exact ⟨t, ht, hid, htp', hrun, hatt, h.running t ht hrun p hp htp'.symm⟩

/-- The live execution of a running task. -/
theorem live_execution (h : Consistent registry db) {t : Task} (ht : t ∈ db.tasks)
    (hrun : t.status = .running) : ∃ e ∈ db.taskExecutions, e.taskId = t.taskId ∧
      e.planId = t.planId ∧ e.attempt = t.attemptCount ∧ isActive e.status = true := by
  obtain ⟨e, he, hid, hk⟩ := h.attempts t ht t.attemptCount (h.started t ht hrun) le_rfl
  obtain ⟨x, hx, hxid, hxp, -, -⟩ := h.taskOfExecution e he
  have hxt : x = t := Table.eq_of_key hx ht (hxid.trans hid)
  exact ⟨e, he, hid, by rw [← hxp, hxt], hk, (h.active t ht e he hid).mpr ⟨hrun, hk⟩⟩

theorem attempts_perm (h : Consistent registry db) {t : Task} (ht : t ∈ db.tasks) :
    ((db.taskExecutions.rows.filter fun e => e.taskId = t.taskId).map TaskExecution.attempt).Perm
      (List.range' 1 t.attemptCount) := by
  have hnodup : ((db.taskExecutions.rows.filter fun e => e.taskId = t.taskId).map
      TaskExecution.attempt).Nodup := by
    refine List.Nodup.map_on ?_ ((List.Nodup.of_map _ db.taskExecutions.nodup).filter _)
    intro x hx y hy hxy
    obtain ⟨hx, hxt⟩ := List.mem_filter.mp hx
    obtain ⟨hy, hyt⟩ := List.mem_filter.mp hy
    rw [decide_eq_true_eq] at hxt hyt
    exact h.unique x hx y hy (hxt.trans hyt.symm) hxy
  refine (List.perm_ext_iff_of_nodup hnodup (List.nodup_range')).mpr fun k => ?_
  simp only [List.mem_map, List.mem_filter, decide_eq_true_eq, List.mem_range'_1]
  constructor
  · rintro ⟨e, ⟨he, het⟩, rfl⟩
    obtain ⟨x, hx, hxid, -, h₁, h₂⟩ := h.taskOfExecution e he
    have hxt : x = t := Table.eq_of_key hx ht (hxid.trans het)
    rw [hxt] at h₂
    omega
  · intro hk
    obtain ⟨e, he, het, hek⟩ := h.attempts t ht k hk.1 (by omega)
    exact ⟨e, ⟨he, het⟩, hek⟩

/-- The invariant of the tables, read at one plan. -/
theorem planOwnership (h : Consistent registry db) {p : Plan} (hp : p ∈ db.plans) :
    PlanOwnership db p where
  currentTask := by
    intro T
    constructor
    · intro hT
      exact (h.current p hp T hT).2
    · rintro ⟨t, ht, rfl, htp, hrun⟩
      exact h.running t ht hrun p hp htp.symm
  oneRunning := fun t ht t' ht' htp htp' hrun hrun' =>
    h.running_unique ht ht' (htp.trans htp'.symm) hrun hrun'
  liveExecution := by
    intro T hT
    obtain ⟨-, t, ht, rfl, htp, hrun⟩ := h.current p hp T hT
    obtain ⟨e, he, hid, hep, hk, hact⟩ := h.live_execution ht hrun
    refine ⟨e, h.latest ht he hid hk, hep.trans htp, ?_, ?_⟩
    · cases hs : e.status <;> simp_all [isActive]
    · intro x hx hxp hxe
      rw [isSettled_iff, ← Bool.not_eq_true]
      intro hxact
      obtain ⟨y, hy, hyid, -, -, hxk, hcur⟩ := h.owner_of_active hp hx hxp hxact
      have hyt : y.taskId = t.taskId := Option.some.inj (hcur.symm.trans hT)
      have hyt' : y = t := Table.eq_of_key hy ht hyt
      exact hxe (h.unique x hx e he (by rw [← hyid, hyt, hid]) (by rw [hxk, hyt', hk]))
  noLiveExecution := by
    intro hcur x hx hxp
    rw [isSettled_iff, ← Bool.not_eq_true]
    intro hxact
    obtain ⟨y, -, -, -, -, -, hcur'⟩ := h.owner_of_active hp hx hxp hxact
    rw [hcur] at hcur'
    cases hcur'
  attempts := fun t ht _ => h.attempts_perm ht
  bounded := fun t ht _ => (h.bounded t ht).bound

end Consistent

/-- **The ownership invariant**: it holds of every plan in every state that any
interleaving of committed transactions reaches. -/
theorem reachable_planOwnership (config : RuntimeConfig) (st : RuntimeState)
    (h : (runtime config).Reachable st) (p : Plan) (hp : p ∈ st.db.plans) :
    PlanOwnership st.db p :=
  (reachable_owned h).consistent.planOwnership hp

/-- The plan of the running example. -/
def firstPlan : Plan := (firstTaskRunning.db.plans.get? 1).getD (Db.draftPlan 0 0 0 none 0)

theorem firstTaskRunning_planOwnership : PlanOwnership firstTaskRunning.db firstPlan :=
  reachable_planOwnership defaultConfig firstTaskRunning firstTaskRunning_reachable firstPlan
    (Table.mem_of_get? (k := 1) rfl)

end DocFlow.TaskRuntime
