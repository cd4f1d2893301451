import DocFlow.TaskRuntime.CompensationBound
import DocFlow.TaskRuntime.Quiescence
import DocFlow.TaskRuntime.Vigilance

/-!
# Locked compensations

When the automatic attempts to compensate an execution are used up, the execution is
`COMPENSATION_LOCKED`, and its plan waits for an operator.  No transaction of a worker or of the
planner gets past that status: `compensationLocked_absorbing` says that along every run the rows
of the plan stay as they are, that no attempt to compensate is counted, and that a delivery for the
plan adds at most a record of its event.  A worker whose attempt was counted before may still call
its compensator then; what it answers is not written.
-/

namespace DocFlow.TaskRuntime

/-! ## The property -/

/-- The current execution of the plan is locked. -/
structure Locked (db : Db) (p : Plan) (e : TaskExecution) : Prop where
  plan : p ∈ db.plans
  execution : e ∈ db.taskExecutions
  current : p.currentTaskId = some e.taskId
  latest : db.getLatestByTask e.taskId = some e
  locked : e.status = .compensationLocked

/-- The rows of a plan are the same in both databases. -/
structure PlanFrozen (P : PlanId) (db db' : Db) : Prop where
  plans : ∀ x, x.planId = P → (x ∈ db'.plans ↔ x ∈ db.plans)
  tasks : ∀ x, x.planId = P → (x ∈ db'.tasks ↔ x ∈ db.tasks)
  taskExecutions : ∀ x, x.planId = P → (x ∈ db'.taskExecutions ↔ x ∈ db.taskExecutions)

namespace PlanFrozen

variable {P : PlanId} {db mid db' : Db}

theorem refl (P : PlanId) (db : Db) : PlanFrozen P db db :=
  ⟨fun _ _ => Iff.rfl, fun _ _ => Iff.rfl, fun _ _ => Iff.rfl⟩

theorem trans (h : PlanFrozen P db mid) (g : PlanFrozen P mid db') : PlanFrozen P db db' :=
  ⟨fun x hx => (g.plans x hx).trans (h.plans x hx), fun x hx => (g.tasks x hx).trans (h.tasks x hx),
    fun x hx => (g.taskExecutions x hx).trans (h.taskExecutions x hx)⟩

/-- Only the inbox has changed since `mid`. -/
theorem inboxOnly (h : PlanFrozen P db mid) (hin : InboxOnly mid db') : PlanFrozen P db db' := by
  refine ⟨fun x hx => ?_, fun x hx => ?_, fun x hx => ?_⟩
  · rw [hin.plans]
    exact h.plans x hx
  · rw [hin.tasks]
    exact h.tasks x hx
  · rw [hin.taskExecutions]
    exact h.taskExecutions x hx

end PlanFrozen

/-! ## What belongs to the plan -/

section Rows

variable {registry : CapabilityRegistry} {db db' : Db} {p : Plan} {e : TaskExecution}

/-- The task of an execution is a task of its plan. -/
theorem Consistent.task_planId (hcons : Consistent registry db) {x : TaskExecution} {t : Task}
    (hx : x ∈ db.taskExecutions) (ht : t ∈ db.tasks) (htask : x.taskId = t.taskId) :
    t.planId = x.planId := by
  obtain ⟨t', ht', hid, hplan, -⟩ := hcons.taskOfExecution x hx
  rw [Table.eq_of_key ht ht' (htask.symm.trans hid.symm), hplan]

/-- The current task of a plan is a task of it. -/
theorem Consistent.current_planId (hcons : Consistent registry db) {q : Plan} {t : Task}
    (hq : q ∈ db.plans) (ht : t ∈ db.tasks) (hcur : q.currentTaskId = some t.taskId) :
    t.planId = q.planId := by
  obtain ⟨-, t', ht', hid, hplan, -⟩ := hcons.current q hq t.taskId hcur
  rw [Table.eq_of_key ht ht' hid.symm, hplan]

theorem Locked.running (hcons : Consistent registry db) (hl : Locked db p e) :
    p.status = .running :=
  (hcons.current p hl.plan e.taskId hl.current).1

theorem Locked.planId (hcons : Consistent registry db) (hl : Locked db p e) :
    e.planId = p.planId := by
  obtain ⟨-, t, ht, hid, hplan, -⟩ := hcons.current p hl.plan e.taskId hl.current
  rw [← hcons.task_planId hl.execution ht hid.symm, hplan]

/-- An active execution of the plan is the locked one. -/
theorem Locked.other (hcons : Consistent registry db) (hl : Locked db p e) {x : TaskExecution}
    (hx : x ∈ db.taskExecutions) (hact : isActive x.status = true)
    (hst : x.status ≠ .compensationLocked) : x.planId ≠ p.planId := by
  intro hplan
  obtain ⟨t, ht, hid, htplan, -⟩ := hcons.taskOfExecution x hx
  obtain ⟨hrun, hatt⟩ := (hcons.active t ht x hx hid.symm).mp hact
  have hcur := hcons.running t ht hrun p hl.plan (hplan.symm.trans htplan.symm)
  have htask : e.taskId = t.taskId := Option.some.inj (hl.current.symm.trans hcur)
  have hlatest := hcons.latest ht hx hid.symm hatt
  rw [← htask, hl.latest] at hlatest
  obtain rfl := Option.some.inj hlatest
  exact hst hl.locked

/-- **The lock survives** when the rows of the plan are left alone. -/
theorem Locked.frozen (hcons : Consistent registry db) (hcons' : Consistent registry db')
    (hl : Locked db p e) (hf : PlanFrozen p.planId db db') : Locked db' p e := by
  have he := (hf.taskExecutions e (hl.planId hcons)).mpr hl.execution
  obtain ⟨t, ht, hid, -⟩ := hcons'.taskOfExecution e he
  have hact : isActive e.status = true := by rw [hl.locked]; rfl
  have hatt := ((hcons'.active t ht e he hid.symm).mp hact).2
  refine ⟨(hf.plans p rfl).mpr hl.plan, he, hl.current, ?_, hl.locked⟩
  rw [← hid]
  exact hcons'.latest ht he hid.symm hatt

end Rows

/-! ## Claims -/

section Claims

variable {registry : CapabilityRegistry} {ids : ClaimIds} {clock : Clock} {call : ExecuteNextInput}
  {db db' : Db} {r : ClaimNextTaskResult} {p : Plan} {e : TaskExecution}

/-- What a recovery finds when the current execution is locked. -/
theorem Recovers.of_locked (hl : Locked db p e) {now : Time} {T : TaskId}
    {o : Option RecoveryClaim} (hcur : p.currentTaskId = some T)
    (h : Recovers registry now p T db o db') : db' = db ∧ ∃ s, o = some (.locked s) := by
  have hlatest : ∀ {t x}, CurrentRows db T t x → x = e := by
    intro t x rows
    have hT : t.taskId = e.taskId := by
      rw [Table.key_of_get? rows.task]
      exact Option.some.inj (hcur.symm.trans hl.current)
    have h := rows.latest
    rw [hT, hl.latest] at h
    exact (Option.some.inj h).symm
  have hlocked := hl.locked
  cases h with
  | locked t x s _ _ _ => exact ⟨rfl, s, rfl⟩
  | required t x s rows hst =>
    rw [hlatest rows, hlocked] at hst
    cases hst
  | expired t x d s rows hst =>
    rw [hlatest rows, hlocked] at hst
    cases hst
  | held t x d rows hst =>
    rw [hlatest rows, hlocked] at hst
    cases hst

/-- **A claim of a locked plan** hands out nothing to do and records its event at most. -/
theorem ClaimStep.of_locked (hcons : Consistent registry db) (hl : Locked db p e)
    (hplan : call.planId = p.planId) (h : ClaimStep registry ids clock call db r db') :
    InboxOnly db db' ∧ (∀ task, r ≠ .claimed task) ∧ ∀ s, r ≠ .compensationRequired s := by
  have hsame : ∀ {q}, db.plans.get? call.planId = some q → q = p := fun hq =>
    Table.eq_of_key (Table.mem_of_get? hq) hl.plan ((Table.key_of_get? hq).trans hplan)
  have hfree : ∀ {q}, db.plans.get? call.planId = some q → q.currentTaskId ≠ none := by
    intro q hq hnone
    rw [hsame hq, hl.current] at hnone
    cases hnone
  cases h with
  | skipped q _ hq _ hdb => exact ⟨recordAndCommitIfEvent_inboxOnly hdb, nofun, nofun⟩
  | mismatched q T rc written _ hq _ hcur hrec _ hdb =>
    obtain rfl := hsame hq
    obtain ⟨rfl, -⟩ := hrec.of_locked hl hcur
    exact ⟨recordAndCommitIfEvent_inboxOnly hdb, nofun, nofun⟩
  | locked q T s _ hq _ _ _ _ hdb => exact ⟨recordAndCommitIfEvent_inboxOnly hdb, nofun, nofun⟩
  | required q T s _ hq _ hcur hrec =>
    obtain rfl := hsame hq
    obtain ⟨-, s', hs'⟩ := hrec.of_locked hl hcur
    cases hs'
  | busy q T _ hq _ _ _ hdb => exact ⟨recordAndCommitIfEvent_inboxOnly hdb, nofun, nofun⟩
  | idle q _ hq hnone => exact absurd hnone (hfree hq)
  | claimed q t d c db₁ db₂ _ hq hnone => exact absurd hnone (hfree hq)

theorem withStatus_planId (tasks : List Task) (status : TaskStatus) (t : Task) :
    (Db.withStatus tasks status t).planId = t.planId := by
  unfold Db.withStatus
  split <;> rfl

/-- Putting the waiting tasks of one plan back leaves the other plans alone. -/
theorem resumeRetrying_frozen {P Q : PlanId} (hne : Q ≠ P) :
    PlanFrozen P db (resumeRetrying Q db) := by
  refine ⟨fun _ _ => Iff.rfl, fun x hx => ?_, fun _ _ => Iff.rfl⟩
  rw [resumeRetrying, Db.setTaskStatus_tasks]
  refine Table.mem_mapRows_of_fixed (p := fun t => t.planId = P) (fun t ht => ?_)
    (fun t ht hplan => if_neg fun hin => ?_) hx
  · rwa [withStatus_planId] at ht
  · obtain ⟨t', ht', hid⟩ := List.mem_map.mp hin
    obtain ⟨ht', hplan', -⟩ := Db.mem_listByPlanIdAndStatus.mp ht'
    rw [Table.eq_of_key ht' ht hid, hplan] at hplan'
    exact hne hplan'.symm

/-- **A claim of another plan** leaves this one alone. -/
theorem ClaimStep.frozen (hcons : Consistent registry db) {P : PlanId} (hne : call.planId ≠ P)
    (h : ClaimStep registry ids clock call db r db') : PlanFrozen P db db' := by
  have hother : ∀ {q}, db.plans.get? call.planId = some q → q.planId ≠ P := fun hq =>
    (Table.key_of_get? hq).symm ▸ hne
  have hrecovers : ∀ {q T rc written}, db.plans.get? call.planId = some q →
      q.currentTaskId = some T → Recovers registry (clock.read 0) q T db rc written →
      PlanFrozen P db written := by
    intro q T rc written hq hcur hrec
    cases hrec with
    | locked | required | held => exact .refl P db
    | expired t x d s rows =>
      obtain ⟨ht, hid, hx, hxt⟩ := rows.mem
      have hplan : x.planId ≠ P := by
        rw [← hcons.task_planId hx ht (hxt.trans hid.symm),
          hcons.current_planId (Table.mem_of_get? hq) ht (by rw [hcur, hid])]
        exact hother hq
      have hkey : (expireLease x).executionId = x.executionId := rfl
      refine ⟨fun _ _ => Iff.rfl, fun _ _ => Iff.rfl, fun y hy => ?_⟩
      exact Table.mem_save_of_not (p := fun y => y.planId = P) hx hkey hplan hplan hy
  cases h with
  | skipped q _ _ _ hdb => exact (PlanFrozen.refl P db).inboxOnly (recordAndCommitIfEvent_inboxOnly hdb)
  | mismatched q T rc written _ hq _ hcur hrec _ hdb =>
    rcases recordAndCommitIfEvent_cases hdb with rfl | hdb
    · exact .refl P _
    · exact (hrecovers hq hcur hrec).inboxOnly hdb
  | locked q T s _ _ _ _ _ _ hdb =>
    exact (PlanFrozen.refl P db).inboxOnly (recordAndCommitIfEvent_inboxOnly hdb)
  | required q T s _ hq _ hcur hrec => exact hrecovers hq hcur hrec
  | busy q T _ _ _ _ _ hdb =>
    exact (PlanFrozen.refl P db).inboxOnly (recordAndCommitIfEvent_inboxOnly hdb)
  | idle q _ hq _ _ _ _ hdb =>
    rcases hdb with ⟨-, rfl⟩ | hdb
    · exact .refl P _
    · exact (resumeRetrying_frozen (hother hq)).inboxOnly (recordInbox_inboxOnly hdb)
  | claimed q t d c db₁ db₂ _ hq _ _ _ hnext _ h₁ h₂ h₃ =>
    obtain ⟨-, execs, hexecs, rfl⟩ := Db.addExecution_eq_ok.mp h₁
    obtain ⟨outbox, -, rfl⟩ := Db.addOutbox_eq_ok.mp h₂
    obtain ⟨ht, htplan, -⟩ := Db.getNextRunnable_eq_some hnext
    have hq' := hother hq
    have htask : t.planId ≠ P := htplan ▸ hq'
    refine .inboxOnly ⟨fun x hx => ?_, fun x hx => ?_, fun x hx => ?_⟩ (recordInbox_inboxOnly h₃)
    · have hkey : (startPlan clock t q).planId = q.planId := rfl
      exact Table.mem_save_of_not (p := fun y => y.planId = P) (Table.mem_of_get? hq) hkey hq' hq' hx
    · have hkey : (startTask d clock t).taskId = t.taskId := rfl
      exact (Table.mem_save_of_not (p := fun y => y.planId = P) ht hkey htask htask hx).trans
        ((resumeRetrying_frozen hq').tasks x hx)
    · exact Table.mem_insert_of_not (p := fun y => y.planId = P) hexecs hq' hx

end Claims

/-! ## Outcomes and planning -/

section Steps

variable {config : RuntimeConfig} {db db' : Db} {p : Plan} {e : TaskExecution}

theorem Advances.not_locked {s s' : TaskExecutionStatus} (h : Advances s s') :
    s ≠ .compensationLocked := by
  cases h <;> decide

theorem Fails.not_locked {s s' : TaskExecutionStatus} (h : Fails s s') :
    s ≠ .compensationLocked := by
  cases h <;> decide

/-- What ends was active, and not locked. -/
theorem Settlement.wasActive {p p' : Plan} {t t' : Task} {x x' : TaskExecution}
    {news : List OutboxEvent} (h : Settlement db' p p' t t' x x' news) :
    isActive x.status = true ∧ x.status ≠ .compensationLocked := by
  cases h with
  | succeeded _ hst | finished _ hst | stuck _ hst => rw [hst]; exact ⟨rfl, nofun⟩
  | retried _ hfails | replanned _ _ hfails => exact ⟨hfails.isActive.1, hfails.not_locked⟩

/-- **An effect that is not of a claim** leaves a locked plan alone. -/
theorem Effect.frozen {registry : CapabilityRegistry} (hcons : Consistent registry db)
    (hl : Locked db p e) (heff : Effect registry none db db') : PlanFrozen p.planId db db' := by
  have hrunning := hl.running hcons
  have hkept : ∀ {q}, q ∈ db.plans → q.status ≠ .running → q.planId ≠ p.planId := by
    intro q hq hst hid
    rw [Table.eq_of_key hq hl.plan hid] at hst
    exact hst hrunning
  have hof : ∀ {ρ κ : Type} {key : ρ → κ} {t t' : Table key} (x : ρ), t' = t → (x ∈ t' ↔ x ∈ t) := by
    rintro _ _ _ _ _ _ rfl
    exact Iff.rfl
  cases heff with
  | quiet hplans htasks _ hexecs _ =>
    exact ⟨fun x _ => hof x hplans, fun x _ => hof x htasks, fun x _ => hof x hexecs⟩
  | advanced x x' _ hx hsame hadv hplans htasks _ hsave =>
    have hplan := hl.other hcons hx hadv.wasActive hadv.not_locked
    refine ⟨fun y _ => hof y hplans, fun y _ => hof y htasks, fun y hy => ?_⟩
    rw [hsave]
    exact Table.mem_save_of_not (p := fun y => y.planId = p.planId) hx hsame.executionId hplan
      (hsame.planId.symm ▸ hplan) hy
  | settled q q' t t' x x' _ hq ht hx hcur _ hxt hqid _ hsameT hsame hplans htasks _ hexecs _ hsettle =>
    obtain ⟨hact, hst⟩ := hsettle.wasActive
    have hx' := hl.other hcons hx hact hst
    have ht' : t.planId ≠ p.planId := hcons.task_planId hx ht hxt ▸ hx'
    have hq' : q.planId ≠ p.planId := hcons.current_planId hq ht hcur ▸ ht'
    refine ⟨fun y hy => ?_, fun y hy => ?_, fun y hy => ?_⟩
    · rw [hplans]
      exact Table.mem_save_of_not (p := fun y => y.planId = p.planId) hq hqid hq' (hqid.symm ▸ hq') hy
    · rw [htasks]
      exact Table.mem_save_of_not (p := fun y => y.planId = p.planId) ht hsameT.taskId ht'
        (hsameT.planId.symm ▸ ht') hy
    · rw [hexecs]
      exact Table.mem_save_of_not (p := fun y => y.planId = p.planId) hx hsame.executionId hx'
        (hsame.planId.symm ▸ hx') hy
  | resumed _ hclaiming => exact absurd rfl hclaiming
  | started _ _ _ _ _ hclaiming => cases hclaiming
  | planCreated q _ _ hins htasks _ hexecs _ =>
    have hq : q.planId ≠ p.planId := fun hid => Table.key_not_mem_of_insert hins hl.plan hid.symm
    exact ⟨fun y hy => Table.mem_insert_of_not (p := fun y => y.planId = p.planId) hins hq hy,
      fun y _ => hof y htasks, fun y _ => hof y hexecs⟩
  | taskCreated q t hq hst htplan _ _ hplans hins _ hexecs _ =>
    have ht : t.planId ≠ p.planId := htplan ▸ hkept hq (by rw [hst]; decide)
    exact ⟨fun y _ => hof y hplans,
      fun y hy => Table.mem_insert_of_not (p := fun y => y.planId = p.planId) hins ht hy,
      fun y _ => hof y hexecs⟩
  | published q pairs newDependencyId ev hq hst _ _ hplans htasks _ hexecs =>
    have hq' : q.planId ≠ p.planId := hkept hq (by rw [hst]; decide)
    refine ⟨fun y hy => ?_, fun y hy => ?_, fun y _ => hof y hexecs⟩
    · rw [hplans]
      exact Table.mem_save_of_not (p := fun y => y.planId = p.planId) hq rfl hq' hq' hy
    · rw [htasks]
      refine Table.mem_mapRows_of_fixed (p := fun y => y.planId = p.planId) (fun t ht => ?_)
        (fun t ht hplan => if_neg fun hin => ?_) hy
      · have hsame : (Planning.publishTask ((db.listByPlanIdAndStatus q.planId .draft).map
            Task.taskId) t).planId = t.planId := by
          unfold Planning.publishTask
          split <;> rfl
        rwa [hsame] at ht
      · obtain ⟨t', ht', hid⟩ := List.mem_map.mp hin
        obtain ⟨ht', hplan', -⟩ := Db.mem_listByPlanIdAndStatus.mp ht'
        rw [Table.eq_of_key ht' ht hid, hplan] at hplan'
        exact hq' hplan'.symm
  | closed q q' status ev r hq hev htype hpay hprev hqid _ _ _ hplans htasks _ hexecs _ =>
    obtain ⟨q₀, hq₀, hid₀, hclosed⟩ := hcons.replanned ev hev htype r hpay
    obtain rfl := Table.eq_of_key hq₀ hq (hid₀.trans hprev)
    have hq' : q₀.planId ≠ p.planId := hkept hq fun hst => by
      rw [hst] at hclosed
      cases hclosed
    refine ⟨fun y hy => ?_, fun y hy => ?_, fun y _ => hof y hexecs⟩
    · rw [hplans]
      exact Table.mem_save_of_not (p := fun y => y.planId = p.planId) hq hqid hq' (hqid.symm ▸ hq') hy
    · rw [htasks, Db.setUnfinishedStatus_tasks]
      refine Table.mem_mapRows_of_fixed (p := fun y => y.planId = p.planId) (fun t ht => ?_)
        (fun t ht hplan => if_neg fun hin => ?_) hy
      · have hsame : (Db.unfinishedWithStatus q₀.planId status t).planId = t.planId := by
          unfold Db.unfinishedWithStatus
          split <;> rfl
        rwa [hsame] at ht
      · exact hq' (hin.1.symm.trans hplan)

theorem Effects.frozen {registry : CapabilityRegistry} (hcons : Consistent registry db)
    (hl : Locked db p e) (heffs : Effects registry none db db') : PlanFrozen p.planId db db' := by
  induction heffs with
  | refl => exact .refl _ _
  | tail hs heff ih =>
    have hmid := Effects.preserves (fun _ _ hc he => he.consistent hc) hs hcons
    exact ih.trans (heff.frozen hmid (hl.frozen hcons hmid ih))

/-- **The step of the runtime**: no transaction touches the rows of a locked plan. -/
theorem runtime_step_frozen {st st' : RuntimeState} {a : RuntimeAction}
    (h : Owned config.registry st) (hl : Locked st.db p e)
    (hstep : (runtime config).step st a = some st') : PlanFrozen p.planId st.db st'.db := by
  have heffs := runtime_step_effects h hstep
  rcases runtime_step_cases hstep with ⟨s, db', htx, rfl, -⟩ | ⟨f, -, hdb, -⟩
  · cases a with
    | claim ids clock seen call =>
      simp only [RuntimeAction.transaction, bind_eq_ok, Prod.exists, pure_eq_ok,
        Prod.mk.injEq] at htx
      obtain ⟨r, _, hclaim, -, rfl⟩ := htx
      rcases claimNext_cases hclaim with ⟨-, -, hdb⟩ | ⟨-, hclaim⟩
      · rw [hdb]
        exact .refl _ _
      · by_cases hplan : call.planId = p.planId
        · exact (PlanFrozen.refl _ _).inboxOnly (hclaim.of_locked h.consistent hl hplan).1
        · exact hclaim.frozen h.consistent hplan
    | _ => exact heffs.frozen h.consistent hl
  · rw [hdb]
    exact .refl _ _

end Steps

/-! ## The workers -/

section Runs

variable {config : RuntimeConfig} {st st' : WorkerState} {act : WorkerAction} {p : Plan}
  {e : TaskExecution}

/-- A call works for the plan it was delivered for. -/
def Addressed (st : WorkerState) : Prop :=
  ∀ c ∈ st.calls, ∀ s ∈ c.phase.snapshot?, s.planId = c.input.planId

theorem ClaimStep.snapshot_plan {registry : CapabilityRegistry} {ids : ClaimIds} {clock : Clock}
    {input : ExecuteNextInput} {db db' : Db} {r : ClaimNextTaskResult}
    (h : ClaimStep registry ids clock input db r db') {s : Snapshot} (hs : r.snapshot? = some s) :
    s.planId = input.planId := by
  cases h with
  | skipped | mismatched | busy | idle => cases hs
  | required q T s' _ hq hlive hcur hrec hm =>
    obtain rfl := Option.some.inj hs
    have hrequired : ClaimStep registry ids clock input db (.compensationRequired s') db' :=
      .required q T s' _ hq hlive hcur hrec hm
    exact hrequired.recovery_plan
  | locked q T s' _ hq _ _ hrec =>
    obtain rfl := Option.some.inj hs
    cases hrec with
    | locked t x _ _ _ hsnap => exact (recoverySnapshot_fields hsnap).2.1.trans (Table.key_of_get? hq)
  | claimed q t d c db₁ db₂ _ hq =>
    obtain rfl := Option.some.inj hs
    show q.planId = input.planId
    exact Table.key_of_get? hq

theorem Addressed.setCall {index : Nat} {call call' : Call} {a : Option RuntimeAction}
    {r : RuntimeState} (h : Addressed st) (hcall : st.calls[index]? = some call)
    (hcases : CallStep config st.runtime.db call a call') : Addressed (st.setCall index call' r) := by
  intro c hc s hs
  rcases List.mem_or_eq_of_mem_set hc with hc | rfl
  · exact h c hc s hs
  · rw [hcases.input]
    rcases hcases.snapshot hs with hold | ⟨ids, clock, seen, result, db', -, hclaim, hresult⟩
    · exact h call (List.mem_of_getElem? hcall) s hold
    · rcases claimNext_cases hclaim with ⟨-, hterm, -⟩ | ⟨-, hclaim⟩
      · rw [hterm] at hresult
        cases hresult
      · exact hclaim.snapshot_plan hresult

theorem reachable_addressed {ok : WorkerState → WorkerAction → Prop}
    (h : (workers config).ReachableVia ok st) : Addressed st := by
  refine h.invariant (P := Addressed) ?_ fun s act s' _ ha _ hstep => ?_
  · rintro s ⟨-, hcalls⟩ c hc
    rw [hcalls] at hc
    cases hc
  · cases workers_step_cases hstep with
    | planned => exact ha
    | delivered input =>
      intro c hc x hx
      rcases List.mem_append.mp hc with hc | hc
      · exact ha c hc x hx
      · rw [List.mem_singleton.mp hc] at hx
        cases hx
    | moved _ _ _ _ _ hcall _ hcases | committed _ _ _ _ _ _ _ hcall _ hcases =>
      exact ha.setCall hcall hcases

/-- A snapshot of the plan denotes no attempt that could still run or be compensated. -/
theorem Locked.not_denotes {db : Db} (hl : Locked db p e) {s : Snapshot}
    (hplan : s.planId = p.planId) {status : TaskExecutionStatus}
    (hst : status ≠ .compensationLocked) : ¬ Denotes db s status := by
  rintro ⟨⟨q, hq, hid, hcur⟩, -, x, hx, hxst, -⟩
  obtain rfl := Table.eq_of_key (Table.mem_iff.mpr hq) hl.plan (hid.trans hplan)
  have htask : s.taskId = e.taskId := Option.some.inj (hcur.symm.trans hl.current)
  rw [htask, hl.latest] at hx
  obtain rfl := Option.some.inj hx
  rw [hl.locked] at hxst
  exact hst hxst.symm

/-- **Nothing but the inbox**: a transaction with a snapshot of the plan raises, and a claim of it
records its event at most. -/
theorem Locked.transaction_inboxOnly {rst rst' : RuntimeState} {a : RuntimeAction}
    (h : Owned config.registry rst) (hl : Locked rst.db p e)
    (hplan : (∃ s, a.snapshot? = some s ∧ s.planId = p.planId) ∨
      ∃ ids clock seen call, a = .claim ids clock seen call ∧ call.planId = p.planId)
    (hstep : (runtime config).step rst a = some rst') : InboxOnly rst.db rst'.db := by
  obtain ⟨hen, -⟩ := runtime_step hstep
  rcases runtime_step_cases hstep with ⟨x, db', htx, rfl, -⟩ | ⟨f, -, hdb, -⟩
  · rcases hplan with ⟨s, hs, hplan⟩ | ⟨ids, clock, seen, call, rfl, hplan⟩
    · have hcurrent := transaction_current h.consistent (snapshot_coherent h hen s hs) hs htx
      have hrun : ¬ Denotes rst.db s .running := hl.not_denotes hplan (by decide)
      have hreq : ¬ Denotes rst.db s .compensationRequired := hl.not_denotes hplan (by decide)
      cases a with
      | complete | fail | requireCompensation => exact absurd hcurrent.1 hrun
      | beginCompensation | handleCompensationFailure | completeCompensation =>
        exact absurd hcurrent hreq
      | _ => cases hs
    · simp only [RuntimeAction.transaction, bind_eq_ok, Prod.exists, pure_eq_ok,
        Prod.mk.injEq] at htx
      obtain ⟨r, _, hclaim, -, rfl⟩ := htx
      rcases claimNext_cases hclaim with ⟨-, -, hdb⟩ | ⟨-, hclaim⟩
      · rw [hdb]
        exact .refl _
      · exact (hclaim.of_locked h.consistent hl hplan).1
  · rw [hdb]
    exact .refl _

/-- A transaction that a call commits is a claim of its plan, or uses the snapshot of the call. -/
theorem CallStep.uses {db : Db} {call call' : Call} {a : RuntimeAction} {y : Option Snapshot × Db}
    (h : CallStep config db call (some a) call') (hok : a.transaction config db = .ok y) :
    (∃ s ∈ call.phase.snapshot?, a.snapshot? = some s) ∨
      ∃ ids clock seen, a = .claim ids clock seen call.input := by
  cases h with
  | claimed ids clock seen | recovering ids clock seen | skipped ids clock seen =>
    exact .inr ⟨ids, clock, seen, rfl⟩
  | completed newEventId clock t outputJson resourceRefs db' hphase =>
    exact .inl ⟨t.toSnapshot, by rw [hphase]; rfl, rfl⟩
  | failed newEventId clock t error db' hphase =>
    exact .inl ⟨t.toSnapshot, by rw [hphase]; rfl, rfl⟩
  | required t error db' hphase => exact .inl ⟨t.toSnapshot, by rw [hphase]; rfl, rfl⟩
  | begun clock s eventId attempt db' hphase => exact .inl ⟨s, by rw [hphase]; rfl, rfl⟩
  | concluded newEventId clock s eventId attempt outcome db' hphase =>
    exact .inl ⟨s, by rw [hphase]; rfl, rfl⟩
  | unsuccessful newEventId clock s eventId attempt error outcome db' hphase =>
    exact .inl ⟨s, by rw [hphase]; rfl, rfl⟩
  | raised _ f hf =>
    rw [hf] at hok
    cases hok

/-- **A step of a delivery for the plan** adds at most a record of its event. -/
theorem Locked.step_inboxOnly (h : (workers config).Reachable st) (hl : Locked st.runtime.db p e)
    {index : Nat} {action : CallAction} {call : Call} (hcall : st.calls[index]? = some call)
    (hplan : call.input.planId = p.planId)
    (hstep : (workers config).step st (.call index action) = some st') :
    InboxOnly st.runtime.db st'.runtime.db := by
  have howned := reachable_owned (workers_runtime_reachable h)
  cases workers_step_cases hstep with
  | planned _ _ hact => cases hact
  | delivered _ hact => cases hact
  | moved => exact .refl _
  | committed i action' call₀ call' a r hact hcall₀ _ hcases _ hr =>
    cases hact
    obtain rfl := Option.some.inj (hcall.symm.trans hcall₀)
    rcases runtime_step_cases hr with ⟨x, db', htx, -, -⟩ | ⟨f, -, hdb, -⟩
    · refine hl.transaction_inboxOnly howned ?_ hr
      rcases hcases.uses htx with ⟨s, hs, ha⟩ | ⟨ids, clock, seen, rfl⟩
      · refine .inl ⟨s, ha, ?_⟩
        rw [reachable_addressed h call (List.mem_of_getElem? hcall) s hs, hplan]
      · exact .inr ⟨ids, clock, seen, call.input, rfl, hplan⟩
    · show InboxOnly st.runtime.db r.db
      rw [hdb]
      exact .refl _

/-- Every call that compensates an execution did so before: its attempt was counted, but its
compensator need not have been called yet. -/
def NoneBegins (x : ExecutionId) (st st' : WorkerState) : Prop :=
  ∀ (i : Nat) (c' : Call), st'.calls[i]? = some c' → c'.phase.compensates? = some x →
    ∃ c, st.calls[i]? = some c ∧ c.phase.compensates? = some x

theorem NoneBegins.trans {x : ExecutionId} {a b c : WorkerState} (h : NoneBegins x a b)
    (g : NoneBegins x b c) : NoneBegins x a c := by
  intro i call hi hx
  obtain ⟨call', hi', hx'⟩ := g i call hi hx
  exact h i call' hi' hx'

/-- An attempt to compensate the locked execution cannot be counted. -/
theorem Locked.noneBegins (hl : Locked st.runtime.db p e)
    (hstep : (workers config).step st act = some st') : NoneBegins e.executionId st st' := by
  have hset : ∀ {index call call' a r}, st.calls[index]? = some call →
      CallStep config st.runtime.db call a call' →
      NoneBegins e.executionId st (st.setCall index call' r) := by
    intro index call call' a r hcall hcases i c' hi hx
    rcases get?_set hi with ⟨rfl, rfl⟩ | ⟨-, hi⟩
    · rcases hcases.compensates hx with hold | ⟨clock, s, n, db', -, hbegin, hid⟩
      · exact ⟨call, hcall, hold⟩
      · obtain ⟨q, t, x, hlock, -, -⟩ := beginCompensationAttempt_cases hbegin
        obtain ⟨-, -, hx', -, -, hst, -⟩ := lockCompensationToken_eq_ok.mp hlock
        obtain ⟨hxm, hxid⟩ := Table.get?_eq_some.mp hx'
        rw [Table.eq_of_key hxm hl.execution (hxid.trans hid), hl.locked] at hst
        cases hst
    · exact ⟨c', hi, hx⟩
  cases workers_step_cases hstep with
  | planned => exact fun i c hi hx => ⟨c, hi, hx⟩
  | delivered input =>
    intro i c hi hx
    rcases get?_append hi with hi | ⟨-, rfl⟩
    · exact ⟨c, hi, hx⟩
    · cases hx
  | moved index action call call' _ hcall _ hcases => exact hset hcall hcases
  | committed index action call call' a r _ hcall _ hcases => exact hset hcall hcases

theorem workers_step_frozen (h : (workers config).Reachable st) (hl : Locked st.runtime.db p e)
    (hstep : (workers config).step st act = some st') :
    PlanFrozen p.planId st.runtime.db st'.runtime.db := by
  have howned := reachable_owned (workers_runtime_reachable h)
  cases workers_step_cases hstep with
  | planned a r _ _ hr => exact runtime_step_frozen howned hl hr
  | delivered | moved => exact .refl _ _
  | committed index action call call' a r _ _ _ _ _ hr => exact runtime_step_frozen howned hl hr

end Runs

/-- **`COMPENSATION_LOCKED` is absorbing**: along every run from a state in which the current
execution of a plan is locked, the rows of the plan stay as they are, every call that is found
compensating the execution was doing so at the start, and whatever a delivery for the plan does
next changes no table but the inbox.  A call whose attempt was counted before the lock may invoke its
compensator after it. -/
theorem compensationLocked_absorbing (config : RuntimeConfig) (st : WorkerState)
    (h : (workers config).Reachable st) (p : Plan) (e : TaskExecution)
    (hlock : Locked st.runtime.db p e) (acts : List WorkerAction) (st' : WorkerState)
    (hrun : (workers config).run st acts = some st') :
    Locked st'.runtime.db p e ∧ PlanFrozen p.planId st.runtime.db st'.runtime.db ∧
      NoneBegins e.executionId st st' ∧
      ∀ index action call st'', st'.calls[index]? = some call → call.input.planId = p.planId →
        (workers config).step st' (.call index action) = some st'' →
        InboxOnly st'.runtime.db st''.runtime.db := by
  have hkept := Machine.RunVia.preserves
    (P := fun x => Locked x.runtime.db p e ∧ PlanFrozen p.planId st.runtime.db x.runtime.db ∧
      NoneBegins e.executionId st x) ?_ h (.of_run hrun)
    ⟨hlock, .refl _ _, fun i c hi hx => ⟨c, hi, hx⟩⟩
  · obtain ⟨hl, hf, hn⟩ := hkept
    exact ⟨hl, hf, hn, fun index action call st'' hcall hplan hstep =>
      hl.step_inboxOnly (h.run hrun) hcall hplan hstep⟩
  · intro x act y hx ⟨hl, hf, hn⟩ _ hstep
    have hfrozen := workers_step_frozen hx hl hstep
    have hcons := (reachable_owned (workers_runtime_reachable hx)).consistent
    have hcons' := (reachable_owned (workers_runtime_reachable (hx.step trivial hstep))).consistent
    exact ⟨hl.frozen hcons hcons' hfrozen, hf.trans hfrozen, hn.trans (hl.noneBegins hstep)⟩

/-- The lease wake-up of the locked execution is delivered. -/
def wakeLocked : List WorkerAction :=
  [ .deliver ⟨1, some 2, none, none⟩, .call 1 .check,
    .call 1 (.claim ⟨2, 2, 2, 5⟩ (.at (timedelta 600))) ]

def wokenLocked : WorkerState :=
  ((workers oneAttemptConfig).run firstTaskLocked wakeLocked).getD noWorkers

/-- The plan, the task and the execution are as they were, and the event is recorded. -/
theorem wokenLocked_frozen :
    PlanFrozen 1 firstTaskLocked.runtime.db wokenLocked.runtime.db ∧
      wokenLocked.runtime.db.inbox.rows.length = 2 := by
  have hrun : (workers oneAttemptConfig).run noWorkers lockFirstTask = some firstTaskLocked := rfl
  have hlenP : 0 < firstTaskLocked.runtime.db.plans.rows.length := by decide
  have hlenE : 0 < firstTaskLocked.runtime.db.taskExecutions.rows.length := by decide
  have hlock : Locked firstTaskLocked.runtime.db (firstTaskLocked.runtime.db.plans.rows[0])
      (firstTaskLocked.runtime.db.taskExecutions.rows[0]) :=
    ⟨List.getElem_mem hlenP, List.getElem_mem hlenE, rfl, rfl, rfl⟩
  exact ⟨(compensationLocked_absorbing oneAttemptConfig firstTaskLocked
    (workers_reachable_of_run (.of_run hrun)) _ _ hlock wakeLocked wokenLocked rfl).2.1, by decide⟩

end DocFlow.TaskRuntime
