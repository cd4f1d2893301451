import DocFlow.Workflow.PlanTasks

/-!
# The revision chain

Every run keeps the plans of a workflow in a chain, and a plan that has been superseded or has
failed stays as it is, with all its tasks ended (`revision_chain`).
-/

namespace DocFlow.Workflow

open Planning TaskRuntime

section Runs

variable {config : RuntimeConfig} {s s' : WorkflowState}

theorem workflow_buried {ok : WorkflowState → WorkflowAction → Prop}
    (h : (workflows config).ReachableVia ok s) : Buried (view s.runtime.db) := by
  refine h.invariant (P := fun s => Buried (view s.runtime.db)) ?_ ?_
  · intro s hi p hp
    rw [Table.mem_iff, (WorkflowState.Fresh.blank hi).2.1] at hp
    cases hp
  · exact fun _ _ _ hr hb _ hstep =>
      hb.step (workflow_lineage hr) (workflow_step_cases (workflow_owned hr) hstep)

/-- What a dead plan keeps. -/
structure StaysDead (p : Plan) (rows : List Task) (v : View) : Prop where
  plan : ∃ p' ∈ v.plans, p'.planId = p.planId ∧ p'.status = p.status
  rows : v.rowsOf p.planId = rows

/-- **A dead plan stays as it is** along every run. -/
theorem dead_run {as : List WorkflowAction} (hs : (workflows config).Reachable s)
    (hrun : (workflows config).run s as = some s') {p : Plan} (hp : p ∈ s.runtime.db.plans)
    (hdead : isDead p.status = true) :
    StaysDead p ((view s.runtime.db).rowsOf p.planId) (view s'.runtime.db) := by
  have hstart : StaysDead p ((view s.runtime.db).rowsOf p.planId) (view s.runtime.db) :=
    ⟨⟨p, hp, rfl, rfl⟩, rfl⟩
  refine (Machine.RunVia.of_run hrun).preserves
    (P := fun s' => StaysDead p ((view s.runtime.db).rowsOf p.planId) (view s'.runtime.db)) ?_ hs
    hstart
  rintro s₁ a s₂ hr ⟨⟨q, hq, hid, hst⟩, hrows⟩ - hstep
  have hcases := workflow_step_cases (workflow_owned hr) hstep
  have hqdead : isDead q.status = true := by rw [hst]; exact hdead
  obtain ⟨q', hq', hmove⟩ := ((workflow_lineage hr).plansStep hcases).forth q hq
  refine ⟨⟨q', hq', hmove.same.planId.trans hid, (hmove.ended (isEnded_of_dead hqdead)).trans hst⟩, ?_⟩
  rw [← hrows, ← hid]
  exact (workflow_buried hr).rows_step (workflow_lineage hr) hcases hq hqdead

/-- A claim starts a task of a plan that is ready or running. -/
theorem claimed_working {registry : CapabilityRegistry} {ids : ClaimIds} {clock : Clock} {seen : Bool}
    {call : ExecuteNextInput} {db db' : Db} {task : TaskSnapshot}
    (h : claimNext registry ids clock seen call db = .ok (.claimed task, db')) :
    ∃ p ∈ db.plans, p.planId = task.planId ∧ isWorking p.status = true := by
  rcases claimNext_cases h with ⟨-, h, -⟩ | ⟨-, h⟩
  · cases h
  · cases h with
    | claimed p t d c _ _ _ hp _ _ hst => exact ⟨p, Table.mem_of_get? hp, rfl, isWorking_of hst⟩

/-- The statuses of a task that has not ended. -/
def isUnfinished : TaskStatus → Bool
  | .draft | .pending | .running | .retryWait => true
  | _ => false

theorem revisions_of_workflow {v : View} (hv : Lineage v) (workflowId : WorkflowId) :
    ∃ n ≤ maxPlanRevisions,
      (((v.plans.rows.filter fun p => p.workflowId = workflowId).map Plan.revision).Perm
        (List.range' 1 n)) := by
  have hmem : ∀ p, p ∈ (v.plans.rows.filter fun p => p.workflowId = workflowId) ↔
      p ∈ v.plans ∧ p.workflowId = workflowId := by
    intro p
    rw [List.mem_filter, decide_eq_true_eq, Table.mem_iff]
  generalize hplans : (v.plans.rows.filter fun p => p.workflowId = workflowId) = plans at hmem ⊢
  have hnodup : plans.Nodup := by
    rw [← hplans]
    exact (List.Nodup.of_map _ v.plans.nodup).filter _
  -- the highest revision there is
  let n := Nat.findGreatest (· ∈ plans.map Plan.revision) maxPlanRevisions
  refine ⟨n, Nat.findGreatest_le _, ?_⟩
  refine (List.perm_ext_iff_of_nodup (hnodup.map_on fun p hp q hq hk => ?_) List.nodup_range').mpr
    fun k => ?_
  · obtain ⟨hpm, hpw⟩ := (hmem p).mp hp
    obtain ⟨hqm, hqw⟩ := (hmem q).mp hq
    exact hv.workflowUnique p hpm q hqm (by rw [workflowRevision, hpw, hk, ← hqw, workflowRevision])
  · rw [List.mem_range'_1]
    constructor
    · intro hk
      obtain ⟨p, hp, rfl⟩ := List.mem_map.mp hk
      obtain ⟨hlow, hhigh⟩ := hv.bounded p ((hmem p).mp hp).1
      have hle : p.revision ≤ n := Nat.le_findGreatest hhigh hk
      omega
    · rintro ⟨hlow, hhigh⟩
      have hn : n ∈ plans.map Plan.revision := by
        refine Nat.findGreatest_of_ne_zero (P := (· ∈ plans.map Plan.revision)) rfl ?_
        omega
      obtain ⟨p, hp, hpn⟩ := List.mem_map.mp hn
      obtain ⟨hpm, hpw⟩ := (hmem p).mp hp
      rcases Nat.lt_or_eq_of_le (show k ≤ p.revision by omega) with hlt | rfl
      · obtain ⟨q, hq, hqw, -, rfl, -⟩ := hv.below hpm hlow hlt
        exact List.mem_map_of_mem ((hmem q).mpr ⟨hq, hqw.trans hpw⟩)
      · exact List.mem_map_of_mem hp

/-- **The revision chain.** -/
theorem revision_chain (hs : (workflows config).Reachable s) (workflowId : WorkflowId) :
    (∃ n ≤ maxPlanRevisions, ((s.runtime.db.plans.rows.filter fun p =>
      p.workflowId = workflowId).map Plan.revision).Perm (List.range' 1 n)) ∧
    ∀ p ∈ s.runtime.db.plans, p.workflowId = workflowId →
      (∀ q ∈ s.runtime.db.plans, q.workflowId = workflowId → q.revision = p.revision → q = p) ∧
      (∀ q ∈ s.runtime.db.plans, q.workflowId = workflowId → q.revision = p.revision + 1 →
        q.parentPlanId = some p.planId) ∧
      (isEnded p.status = false →
        ∀ q ∈ s.runtime.db.plans, q.workflowId = workflowId → q.revision ≤ p.revision) ∧
      (p.status = .superseded ∨ p.status = .failed →
        ∀ as s', (workflows config).run s as = some s' →
          (∃ p' ∈ s'.runtime.db.plans, p'.planId = p.planId ∧ p'.status = p.status) ∧
          (∀ t ∈ s'.runtime.db.tasks, t.planId = p.planId → isUnfinished t.status = false) ∧
          (s'.runtime.db.tasks.rows.filter fun t => t.planId = p.planId) =
            (s.runtime.db.tasks.rows.filter fun t => t.planId = p.planId) ∧
          ∀ ids clock seen call task db', claimNext config.registry ids clock seen call
            s'.runtime.db = .ok (.claimed task, db') → task.planId ≠ p.planId) := by
  have hv := workflow_lineage hs
  refine ⟨revisions_of_workflow hv workflowId, fun p hp hpw => ⟨?_, ?_, ?_, ?_⟩⟩
  · intro q hq hqw hrev
    exact hv.workflowUnique q hq p hp (by rw [workflowRevision, hqw, hrev, ← hpw, workflowRevision])
  · intro q hq hqw hrev
    exact hv.parent hp hq (hqw.trans hpw.symm) hrev
  · intro hlive q hq hqw
    by_contra hlt
    rw [hv.superseded_of_lt hp hq (hpw.trans hqw.symm) (Nat.lt_of_not_le hlt)] at hlive
    cases hlive
  · intro hst as s' hrun
    have hdead : isDead p.status = true := by rcases hst with hst | hst <;> rw [hst] <;> rfl
    have hs' : (workflows config).Reachable s' := hs.run hrun
    obtain ⟨⟨p', hp', hid, hst'⟩, hrows⟩ := dead_run hs hrun hp hdead
    have hdead' : isDead p'.status = true := by rw [hst']; exact hdead
    refine ⟨⟨p', hp', hid, hst'⟩, fun t ht htp => ?_, hrows, ?_⟩
    · have hended := workflow_buried hs' p' hp' hdead' t (mem_rowsOf.mpr ⟨ht, htp.trans hid.symm⟩)
      cases hts : t.status <;> rw [hts] at hended <;> first | rfl | cases hended
    · rintro ids clock seen call task db' hclaim heq
      obtain ⟨q, hq, hqid, hworking⟩ := claimed_working hclaim
      obtain rfl : q = p' := Table.eq_of_key hq hp' (hqid.trans (heq.trans hid.symm))
      rw [isDead_of_working hworking] at hdead'
      cases hdead'

end Runs

/-- The planner fails, and the event is answered by a second revision. -/
def failThenRevise : List WorkflowAction :=
  sendFirstMessage ++
    [ .markPlanRetryPending 1 0 0 1 modelTimeout,
      .runtime (.prepareRevision 2 (.at 0) false 1) ]

def revisedOnce : WorkflowState := nothingSent.afterAll failThenRevise

theorem revision_chain_revisedOnce :
    (revisedOnce.runtime.db.plans.rows.map fun p => (p.revision, p.status)) =
        [(1, .superseded), (2, .planning)] ∧
      (∃ n ≤ maxPlanRevisions, ((revisedOnce.runtime.db.plans.rows.filter fun p =>
        p.workflowId = 1).map Plan.revision).Perm (List.range' 1 n)) ∧
      ∀ as s', (workflows defaultConfig).run revisedOnce as = some s' →
        ∃ p' ∈ s'.runtime.db.plans, p'.planId = 1 ∧ p'.status = .superseded := by
  have hreach : (workflows defaultConfig).Reachable revisedOnce :=
    reachable_of_workflowRun failThenRevise rfl
  obtain ⟨hrevisions, hchain⟩ := revision_chain hreach 1
  obtain ⟨-, -, -, hdead⟩ := hchain _ (.head _) rfl
  exact ⟨by decide, hrevisions, fun as s' hrun => (hdead (.inl rfl) as s' hrun).1⟩

end DocFlow.Workflow
