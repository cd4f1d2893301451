import DocFlow.Planning.Dag
import DocFlow.TaskRuntime.Ownership

/-!
# The task graph of a plan

A published plan stores its edges once, they join tasks of the plan and they are ranked
(`Edges`); the tasks of a plan that is being planned are drafts, and those of a plan under execution
can go on (`Executable`).  Every effect keeps both, whatever else happens to plans that are not
executed any more.  So an idle plan under execution always has a task that can be claimed.
-/

namespace DocFlow.TaskRuntime

/-! ## The invariants -/

/-- The stored edges. -/
structure Edges (db : Db) : Prop where
  unique : (db.taskDependencies.rows.map TaskDependency.edge).Nodup
  joins : ∀ d ∈ db.taskDependencies,
    (∃ t ∈ db.tasks, t.taskId = d.taskId ∧ t.planId = d.planId ∧ t.status ≠ .draft) ∧
    ∃ t ∈ db.tasks, t.taskId = d.dependsOnTaskId ∧ t.planId = d.planId
  ranked : ∀ planId, ∃ rank : TaskId → Nat, ∀ d ∈ db.taskDependencies, d.planId = planId →
    rank d.dependsOnTaskId < rank d.taskId

/-- The statuses of the tasks of a plan that is being executed. -/
def isLive : TaskStatus → Bool
  | .pending | .retryWait | .running | .succeeded => true
  | _ => false

/-- Some task of the plan has not succeeded. -/
def Unfinished (db : Db) (p : Plan) : Prop :=
  ∃ t ∈ db.tasks, t.planId = p.planId ∧ t.status ≠ .succeeded

/-- What the status of a plan that can still be executed says about its tasks. -/
def Executable (db : Db) (p : Plan) : Prop :=
  match p.status with
  | .planning => ∀ t ∈ db.tasks, t.planId = p.planId → t.status = .draft
  | .ready | .running => (∀ t ∈ db.tasks, t.planId = p.planId → isLive t.status = true) ∧
      Unfinished db p
  | _ => True

theorem executable_iff {db : Db} {p : Plan} : Executable db p ↔
    (p.status = .planning → ∀ t ∈ db.tasks, t.planId = p.planId → t.status = .draft) ∧
    (p.status = .ready ∨ p.status = .running →
      (∀ t ∈ db.tasks, t.planId = p.planId → isLive t.status = true) ∧ Unfinished db p) := by
  unfold Executable
  cases p.status <;> simp

structure TaskGraph (db : Db) : Prop where
  edges : Edges db
  executable : ∀ p ∈ db.plans, Executable db p

/-! ## The edges -/

section EdgeLemmas

variable {db db' : Db}

/-- Rewriting tasks in place keeps the edges, as long as none is a draft again. -/
theorem Edges.rewrite (h : Edges db) (hdeps : db'.taskDependencies = db.taskDependencies)
    (htasks : ∀ t ∈ db.tasks, ∃ t' ∈ db'.tasks, t'.taskId = t.taskId ∧ t'.planId = t.planId ∧
      (t.status ≠ .draft → t'.status ≠ .draft)) : Edges db' where
  unique := hdeps ▸ h.unique
  joins := by
    intro d hd
    rw [hdeps] at hd
    obtain ⟨⟨t, ht, h₁, h₂, h₃⟩, x, hx, h₄, h₅⟩ := h.joins d hd
    obtain ⟨t', ht', g₁, g₂, g₃⟩ := htasks t ht
    obtain ⟨x', hx', g₄, g₅, -⟩ := htasks x hx
    exact ⟨⟨t', ht', g₁.trans h₁, g₂.trans h₂, g₃ h₃⟩, x', hx', g₄.trans h₄, g₅.trans h₅⟩
  ranked := hdeps ▸ h.ranked

theorem Edges.of_eq (h : Edges db) (hdeps : db'.taskDependencies = db.taskDependencies)
    (htasks : db'.tasks = db.tasks) : Edges db' :=
  h.rewrite hdeps fun t ht => ⟨t, htasks ▸ ht, rfl, rfl, id⟩

theorem predecessorIds_nodup (h : Edges db) (taskId : TaskId) : (db.predecessorIds taskId).Nodup := by
  refine List.Nodup.map_on ?_ ((List.Nodup.of_map _ db.taskDependencies.nodup).filter _)
  intro x hx y hy hxy
  obtain ⟨hx, hxt⟩ := List.mem_filter.mp hx
  obtain ⟨hy, hyt⟩ := List.mem_filter.mp hy
  rw [decide_eq_true_eq] at hxt hyt
  exact List.inj_on_of_nodup_map h.unique hx hy (Prod.ext (hxt.trans hyt.symm) hxy)

/-- **The count in the selection query tests every predecessor.** -/
theorem isRunnable_iff (h : Edges db) {t : Task} :
    db.isRunnable .succeeded t = true ↔ ∀ d ∈ db.taskDependencies, d.taskId = t.taskId →
      ∃ x ∈ db.tasks, x.taskId = d.dependsOnTaskId ∧ x.status = .succeeded := by
  -- the identifiers of the rows that are counted
  have hcount : db.succeededCount (db.predecessorIds t.taskId) .succeeded =
      ((db.tasks.rows.filter fun x => x.taskId ∈ db.predecessorIds t.taskId ∧
        x.status = .succeeded).map Task.taskId).length := by
    rw [List.length_map]
    rfl
  have hnodup : ((db.tasks.rows.filter fun x => x.taskId ∈ db.predecessorIds t.taskId ∧
      x.status = .succeeded).map Task.taskId).Nodup :=
    db.tasks.nodup.sublist (List.filter_sublist.map _)
  have hmem : ∀ i, i ∈ (db.tasks.rows.filter fun x => x.taskId ∈ db.predecessorIds t.taskId ∧
      x.status = .succeeded).map Task.taskId ↔
      i ∈ db.predecessorIds t.taskId ∧ ∃ x ∈ db.tasks, x.taskId = i ∧ x.status = .succeeded := by
    intro i
    simp only [List.mem_map, List.mem_filter, decide_eq_true_eq]
    constructor
    · rintro ⟨x, ⟨hx, hp, hst⟩, rfl⟩
      exact ⟨hp, x, hx, rfl, hst⟩
    · rintro ⟨hp, x, hx, rfl, hst⟩
      exact ⟨x, ⟨hx, hp, hst⟩, rfl⟩
  have hsub := (List.subperm_of_subset hnodup fun i hi => ((hmem i).mp hi).1)
  have hpreds := predecessorIds_nodup h t.taskId
  constructor
  · intro hrun d hd hdt
    have hin : d.dependsOnTaskId ∈ db.predecessorIds t.taskId :=
      Db.mem_predecessorIds.mpr ⟨d, hd, hdt, rfl⟩
    have hlen : db.succeededCount (db.predecessorIds t.taskId) .succeeded =
        (db.predecessorIds t.taskId).length := by
      rw [Db.isRunnable, Bool.or_eq_true, decide_eq_true_eq] at hrun
      rcases hrun with hrun | hrun
      · rw [List.isEmpty_iff.mp hrun] at hin
        cases hin
      · exact hrun
    have hperm := hsub.perm_of_length_le (by rw [← hcount, hlen])
    exact ((hmem _).mp (hperm.mem_iff.mpr hin)).2
  · intro hall
    have hsup := List.subperm_of_subset hpreds fun i hi => (hmem i).mpr ⟨hi, by
      obtain ⟨d, hd, hdt, rfl⟩ := Db.mem_predecessorIds.mp hi
      exact hall d hd hdt⟩
    rw [Db.isRunnable, Bool.or_eq_true, decide_eq_true_eq]
    refine .inr ?_
    rw [hcount]
    exact le_antisymm hsub.length_le hsup.length_le

/-- Publication adds the edges of a plan that had none. -/
theorem Edges.publish (h : Edges db) {p : Plan} {tasks : List Task}
    {pairs : List (TaskId × TaskId)} {newDependencyId : Nat → DependencyId}
    {table : Table TaskDependency.dependencyId}
    (hnone : ∀ d ∈ db.taskDependencies, d.planId ≠ p.planId)
    (htasks : ∀ t ∈ tasks, t ∈ db.tasks ∧ t.planId = p.planId)
    (hnodup : (tasks.map Task.taskId).Nodup) (hdag : Planning.validateDag tasks = .ok pairs)
    (hadd : db.addDependencies (Planning.dependencyRows p.planId newDependencyId pairs) =
      .ok (db.setTaskDependencies table))
    (hdeps : db'.taskDependencies = table)
    (htasks' : ∀ t ∈ db.tasks, ∃ t' ∈ db'.tasks, t'.taskId = t.taskId ∧ t'.planId = t.planId ∧
      (t.status ≠ .draft → t'.status ≠ .draft) ∧ (t ∈ tasks → t'.status ≠ .draft)) : Edges db' := by
  obtain ⟨table', htable, hrows, hunique⟩ := Db.addDependencies_eq_ok hadd
  obtain rfl : table = table' := congrArg Db.taskDependencies htable
  obtain ⟨⟨rank, hrank⟩, hjoin⟩ := Planning.validateDag_ranked hdag hnodup
  have hmem : ∀ d, d ∈ db'.taskDependencies ↔ d ∈ db.taskDependencies ∨
      d ∈ Planning.dependencyRows p.planId newDependencyId pairs := by
    intro d
    rw [hdeps, Table.mem_iff, hrows, List.mem_append, Table.mem_iff]
  have hnew : ∀ d ∈ Planning.dependencyRows p.planId newDependencyId pairs,
      d.planId = p.planId ∧ (d.taskId, d.dependsOnTaskId) ∈ pairs := by
    intro d hd
    obtain ⟨⟨pair, i⟩, hpair, rfl⟩ := List.mem_map.mp hd
    exact ⟨rfl, List.fst_mem_of_mem_zipIdx hpair⟩
  refine ⟨?_, ?_, ?_⟩
  · rw [hdeps]
    exact hunique h.unique
  · intro d hd
    rcases (hmem d).mp hd with hd | hd
    · obtain ⟨⟨t, ht, h₁, h₂, h₃⟩, x, hx, h₄, h₅⟩ := h.joins d hd
      obtain ⟨t', ht', g₁, g₂, g₃, -⟩ := htasks' t ht
      obtain ⟨x', hx', g₄, g₅, -⟩ := htasks' x hx
      exact ⟨⟨t', ht', g₁.trans h₁, g₂.trans h₂, g₃ h₃⟩, x', hx', g₄.trans h₄, g₅.trans h₅⟩
    · obtain ⟨hplan, hpair⟩ := hnew d hd
      obtain ⟨⟨t, ht, hid⟩, x, hx, hxid⟩ := hjoin _ hpair
      obtain ⟨htm, htp⟩ := htasks t ht
      obtain ⟨hxm, hxp⟩ := htasks x hx
      obtain ⟨t', ht', g₁, g₂, -, g₃⟩ := htasks' t htm
      obtain ⟨x', hx', g₄, g₅, -⟩ := htasks' x hxm
      refine ⟨⟨t', ht', g₁.trans hid, ?_, g₃ ht⟩, x', hx', g₄.trans hxid, ?_⟩
      · rw [g₂, htp, hplan]
      · rw [g₅, hxp, hplan]
  · intro planId
    by_cases hp : planId = p.planId
    · refine ⟨rank, fun d hd hdp => ?_⟩
      rcases (hmem d).mp hd with hd | hd
      · exact absurd (hdp.trans hp) (hnone d hd)
      · exact hrank _ (hnew d hd).2
    · obtain ⟨rank', hrank'⟩ := h.ranked planId
      refine ⟨rank', fun d hd hdp => ?_⟩
      rcases (hmem d).mp hd with hd | hd
      · exact hrank' d hd hdp
      · exact absurd (hdp.symm.trans (hnew d hd).1) hp

end EdgeLemmas

/-! ## The tasks of a plan that can be executed -/

section ExecutableLemmas

variable {registry : CapabilityRegistry} {db db' : Db} {p : Plan}

theorem Executable.drafts (h : Executable db p) (hst : p.status = .planning) :
    ∀ t ∈ db.tasks, t.planId = p.planId → t.status = .draft := (executable_iff.mp h).1 hst

theorem Executable.live (h : Executable db p) (hst : p.status = .ready ∨ p.status = .running) :
    (∀ t ∈ db.tasks, t.planId = p.planId → isLive t.status = true) ∧ Unfinished db p :=
  (executable_iff.mp h).2 hst

theorem Executable.of_drafts (hst : p.status = .planning)
    (h : ∀ t ∈ db.tasks, t.planId = p.planId → t.status = .draft) : Executable db p :=
  executable_iff.mpr ⟨fun _ => h, fun hlive => by rcases hlive with hl | hl <;> simp [hl] at hst⟩

theorem Executable.of_live (hst : p.status = .ready ∨ p.status = .running)
    (hlive : ∀ t ∈ db.tasks, t.planId = p.planId → isLive t.status = true) (hunf : Unfinished db p) :
    Executable db p :=
  executable_iff.mpr ⟨fun hplan => by rcases hst with hl | hl <;> simp [hl] at hplan,
    fun _ => ⟨hlive, hunf⟩⟩

/-- Nothing is said about a plan that is not executed any more. -/
theorem Executable.of_ended (hplan : p.status ≠ .planning) (hready : p.status ≠ .ready)
    (hrun : p.status ≠ .running) : Executable db p :=
  executable_iff.mpr ⟨fun hst => absurd hst hplan, fun hst => absurd hst (not_or.mpr ⟨hready, hrun⟩)⟩

/-- A plan is not affected by what happens to the tasks of others. -/
theorem Executable.frame (h : Executable db p)
    (htasks : ∀ t, t.planId = p.planId → (t ∈ db'.tasks ↔ t ∈ db.tasks)) : Executable db' p := by
  refine executable_iff.mpr ⟨fun hst t ht htp => h.drafts hst t ((htasks t htp).mp ht) htp, fun hst => ?_⟩
  obtain ⟨hall, x, hx, hxp, hxst⟩ := h.live hst
  exact ⟨fun t ht htp => hall t ((htasks t htp).mp ht) htp, x, (htasks x hxp).mpr hx, hxp, hxst⟩

/-- Tasks saved under another plan. -/
theorem frame_save {t t' : Task} (ht : t ∈ db.tasks) (hsave : db'.tasks = db.tasks.save t')
    (hid : t'.taskId = t.taskId) (hplan : t'.planId = t.planId) {planId : PlanId}
    (hne : t.planId ≠ planId) : ∀ x, x.planId = planId → (x ∈ db'.tasks ↔ x ∈ db.tasks) := by
  intro x hx
  rw [hsave, Table.mem_save_of_mem ht hid]
  constructor
  · rintro (rfl | ⟨hxm, -⟩)
    · exact absurd (hplan.symm.trans hx) hne
    · exact hxm
  · intro hxm
    exact .inr ⟨hxm, fun he => hne (he ▸ hx)⟩

theorem edges_save (h : Edges db) {t t' : Task} (ht : t ∈ db.tasks)
    (hsave : db'.tasks = db.tasks.save t') (hid : t'.taskId = t.taskId)
    (hplan : t'.planId = t.planId) (hst : t'.status ≠ .draft)
    (hdeps : db'.taskDependencies = db.taskDependencies) : Edges db' := by
  refine h.rewrite hdeps ?_
  rw [hsave]
  exact (Table.Corr.save (R := fun x y => y.taskId = x.taskId ∧ y.planId = x.planId ∧
    (x.status ≠ .draft → y.status ≠ .draft)) (fun _ => ⟨rfl, rfl, id⟩) ht hid
    ⟨hid, hplan, fun _ => hst⟩).forth

/-- A task that a row of the table became under a rewriting of the rows. -/
theorem rewrite_back {f : Task → Task} (hf : ∀ t, (f t).taskId = t.taskId)
    (htasks : db'.tasks = db.tasks.mapRows f hf) {t' : Task} (ht' : t' ∈ db'.tasks) :
    ∃ t ∈ db.tasks, f t = t' := by
  rw [htasks] at ht'
  exact Table.mem_mapRows.mp ht'

theorem rewrite_forth {f : Task → Task} (hf : ∀ t, (f t).taskId = t.taskId)
    (htasks : db'.tasks = db.tasks.mapRows f hf) {t : Task} (ht : t ∈ db.tasks) :
    f t ∈ db'.tasks := by
  rw [htasks]
  exact Table.mem_mapRows.mpr ⟨t, ht, rfl⟩

/-- A plan whose tasks a rewriting leaves alone. -/
theorem frame_rewrite {f : Task → Task} (hf : ∀ t, (f t).taskId = t.taskId)
    (htasks : db'.tasks = db.tasks.mapRows f hf) {planId : PlanId}
    (hplan : ∀ t ∈ db.tasks, (f t).planId = t.planId)
    (hsame : ∀ t ∈ db.tasks, t.planId = planId → f t = t) :
    ∀ x, x.planId = planId → (x ∈ db'.tasks ↔ x ∈ db.tasks) := by
  intro x hx
  constructor
  · intro hxm
    obtain ⟨t, ht, rfl⟩ := rewrite_back hf htasks hxm
    rw [hsame t ht (by rw [← hplan t ht, hx])]
    exact ht
  · intro hxm
    have := rewrite_forth hf htasks hxm
    rwa [hsame x hxm hx] at this

/-- What an ended attempt leaves a plan with that is still executed. -/
theorem Settlement.executable {p' : Plan} {t t' : Task} {e e' : TaskExecution}
    {news : List OutboxEvent} (hcons : Consistent registry db) (hp : p ∈ db.plans)
    (hexec : Executable db p) (ht : t ∈ db.tasks) (hcur : p.currentTaskId = some t.taskId)
    (hrun : t.status = .running) (hpid : p'.planId = p.planId) (hsame : SameTask t t')
    (htasks : db'.tasks = db.tasks.save t') (h : Settlement db' p p' t t' e e' news) :
    Executable db' p' := by
  obtain ⟨hpst, y, hy, hyid, hyp, -⟩ := hcons.current p hp _ hcur
  have htp : t.planId = p.planId := by rw [← Table.eq_of_key hy ht hyid, hyp]
  have hmem : ∀ x, x ∈ db'.tasks ↔ x = t' ∨ (x ∈ db.tasks ∧ x ≠ t) := by
    intro x
    rw [htasks]
    exact Table.mem_save_of_mem ht hsame.taskId
  obtain ⟨hlive, -⟩ := hexec.live (.inr hpst)
  -- the other tasks of the plan can go on, and do not run
  have hold : ∀ x ∈ db'.tasks, x.planId = p'.planId → x = t' ∨
      (isLive x.status = true ∧ x.status ≠ .running) := by
    intro x hx hxp
    rw [hpid] at hxp
    rcases (hmem x).mp hx with rfl | ⟨hx, hne⟩
    · exact .inl rfl
    · exact .inr ⟨hlive x hx hxp, fun hxr => hne
        (hcons.running_unique hx ht (hxp.trans htp.symm) hxr hrun)⟩
  have hgoes : isLive t'.status = true → ∀ x ∈ db'.tasks, x.planId = p'.planId →
      isLive x.status = true := by
    intro ht' x hx hxp
    rcases hold x hx hxp with rfl | ⟨hl, -⟩
    · exact ht'
    · exact hl
  cases h with
  | succeeded ev _ _ hst hpst' _ _ hwait =>
    obtain ⟨x, hx, hxp, hxst⟩ := hwait
    refine .of_live (.inr (hpst'.trans hpst)) (hgoes (by rw [hst]; rfl))
      ⟨x, hx, hxp.trans hpid.symm, ?_⟩
    rcases hxst with hxst | hxst <;> simp [hxst]
  | finished ev _ _ _ hpst' => exact .of_ended (by simp [hpst']) (by simp [hpst']) (by simp [hpst'])
  | stuck x _ _ hst _ _ hx hxp hx₁ hx₂ hx₃ =>
    rcases hold x hx (hxp.trans hpid.symm) with rfl | ⟨hl, hr⟩
    · exact absurd hst hx₁
    · cases hxst : x.status <;> simp_all [isLive]
  | retried ev _ hretries _ hpst' =>
    refine .of_live (.inr (hpst'.trans hpst)) (hgoes ?_)
      ⟨t', (hmem t').mpr (.inl rfl), by rw [hsame.planId, htp, hpid], ?_⟩
    · rcases hretries.status with hst | hst <;> rw [hst] <;> rfl
    · rcases hretries.status with hst | hst <;> rw [hst] <;> decide
  | replanned ev r _ _ hpst' => exact .of_ended (by simp [hpst']) (by simp [hpst']) (by simp [hpst'])

/-- A task before and after the waiting tasks of a plan are put back. -/
theorem resumed_row (planId : PlanId) {t : Task} (ht : t ∈ db.tasks) :
    Db.withStatus (db.listByPlanIdAndStatus planId .retryWait) .pending t = t ∨
    (t.status = .retryWait ∧
      Db.withStatus (db.listByPlanIdAndStatus planId .retryWait) .pending t =
        { t with status := .pending }) := by
  unfold Db.withStatus
  split
  · next hin =>
    obtain ⟨x, hx, hid⟩ := List.mem_map.mp hin
    obtain ⟨hxm, -, hxst⟩ := Db.mem_listByPlanIdAndStatus.mp hx
    exact .inr ⟨by rw [← Table.eq_of_key hxm ht hid, hxst], rfl⟩
  · exact .inl rfl

/-- What holds of the statuses of a plan's tasks still holds, if a waiting task may be pending. -/
theorem resumed_all {planId : PlanId} (htasks : db'.tasks =
      (db.setTaskStatus (db.listByPlanIdAndStatus planId .retryWait) .pending).tasks)
    (P : TaskStatus → Prop) (hP : P .retryWait → P .pending)
    (hold : ∀ t ∈ db.tasks, t.planId = p.planId → P t.status) :
    ∀ t ∈ db'.tasks, t.planId = p.planId → P t.status := by
  intro t' ht' htp
  obtain ⟨t, ht, rfl⟩ := rewrite_back (Db.withStatus_taskId _ _) htasks ht'
  rcases resumed_row planId ht with he | ⟨hst, he⟩
  · rw [he] at htp ⊢
    exact hold t ht htp
  · rw [he] at htp ⊢
    exact hP (hst ▸ hold t ht htp)

theorem Unfinished.resume (h : Unfinished db p) {planId : PlanId} (htasks : db'.tasks =
      (db.setTaskStatus (db.listByPlanIdAndStatus planId .retryWait) .pending).tasks) :
    Unfinished db' p := by
  obtain ⟨t, ht, htp, hst⟩ := h
  refine ⟨_, rewrite_forth (Db.withStatus_taskId _ _) htasks ht, ?_, ?_⟩
  · rcases resumed_row planId ht with he | ⟨-, he⟩ <;> rw [he] <;> exact htp
  · rcases resumed_row planId ht with he | ⟨-, he⟩
    · rw [he]
      exact hst
    · rw [he]
      exact fun hc => nomatch hc

/-- A waiting task that is put back can go on as before. -/
theorem Executable.resume (h : Executable db p) {planId : PlanId}
    (htasks : db'.tasks =
      (db.setTaskStatus (db.listByPlanIdAndStatus planId .retryWait) .pending).tasks) :
    Executable db' p := by
  refine executable_iff.mpr ⟨fun hst => ?_, fun hst => ?_⟩
  · exact resumed_all htasks (fun s => s = .draft) (fun hc => nomatch hc) (h.drafts hst)
  · obtain ⟨hlive, hunf⟩ := h.live hst
    exact ⟨resumed_all htasks (fun s => isLive s = true) (fun _ => rfl) hlive, hunf.resume htasks⟩

end ExecutableLemmas

/-! ## Every effect -/

section Effects

variable {registry : CapabilityRegistry} {db db' : Db}

/-- The plans other than the one that was written. -/
theorem mem_savePlan {p p' q : Plan} (hp : p ∈ db.plans)
    (hplans : db'.plans = db.plans.save p') (hid : p'.planId = p.planId) (hq : q ∈ db'.plans) :
    q = p' ∨ (q ∈ db.plans ∧ q.planId ≠ p.planId) := by
  rw [hplans] at hq
  rcases (Table.mem_save_of_mem hp hid).mp hq with rfl | ⟨hq, hne⟩
  · exact .inl rfl
  · exact .inr ⟨hq, fun he => hne (Table.eq_of_key hq hp he)⟩

/-- Tasks and plans stay as they are. -/
theorem TaskGraph.frame (h : TaskGraph db) (hp : db'.plans = db.plans) (ht : db'.tasks = db.tasks)
    (hd : db'.taskDependencies = db.taskDependencies) : TaskGraph db' where
  edges := h.edges.of_eq hd ht
  executable := by
    intro p hpm
    rw [hp] at hpm
    exact (h.executable p hpm).frame fun t _ => by rw [ht]

theorem TaskGraph.settled (hcons : Consistent registry db) (h : TaskGraph db)
    {p p' : Plan} {t t' : Task} {e e' : TaskExecution} {news : List OutboxEvent}
    (hp : p ∈ db.plans) (ht : t ∈ db.tasks) (hcur : p.currentTaskId = some t.taskId)
    (hrun : t.status = .running) (hpid : p'.planId = p.planId) (hsame : SameTask t t')
    (hplans : db'.plans = db.plans.save p') (htasks : db'.tasks = db.tasks.save t')
    (hdeps : db'.taskDependencies = db.taskDependencies)
    (hsettle : Settlement db' p p' t t' e e' news) : TaskGraph db' := by
  have htp : t.planId = p.planId := by
    obtain ⟨-, y, hy, hyid, hyp, -⟩ := hcons.current p hp _ hcur
    rw [← Table.eq_of_key hy ht hyid, hyp]
  refine ⟨?_, fun q hq => ?_⟩
  · have hst : t'.status ≠ .draft := by
      cases hsettle with
      | succeeded _ _ _ hst => simp [hst]
      | finished _ _ _ hst => simp [hst]
      | stuck _ _ _ hst => simp [hst]
      | retried _ _ hst => rcases hst.status with hst | hst <;> simp [hst]
      | replanned _ _ _ hst => rcases hst with hst | hst <;> simp [hst]
    exact edges_save h.edges ht htasks hsame.taskId hsame.planId hst hdeps
  · rcases mem_savePlan hp hplans hpid hq with rfl | ⟨hq, hne⟩
    · exact hsettle.executable hcons hp (h.executable p hp) ht hcur hrun hpid hsame htasks
    · refine (h.executable q hq).frame (frame_save ht htasks hsame.taskId hsame.planId ?_)
      rw [htp]
      exact hne.symm

theorem TaskGraph.started (h : TaskGraph db) {p : Plan} {t : Task}
    {d : CapabilityDefinition} {clock : Clock} (hp : p ∈ db.plans)
    (hpst : p.status = .ready ∨ p.status = .running) (ht : t ∈ db.tasks)
    (htp : t.planId = p.planId) (hplans : db'.plans = db.plans.save (startPlan clock t p))
    (htasks : db'.tasks = db.tasks.save (startTask d clock t))
    (hdeps : db'.taskDependencies = db.taskDependencies) : TaskGraph db' := by
  obtain ⟨hlive, -⟩ := (h.executable p hp).live hpst
  have hmem : ∀ x, x ∈ db'.tasks ↔ x = startTask d clock t ∨ (x ∈ db.tasks ∧ x ≠ t) := by
    intro x
    rw [htasks]
    exact Table.mem_save_of_mem ht rfl
  refine ⟨edges_save h.edges ht htasks rfl rfl (by simp [startTask]) hdeps, fun q hq => ?_⟩
  rcases mem_savePlan hp hplans rfl hq with rfl | ⟨hq, hne⟩
  · refine .of_live (.inr rfl) (fun x hx hxp => ?_)
      ⟨startTask d clock t, (hmem _).mpr (.inl rfl), htp, by simp [startTask]⟩
    rcases (hmem x).mp hx with rfl | ⟨hx, -⟩
    · rfl
    · exact hlive x hx hxp
  · refine (h.executable q hq).frame (frame_save ht htasks rfl rfl ?_)
    rw [htp]
    exact hne.symm

theorem TaskGraph.published (h : TaskGraph db) {p : Plan}
    {pairs : List (TaskId × TaskId)} {newDependencyId : Nat → DependencyId}
    (hp : p ∈ db.plans) (hst : p.status = .planning)
    (hne : db.listByPlanIdAndStatus p.planId .draft ≠ [])
    (hdag : Planning.validateDag (db.listByPlanIdAndStatus p.planId .draft) = .ok pairs)
    (hplans : db'.plans = db.plans.save (Planning.publishPlan p))
    (htasks : db'.tasks = db.tasks.mapRows
      (Planning.publishTask ((db.listByPlanIdAndStatus p.planId .draft).map Task.taskId))
      (Planning.publishTask_taskId _))
    (hdeps : db.addDependencies (Planning.dependencyRows p.planId newDependencyId pairs) =
      .ok (db.setTaskDependencies db'.taskDependencies)) : TaskGraph db' := by
  have hdrafts := (h.executable p hp).drafts hst
  -- the tasks of the plan are its drafts
  have hlisted : ∀ t ∈ db.tasks,
      t.taskId ∈ (db.listByPlanIdAndStatus p.planId .draft).map Task.taskId ↔
        t.planId = p.planId := by
    intro t ht
    constructor
    · intro hin
      obtain ⟨x, hx, hid⟩ := List.mem_map.mp hin
      obtain ⟨hxm, hxp, -⟩ := Db.mem_listByPlanIdAndStatus.mp hx
      rw [← Table.eq_of_key hxm ht hid, hxp]
    · intro htp
      exact List.mem_map_of_mem (Db.mem_listByPlanIdAndStatus.mpr ⟨ht, htp, hdrafts t ht htp⟩)
  have hrow : ∀ t, (Planning.publishTask
      ((db.listByPlanIdAndStatus p.planId .draft).map Task.taskId) t).planId = t.planId := by
    intro t
    unfold Planning.publishTask
    split <;> rfl
  have hpending : ∀ t ∈ db.tasks, t.planId = p.planId → (Planning.publishTask
      ((db.listByPlanIdAndStatus p.planId .draft).map Task.taskId) t).status = .pending := by
    intro t ht htp
    rw [Planning.publishTask, if_pos ((hlisted t ht).mpr htp)]
  have hother : ∀ t ∈ db.tasks, t.planId ≠ p.planId → Planning.publishTask
      ((db.listByPlanIdAndStatus p.planId .draft).map Task.taskId) t = t := by
    intro t ht htp
    rw [Planning.publishTask, if_neg (fun hin => htp ((hlisted t ht).mp hin))]
  refine ⟨?_, fun q hq => ?_⟩
  · refine h.edges.publish (p := p) ?_ ?_ ?_ hdag hdeps rfl ?_
    · intro d hd hdp
      obtain ⟨⟨t, ht, -, htp, hnd⟩, -⟩ := h.edges.joins d hd
      exact hnd (hdrafts t ht (htp.trans hdp))
    · intro t ht
      obtain ⟨htm, htp, -⟩ := Db.mem_listByPlanIdAndStatus.mp ht
      exact ⟨htm, htp⟩
    · rw [Db.listByPlanIdAndStatus]
      exact ((List.perm_insertionSort Db.TaskOrder _).map Task.taskId).nodup_iff.mpr
        (db.tasks.nodup.sublist (List.filter_sublist.map _))
    · intro t ht
      refine ⟨_, rewrite_forth (Planning.publishTask_taskId _) htasks ht,
        Planning.publishTask_taskId _ t, hrow t, fun hnd => ?_, fun hin => ?_⟩
      · by_cases htp : t.planId = p.planId
        · rw [hpending t ht htp]
          decide
        · rw [hother t ht htp]
          exact hnd
      · rw [hpending t ht (Db.mem_listByPlanIdAndStatus.mp hin).2.1]
        decide
  · rcases mem_savePlan hp hplans rfl hq with rfl | ⟨hq, hqp⟩
    · refine .of_live (.inl rfl) (fun x hx hxp => ?_) ?_
      · obtain ⟨t, ht, rfl⟩ := rewrite_back (Planning.publishTask_taskId _) htasks hx
        rw [hpending t ht ((hrow t).symm.trans hxp)]
        rfl
      · obtain ⟨t, hin⟩ := List.exists_mem_of_ne_nil _ hne
        obtain ⟨ht, htp, -⟩ := Db.mem_listByPlanIdAndStatus.mp hin
        refine ⟨_, rewrite_forth (Planning.publishTask_taskId _) htasks ht, (hrow t).trans htp, ?_⟩
        rw [hpending t ht htp]
        decide
    · refine (h.executable q hq).frame
        (frame_rewrite (Planning.publishTask_taskId _) htasks (fun t _ => hrow t) ?_)
      exact fun t ht htq => hother t ht (by rw [htq]; exact hqp)

theorem TaskGraph.closed (h : TaskGraph db) {p p' : Plan} {status : TaskStatus} (hp : p ∈ db.plans)
    (hpid : p'.planId = p.planId) (hp' : p'.status = .superseded ∨ p'.status = .failed)
    (hstatus : status = .superseded ∨ status = .failed) (hplans : db'.plans = db.plans.save p')
    (htasks : db'.tasks = (db.setUnfinishedStatus p.planId status).tasks)
    (hdeps : db'.taskDependencies = db.taskDependencies) : TaskGraph db' := by
  have hrow : ∀ t, (Db.unfinishedWithStatus p.planId status t).planId = t.planId := by
    intro t
    unfold Db.unfinishedWithStatus
    split <;> rfl
  have hother : ∀ t, t.planId ≠ p.planId → Db.unfinishedWithStatus p.planId status t = t := by
    intro t ht
    rw [Db.unfinishedWithStatus, if_neg (fun hin => ht hin.1)]
  refine ⟨?_, fun x hx => ?_⟩
  · refine h.edges.rewrite hdeps fun t ht =>
      ⟨_, rewrite_forth (Db.unfinishedWithStatus_taskId _ _) htasks ht,
        Db.unfinishedWithStatus_taskId _ _ t, hrow t, fun hnd => ?_⟩
    unfold Db.unfinishedWithStatus
    split
    · rcases hstatus with rfl | rfl <;> exact fun hc => nomatch hc
    · exact hnd
  · rcases mem_savePlan hp hplans hpid hx with rfl | ⟨hx, hne⟩
    · rcases hp' with hst | hst <;> exact .of_ended (by simp [hst]) (by simp [hst]) (by simp [hst])
    · refine (h.executable x hx).frame
        (frame_rewrite (Db.unfinishedWithStatus_taskId _ _) htasks (fun t _ => hrow t) ?_)
      exact fun t _ htx => hother t (by rw [htx]; exact hne)

/-- **The step**: every effect keeps the graph. -/
theorem Effect.taskGraph (hcons : Consistent registry db) (h : TaskGraph db)
    (heff : Effect registry claiming db db') : TaskGraph db' := by
  cases heff with
  | quiet hp ht hd => exact h.frame hp ht hd
  | advanced _ _ _ _ _ _ hp ht hd => exact h.frame hp ht hd
  | settled p p' t t' e e' news hp ht _ hcur hst _ hpid _ hsame _ hplans htasks hdeps _ _ hsettle =>
    exact h.settled hcons hp ht hcur hst hpid hsame hplans htasks hdeps hsettle
  | resumed planId _ hp ht hd =>
    refine ⟨h.edges.rewrite hd fun t htm => ⟨_, rewrite_forth (Db.withStatus_taskId _ _) ht htm,
      Db.withStatus_taskId _ _ t, ?_, fun hnd => ?_⟩, fun p hpm => ?_⟩
    · unfold Db.withStatus
      split <;> rfl
    · unfold Db.withStatus
      split
      · exact fun hc => nomatch hc
      · exact hnd
    · rw [hp] at hpm
      exact (h.executable p hpm).resume ht
  | started p t d ids clock _ hp _ hpst ht htp _ _ _ hplans htasks hdeps =>
    exact h.started hp hpst ht htp hplans htasks hdeps
  | planCreated p hst _ hp ht hd =>
    refine ⟨h.edges.of_eq hd ht, fun q hq => ?_⟩
    rcases (Table.mem_insert hp).mp hq with hq | rfl
    · exact (h.executable q hq).frame fun t _ => by rw [ht]
    · refine .of_drafts hst fun t htm htq => ?_
      rw [ht] at htm
      obtain ⟨x, hx, hxt⟩ := hcons.planOfTask t htm
      exact absurd (hxt.trans htq) (Table.key_not_mem_of_insert hp hx)
  | taskCreated p t hp hpst htp hst _ hplans ht hd =>
    refine ⟨h.edges.rewrite hd fun x hx => ⟨x, (Table.mem_insert ht).mpr (.inl hx), rfl, rfl, id⟩,
      fun q hq => ?_⟩
    rw [hplans] at hq
    by_cases hqp : q.planId = p.planId
    · obtain rfl : q = p := Table.eq_of_key hq hp hqp
      refine .of_drafts hpst fun x hx hxp => ?_
      rcases (Table.mem_insert ht).mp hx with hx | rfl
      · exact (h.executable q hq).drafts hpst x hx hxp
      · exact hst
    · refine (h.executable q hq).frame fun x hxq => ?_
      rw [Table.mem_insert ht]
      refine or_iff_left ?_
      rintro rfl
      exact hqp (hxq.symm.trans htp)
  | published p pairs newDependencyId ev hp hst hne hdag hplans htasks hdeps =>
    exact h.published hp hst hne hdag hplans htasks hdeps
  | closed p p' status ev r hp _ _ _ _ hpid _ hp' hstatus hplans htasks hdeps =>
    exact h.closed hp hpid hp' hstatus hplans htasks hdeps

/-- The invariants of the tables, along a chain of effects. -/
theorem Effects.taskGraph (hcons : Consistent registry db) (h : TaskGraph db)
    (heffs : Effects registry claiming db db') : Consistent registry db' ∧ TaskGraph db' :=
  heffs.preserves (P := fun x => Consistent registry x ∧ TaskGraph x)
    (fun _ _ hx heff => ⟨heff.consistent hx.1, heff.taskGraph hx.1 hx.2⟩) ⟨hcons, h⟩

end Effects

/-! ## Claiming the next task -/

section Claiming

variable {registry : CapabilityRegistry} {db db' : Db}

/-- **No deadlock**: an idle plan under execution, none of whose tasks waits for a
retry, has a pending task whose predecessors have all succeeded. -/
theorem exists_runnable (hcons : Consistent registry db) (h : TaskGraph db) {p : Plan}
    (hp : p ∈ db.plans) (hst : p.status = .ready ∨ p.status = .running)
    (hcur : p.currentTaskId = none)
    (hretry : ∀ t ∈ db.tasks, t.planId = p.planId → t.status ≠ .retryWait) :
    db.getNextRunnable p.planId .pending .succeeded ≠ none := by
  intro hnone
  rw [Db.getNextRunnable_eq_none] at hnone
  obtain ⟨hlive, hunf⟩ := (h.executable p hp).live hst
  -- an unfinished task of the idle plan is pending
  have hpending : ∀ t ∈ db.tasks, t.planId = p.planId → t.status ≠ .succeeded →
      t.status = .pending := by
    intro t ht htp hne
    have hl := hlive t ht htp
    have hr := hretry t ht htp
    cases hts : t.status with
    | pending => rfl
    | running =>
      have := hcons.running t ht hts p hp htp.symm
      rw [hcur] at this
      cases this
    | retryWait => exact absurd hts hr
    | succeeded => exact absurd hts hne
    | draft | blocked | failed | cancelled | superseded =>
      rw [hts] at hl
      cases hl
  obtain ⟨rank, hrank⟩ := h.edges.ranked p.planId
  -- induction on the rank: a blocked task has an unfinished predecessor below it
  have hdescent : ∀ n, ∀ t ∈ db.tasks, t.planId = p.planId → t.status ≠ .succeeded →
      rank t.taskId = n → False := by
    intro n
    induction n using Nat.strong_induction_on with
    | _ n ih =>
      intro t ht htp hne hn
      have hblocked := hnone t ht htp (hpending t ht htp hne)
      have : ¬ ∀ d ∈ db.taskDependencies, d.taskId = t.taskId →
          ∃ x ∈ db.tasks, x.taskId = d.dependsOnTaskId ∧ x.status = .succeeded := by
        rw [← isRunnable_iff h.edges, hblocked]
        decide
      push Not at this
      obtain ⟨d, hd, hdt, hall⟩ := this
      obtain ⟨⟨y, hy, hyid, hyp, -⟩, x, hx, hxid, hxp⟩ := h.edges.joins d hd
      have hdp : d.planId = p.planId := by
        rw [← hyp, Table.eq_of_key hy ht (hyid.trans hdt), htp]
      have hlt := hrank d hd hdp
      rw [hdt, ← hxid] at hlt
      exact ih (rank x.taskId) (by omega) x hx (hxp.trans hdp) (hall x hx hxid) rfl
  obtain ⟨t, ht, htp, hne⟩ := hunf
  exact hdescent _ t ht htp hne rfl

theorem claim_not_idle (hcons : Consistent registry db) (h : TaskGraph db) {ids : ClaimIds}
    {clock : Clock} {call : ExecuteNextInput} {r : ClaimNextTaskResult}
    (hstep : ClaimStep registry ids clock call db r db') : r ≠ .noTask := by
  intro hr
  cases hstep with
  | idle p _ hp hcur _ hst hnext =>
    have heff : Effect registry (some (ids, clock)) db (resumeRetrying p.planId db) :=
      resumeRetrying_effect (by simp) p.planId
    refine exists_runnable (heff.consistent hcons) (heff.taskGraph hcons h)
      (Table.mem_of_get? hp) hst hcur (fun t ht htp => ?_) hnext
    rcases mem_resumeRetrying.mp ht with ⟨-, hne⟩ | ⟨x, -, -, -, rfl⟩
    · exact fun hst => hne ⟨htp, hst⟩
    · show TaskStatus.pending ≠ .retryWait
      decide
  | skipped => cases hr
  | mismatched => cases hr
  | locked => cases hr
  | required => cases hr
  | busy => cases hr
  | claimed => cases hr

theorem claim_predecessors (h : TaskGraph db) (hcons : Consistent registry db) {ids : ClaimIds}
    {clock : Clock} {call : ExecuteNextInput} {task : TaskSnapshot}
    (hstep : ClaimStep registry ids clock call db (.claimed task) db') :
    ∀ d ∈ db.taskDependencies, d.taskId = task.taskId →
      ∃ x ∈ db.tasks, x.taskId = d.dependsOnTaskId ∧ x.status = .succeeded := by
  cases hstep with
  | claimed p t d c db₁ db₂ _ hp hcur _ hst hnext =>
    intro e he het
    have heff : Effect registry (some (ids, clock)) db (resumeRetrying p.planId db) :=
      resumeRetrying_effect (by simp) p.planId
    obtain ⟨-, -, -, hrunnable⟩ := Db.getNextRunnable_eq_some hnext
    obtain ⟨x, hx, hxid, hxst⟩ :=
      (isRunnable_iff (heff.taskGraph hcons h).edges).mp hrunnable e he het
    rcases mem_resumeRetrying.mp hx with ⟨hx, -⟩ | ⟨y, -, -, -, rfl⟩
    · exact ⟨x, hx, hxid, hxst⟩
    · cases hxst

end Claiming

theorem RuntimeState.Fresh.taskGraph {st : RuntimeState} (h : st.Fresh) : TaskGraph st.db := by
  obtain ⟨hp, ht, hd, -⟩ := h
  refine ⟨⟨by simp [hd], by simp [Table.mem_iff, hd], fun _ => ⟨fun _ => 0, ?_⟩⟩, ?_⟩
  · simp [Table.mem_iff, hd]
  · simp [Table.mem_iff, hp]

theorem reachable_taskGraph {config : RuntimeConfig} {ok : RuntimeState → RuntimeAction → Prop}
    {st : RuntimeState} (h : (runtime config).ReachableVia ok st) : TaskGraph st.db := by
  refine h.invariant (P := fun st => TaskGraph st.db) (fun _ hi => RuntimeState.Fresh.taskGraph hi) ?_
  intro s a s' hr hgraph _ hstep
  have howned := reachable_owned hr
  exact (Effects.taskGraph howned.consistent hgraph (runtime_step_effects howned hstep)).2

end DocFlow.TaskRuntime
