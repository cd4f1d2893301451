import DocFlow.TaskRuntime.TaskGraph

/-!
# The dependency graph is executed

The status of a plan says how far its tasks are (`Progress`), and every effect keeps that.
`dag_execution` draws the conclusions: a task is claimed after its
predecessors have succeeded, a plan with unfinished tasks always has one that can be
claimed, and a plan is completed, with one request for aggregation, exactly when all its
tasks have succeeded.
-/

namespace DocFlow.TaskRuntime

/-! ## The invariants -/

/-- What the status of a plan says about its tasks. -/
def TasksAgree (db : Db) (p : Plan) : Prop :=
  match p.status with
  | .planning => True
  | .ready | .running => (∀ t ∈ db.tasks, t.planId = p.planId → isLive t.status = true) ∧
      Unfinished db p
  | .completed => ∀ t ∈ db.tasks, t.planId = p.planId → t.status = .succeeded
  | .replanPending | .superseded | .failed => Unfinished db p
  | _ => False

/-- The requests to aggregate the results of a plan. -/
def aggregations (db : Db) (planId : PlanId) : List OutboxEvent :=
  db.outbox.rows.filter fun ev => ev.eventType = .aggregationRequested ∧ ev.aggregateId = planId

/-- How far a plan is. -/
structure Progress (db : Db) (p : Plan) : Prop where
  drafts : ∀ t ∈ db.tasks, t.planId = p.planId → (t.status = .draft ↔ p.status = .planning)
  tasks : TasksAgree db p
  aggregated : (aggregations db p.planId).length = if p.status = .completed then 1 else 0

/-- The graph of every plan, and how far it is. -/
structure DagConsistent (db : Db) : Prop where
  edges : Edges db
  progress : ∀ p ∈ db.plans, Progress db p
  aggregates : ∀ ev ∈ db.outbox, ev.eventType = .aggregationRequested →
    ∃ p ∈ db.plans, p.planId = ev.aggregateId

/-! ## The progress of a plan -/

section ProgressLemmas

variable {registry : CapabilityRegistry} {db db' : Db}

theorem aggregations_append {news : List OutboxEvent}
    (hrows : db'.outbox.rows = db.outbox.rows ++ news) (planId : PlanId) :
    aggregations db' planId = aggregations db planId ++
      news.filter fun ev => ev.eventType = .aggregationRequested ∧ ev.aggregateId = planId := by
  rw [aggregations, hrows, List.filter_append, aggregations]

/-- Events of another type do not count. -/
theorem aggregations_same {news : List OutboxEvent}
    (hrows : db'.outbox.rows = db.outbox.rows ++ news) {planId : PlanId}
    (hnews : ∀ ev ∈ news, ev.eventType = .aggregationRequested → ev.aggregateId ≠ planId) :
    aggregations db' planId = aggregations db planId := by
  have hnil : news.filter (fun ev => ev.eventType = .aggregationRequested ∧
      ev.aggregateId = planId) = [] := by
    rw [List.filter_eq_nil_iff]
    intro ev hev
    rw [decide_eq_true_eq]
    exact fun h => hnews ev hev h.1 h.2
  rw [aggregations_append hrows, hnil, List.append_nil]

/-- The tasks of a plan that can be executed agree with its status. -/
theorem Executable.progress {p : Plan} (h : Executable db p)
    (hst : p.status = .planning ∨ p.status = .ready ∨ p.status = .running)
    (hnone : (aggregations db p.planId).length = 0) : Progress db p := by
  have hcount : (aggregations db p.planId).length = if p.status = .completed then 1 else 0 := by
    rw [hnone, if_neg]
    rcases hst with hst | hst | hst <;> simp [hst]
  rcases hst with hst | hst
  · exact ⟨fun t ht htp => iff_of_true (h.drafts hst t ht htp) hst,
      by rw [TasksAgree, hst]; trivial, hcount⟩
  · obtain ⟨hlive, hunf⟩ := h.live hst
    refine ⟨fun t ht htp => iff_of_false (fun hd => ?_) ?_, ?_, hcount⟩
    · have hl := hlive t ht htp
      rw [hd] at hl
      cases hl
    · rcases hst with hst | hst <;> simp [hst]
    · rw [TasksAgree]
      rcases hst with hst | hst <;> rw [hst] <;> exact ⟨hlive, hunf⟩

theorem Progress.executable {p : Plan} (h : Progress db p) : Executable db p := by
  have htasks := h.tasks
  refine executable_iff.mpr ⟨fun hst t ht htp => (h.drafts t ht htp).mpr hst, fun hst => ?_⟩
  rw [TasksAgree] at htasks
  rcases hst with hst | hst <;> rw [hst] at htasks <;> exact htasks

theorem DagConsistent.graph (h : DagConsistent db) : TaskGraph db :=
  ⟨h.edges, fun p hp => (h.progress p hp).executable⟩

/-- A plan is not affected by what happens to the tasks of others. -/
theorem Progress.frame {p : Plan} (h : Progress db p)
    (htasks : ∀ t, t.planId = p.planId → (t ∈ db'.tasks ↔ t ∈ db.tasks))
    (hagg : aggregations db' p.planId = aggregations db p.planId) : Progress db' p := by
  have hall : ∀ P : Task → Prop, (∀ t ∈ db.tasks, t.planId = p.planId → P t) →
      ∀ t ∈ db'.tasks, t.planId = p.planId → P t :=
    fun P hP t ht htp => hP t ((htasks t htp).mp ht) htp
  have hunf : Unfinished db p → Unfinished db' p := by
    rintro ⟨t, ht, htp, hst⟩
    exact ⟨t, (htasks t htp).mpr ht, htp, hst⟩
  refine ⟨hall _ h.drafts, ?_, by rw [hagg]; exact h.aggregated⟩
  have htasks := h.tasks
  unfold TasksAgree at htasks ⊢
  split
  · trivial
  · next heq =>
    rw [heq] at htasks
    exact ⟨hall _ htasks.1, hunf htasks.2⟩
  · next heq =>
    rw [heq] at htasks
    exact ⟨hall _ htasks.1, hunf htasks.2⟩
  · next heq =>
    rw [heq] at htasks
    exact hall _ htasks
  · next heq =>
    rw [heq] at htasks
    exact hunf htasks
  · next heq =>
    rw [heq] at htasks
    exact hunf htasks
  · next heq =>
    rw [heq] at htasks
    exact hunf htasks
  · next h₁ h₂ h₃ h₄ h₅ h₆ h₇ => cases hst : p.status <;> simp_all

/-- What an ended attempt leaves the plan with. -/
theorem Settlement.progress {p p' : Plan} {t t' : Task} {e e' : TaskExecution}
    {news : List OutboxEvent} (hcons : Consistent registry db) (hp : p ∈ db.plans)
    (hprog : Progress db p) (ht : t ∈ db.tasks) (hcur : p.currentTaskId = some t.taskId)
    (hrun : t.status = .running) (hpid : p'.planId = p.planId) (hsame : SameTask t t')
    (htasks : db'.tasks = db.tasks.save t') (hrows : db'.outbox.rows = db.outbox.rows ++ news)
    (h : Settlement db' p p' t t' e e' news) : Progress db' p' := by
  have hexec := h.executable hcons hp hprog.executable ht hcur hrun hpid hsame htasks
  obtain ⟨hpst, y, hy, hyid, hyp, -⟩ := hcons.current p hp _ hcur
  have hcount : (aggregations db p.planId).length = 0 := by
    rw [hprog.aggregated, hpst]
    rfl
  have hsilent : (∀ ev ∈ news, ev.eventType ≠ .aggregationRequested) →
      (aggregations db' p'.planId).length = 0 := by
    intro hnews
    rw [hpid, aggregations_same hrows fun x hx hxt => absurd hxt (hnews x hx), hcount]
  cases h with
  | succeeded ev _ _ _ hpst' hnews hplain =>
    refine hexec.progress (.inr (.inr (hpst'.trans hpst))) (hsilent fun x hx => ?_)
    rw [hnews, List.mem_singleton] at hx
    rw [hx, hplain.eventType]
    decide
  | finished ev _ _ _ hpst' hnews htype haid hall =>
    refine ⟨fun x hx hxp => ?_, ?_, ?_⟩
    · rw [hall x hx (hxp.trans hpid), hpst']
      decide
    · rw [TasksAgree, hpst']
      exact fun x hx hxp => hall x hx (hxp.trans hpid)
    · rw [hpid, aggregations_append hrows, hnews, List.length_append, hcount, hpst']
      simp [htype, haid]
  | stuck x _ _ _ hpst' hnews =>
    refine hexec.progress (.inr (.inr (hpst'.trans hpst))) (hsilent fun x hx => ?_)
    rw [hnews] at hx
    cases hx
  | retried ev _ _ _ hpst' hnews hplain =>
    refine hexec.progress (.inr (.inr (hpst'.trans hpst))) (hsilent fun x hx => ?_)
    rw [hnews, List.mem_singleton] at hx
    rw [hx, hplain.eventType]
    decide
  | replanned ev r _ hst hpst' hnews htype =>
    have htp : t.planId = p.planId := by rw [← Table.eq_of_key hy ht hyid, hyp]
    have hmem : ∀ x, x ∈ db'.tasks ↔ x = t' ∨ (x ∈ db.tasks ∧ x ≠ t) := by
      intro x
      rw [htasks]
      exact Table.mem_save_of_mem ht hsame.taskId
    have hne : t'.status ≠ .draft ∧ t'.status ≠ .succeeded := by
      rcases hst with hst | hst <;> rw [hst] <;> decide
    refine ⟨fun x hx hxp => iff_of_false ?_ (by rw [hpst']; decide), ?_, ?_⟩
    · rcases (hmem x).mp hx with rfl | ⟨hx, -⟩
      · exact hne.1
      · intro hd
        have hplan := (hprog.drafts x hx (hxp.trans hpid)).mp hd
        rw [hpst] at hplan
        cases hplan
    · rw [TasksAgree, hpst']
      exact ⟨t', (hmem t').mpr (.inl rfl), by rw [hsame.planId, htp, hpid], hne.2⟩
    · rw [hsilent fun x hx => ?_, hpst']
      · rfl
      · rw [hnews, List.mem_singleton] at hx
        rw [hx, htype]
        decide

/-- A waiting task that is put back is as far as it was. -/
theorem Progress.resume {p : Plan} (h : Progress db p) {planId : PlanId}
    (htasks : db'.tasks =
      (db.setTaskStatus (db.listByPlanIdAndStatus planId .retryWait) .pending).tasks)
    (hagg : aggregations db' p.planId = aggregations db p.planId) : Progress db' p := by
  refine ⟨resumed_all htasks (fun s => s = .draft ↔ p.status = .planning) ?_ h.drafts, ?_,
    by rw [hagg]; exact h.aggregated⟩
  · intro hs
    exact ⟨by simp, fun hp => by simpa using hs.mpr hp⟩
  · have hagree := h.tasks
    unfold TasksAgree at hagree ⊢
    cases hst : p.status with
    | planning => trivial
    | ready | running =>
      rw [hst] at hagree
      exact ⟨resumed_all htasks (fun s => isLive s = true) (fun _ => rfl) hagree.1,
        hagree.2.resume htasks⟩
    | completed =>
      rw [hst] at hagree
      exact resumed_all htasks (fun s => s = .succeeded) (by simp) hagree
    | replanPending | superseded | failed =>
      rw [hst] at hagree
      exact hagree.resume htasks
    | unsupported | needsClarification | retryPending | cancelled =>
      rw [hst] at hagree
      exact hagree

end ProgressLemmas

/-! ## Every effect -/

section Effects

variable {registry : CapabilityRegistry} {db db' : Db}

theorem aggregates_save {p p' : Plan} (hp : p ∈ db.plans)
    (hplans : db'.plans = db.plans.save p') (hid : p'.planId = p.planId) {i : PlanId} (h : ∃ q ∈ db.plans, q.planId = i) :
    ∃ q ∈ db'.plans, q.planId = i := by
  obtain ⟨q, hq, rfl⟩ := h
  rw [hplans]
  by_cases hqp : q = p
  · exact ⟨p', (Table.mem_save_of_mem hp hid).mpr (.inl rfl), by rw [hid, hqp]⟩
  · exact ⟨q, (Table.mem_save_of_mem hp hid).mpr (.inr ⟨hq, hqp⟩), rfl⟩

/-- Nothing but the outbox changes, and it by other events. -/
theorem DagConsistent.frame (h : DagConsistent db) (hp : db'.plans = db.plans)
    (ht : db'.tasks = db.tasks) (hd : db'.taskDependencies = db.taskDependencies)
    {news : List OutboxEvent} (hrows : db'.outbox.rows = db.outbox.rows ++ news)
    (hnews : ∀ ev ∈ news, ev.eventType ≠ .aggregationRequested) : DagConsistent db' where
  edges := h.edges.of_eq hd ht
  progress := by
    intro p hpm
    rw [hp] at hpm
    refine (h.progress p hpm).frame (fun t _ => by rw [ht]) ?_
    exact aggregations_same hrows fun ev hev htype => absurd htype (hnews ev hev)
  aggregates := by
    intro ev hev htype
    rw [Table.mem_iff, hrows, List.mem_append] at hev
    rw [hp]
    rcases hev with hev | hev
    · exact h.aggregates ev hev htype
    · exact absurd htype (hnews ev hev)

theorem DagConsistent.settled (hcons : Consistent registry db) (h : DagConsistent db)
    {p p' : Plan} {t t' : Task} {e e' : TaskExecution} {news : List OutboxEvent}
    (hp : p ∈ db.plans) (ht : t ∈ db.tasks) (hcur : p.currentTaskId = some t.taskId)
    (hrun : t.status = .running) (hpid : p'.planId = p.planId) (hsame : SameTask t t')
    (hplans : db'.plans = db.plans.save p') (htasks : db'.tasks = db.tasks.save t')
    (hdeps : db'.taskDependencies = db.taskDependencies)
    (hrows : db'.outbox.rows = db.outbox.rows ++ news)
    (hsettle : Settlement db' p p' t t' e e' news) : DagConsistent db' := by
  have htp : t.planId = p.planId := by
    obtain ⟨-, y, hy, hyid, hyp, -⟩ := hcons.current p hp _ hcur
    rw [← Table.eq_of_key hy ht hyid, hyp]
  have hprog := hsettle.progress hcons hp (h.progress p hp) ht hcur hrun hpid hsame htasks hrows
  -- the only request for aggregation among the new events is for this plan
  have hnews : ∀ ev ∈ news, ev.eventType = .aggregationRequested → ev.aggregateId = p.planId := by
    intro ev hev htype
    cases hsettle with
    | succeeded x _ _ _ _ hx hplain =>
      rw [hx, List.mem_singleton] at hev
      rw [hev, hplain.aggregateId]
    | finished x _ _ _ _ hx _ haid =>
      rw [hx, List.mem_singleton] at hev
      rw [hev, haid]
    | stuck _ _ _ _ _ hx =>
      rw [hx] at hev
      cases hev
    | retried x _ _ _ _ hx hplain =>
      rw [hx, List.mem_singleton] at hev
      rw [hev, hplain.aggregateId]
    | replanned x _ _ _ _ hx hreplan =>
      rw [hx, List.mem_singleton] at hev
      rw [hev, hreplan] at htype
      cases htype
  refine ⟨(h.graph.settled hcons hp ht hcur hrun hpid hsame hplans htasks hdeps hsettle).edges, ?_, ?_⟩
  · intro q hq
    rcases mem_savePlan hp hplans hpid hq with rfl | ⟨hq, hne⟩
    · exact hprog
    · refine (h.progress q hq).frame (frame_save ht htasks hsame.taskId hsame.planId ?_) ?_
      · rw [htp]
        exact hne.symm
      · exact aggregations_same hrows fun ev hev htype he => hne (he.symm.trans (hnews ev hev htype))
  · intro ev hev htype
    refine aggregates_save hp hplans hpid ?_
    rw [Table.mem_iff, hrows, List.mem_append] at hev
    rcases hev with hev | hev
    · exact h.aggregates ev hev htype
    · exact ⟨p, hp, (hnews ev hev htype).symm⟩

theorem DagConsistent.started (h : DagConsistent db) {p : Plan} {t : Task}
    {d : CapabilityDefinition} {ids : ClaimIds} {clock : Clock} (hp : p ∈ db.plans)
    (hpst : p.status = .ready ∨ p.status = .running) (ht : t ∈ db.tasks)
    (htp : t.planId = p.planId) (hplans : db'.plans = db.plans.save (startPlan clock t p))
    (htasks : db'.tasks = db.tasks.save (startTask d clock t))
    (hdeps : db'.taskDependencies = db.taskDependencies)
    (hout : db.outbox.insert (leaseWakeup d ids clock p) = some db'.outbox) :
    DagConsistent db' := by
  have hgraph := h.graph.started hp hpst ht htp hplans htasks hdeps
  have hagg : ∀ i, aggregations db' i = aggregations db i := by
    refine fun i => aggregations_same (Table.rows_insert hout) fun ev hev htype => ?_
    rw [List.mem_singleton.mp hev] at htype
    cases htype
  refine ⟨hgraph.edges, fun q hq => ?_, fun ev hev htype => ?_⟩
  · rcases mem_savePlan hp hplans rfl hq with rfl | ⟨hq', hne⟩
    · refine (hgraph.executable _ hq).progress (.inr (.inr rfl)) ?_
      have hcount := (h.progress p hp).aggregated
      rw [if_neg (by rcases hpst with hst | hst <;> simp [hst])] at hcount
      show (aggregations db' p.planId).length = 0
      rw [hagg, hcount]
    · refine (h.progress q hq').frame (frame_save ht htasks rfl rfl ?_) (hagg _)
      rw [htp]
      exact hne.symm
  · refine aggregates_save hp hplans rfl ?_
    rcases (Table.mem_insert hout).mp hev with hev | rfl
    · exact h.aggregates ev hev htype
    · cases htype

theorem DagConsistent.published (h : DagConsistent db) {p : Plan}
    {pairs : List (TaskId × TaskId)} {newDependencyId : Nat → DependencyId} {ev : OutboxEvent}
    (hp : p ∈ db.plans) (hst : p.status = .planning)
    (hne : db.listByPlanIdAndStatus p.planId .draft ≠ [])
    (hdag : Planning.validateDag (db.listByPlanIdAndStatus p.planId .draft) = .ok pairs)
    (hplans : db'.plans = db.plans.save (Planning.publishPlan p))
    (htasks : db'.tasks = db.tasks.mapRows
      (Planning.publishTask ((db.listByPlanIdAndStatus p.planId .draft).map Task.taskId))
      (Planning.publishTask_taskId _))
    (hdeps : db.addDependencies (Planning.dependencyRows p.planId newDependencyId pairs) =
      .ok (db.setTaskDependencies db'.taskDependencies))
    (hout : db.outbox.insert ev = some db'.outbox) (hplain : IsPlainWakeup p ev) :
    DagConsistent db' := by
  have hgraph := h.graph.published hp hst hne hdag hplans htasks hdeps
  have hagg : ∀ i, aggregations db' i = aggregations db i := by
    refine fun i => aggregations_same (Table.rows_insert hout) fun x hx htype => ?_
    rw [List.mem_singleton.mp hx, hplain.eventType] at htype
    cases htype
  refine ⟨hgraph.edges, fun q hq => ?_, fun x hx htype => ?_⟩
  · rcases mem_savePlan hp hplans rfl hq with rfl | ⟨hq', hqp⟩
    · refine (hgraph.executable _ hq).progress (.inr (.inl rfl)) ?_
      have hcount := (h.progress p hp).aggregated
      rw [hst] at hcount
      show (aggregations db' p.planId).length = 0
      rw [hagg, hcount]
      rfl
    · refine (h.progress q hq').frame (frame_rewrite (Planning.publishTask_taskId _) htasks
        (fun t _ => ?_) fun t ht htq => ?_) (hagg _)
      · unfold Planning.publishTask
        split <;> rfl
      · rw [Planning.publishTask, if_neg]
        intro hin
        obtain ⟨y, hy, hid⟩ := List.mem_map.mp hin
        obtain ⟨hym, hyp, -⟩ := Db.mem_listByPlanIdAndStatus.mp hy
        rw [Table.eq_of_key hym ht hid] at hyp
        exact hqp (htq.symm.trans hyp)
  · refine aggregates_save hp hplans rfl ?_
    rcases (Table.mem_insert hout).mp hx with hx | rfl
    · exact h.aggregates x hx htype
    · rw [hplain.eventType] at htype
      cases htype

theorem DagConsistent.closed (hcons : Consistent registry db) (h : DagConsistent db)
    {p p' : Plan} {status : TaskStatus} {ev : OutboxEvent} {r : ReplanPayload} (hp : p ∈ db.plans)
    (hev : ev ∈ db.outbox) (htype : ev.eventType = .replanRequested)
    (hpayload : ev.payload = .replan r) (hprev : r.previousPlanId = p.planId)
    (hpid : p'.planId = p.planId) (hp' : p'.status = .superseded ∨ p'.status = .failed)
    (hstatus : status = .superseded ∨ status = .failed) (hplans : db'.plans = db.plans.save p')
    (htasks : db'.tasks = (db.setUnfinishedStatus p.planId status).tasks)
    (hdeps : db'.taskDependencies = db.taskDependencies) (hout : db'.outbox = db.outbox) :
    DagConsistent db' := by
  obtain ⟨q, hq, hqid, hclosed⟩ := hcons.replanned ev hev htype r hpayload
  obtain rfl : q = p := Table.eq_of_key hq hp (hqid.trans hprev)
  have hagg : ∀ i, aggregations db' i = aggregations db i := fun i => by
    rw [aggregations, hout, aggregations]
  have hrow : ∀ t, (Db.unfinishedWithStatus q.planId status t).planId = t.planId := by
    intro t
    unfold Db.unfinishedWithStatus
    split <;> rfl
  have hmoved : ∀ t, Db.unfinishedWithStatus q.planId status t = t ∨
      (Db.unfinishedWithStatus q.planId status t).status = status := by
    intro t
    unfold Db.unfinishedWithStatus
    split
    · exact .inr rfl
    · exact .inl rfl
  have hne : status ≠ .draft ∧ status ≠ .succeeded := by
    rcases hstatus with rfl | rfl <;> decide
  have hother : ∀ t, t.planId ≠ q.planId → Db.unfinishedWithStatus q.planId status t = t := by
    intro t ht
    rw [Db.unfinishedWithStatus, if_neg (fun hin => ht hin.1)]
  have hprog := h.progress q hp
  have hunf : Unfinished db q := by
    have := hprog.tasks
    rw [TasksAgree] at this
    -- a plan of the runtime alone waits neither for its planner nor for the user
    cases hst : q.status <;> rw [hst] at hclosed this <;>
      first | exact this | exact this.elim | cases hclosed
  have hnotplanning : q.status ≠ .planning := by
    intro hst
    rw [hst] at hclosed
    cases hclosed
  refine ⟨(h.graph.closed hp hpid hp' hstatus hplans htasks hdeps).edges, ?_, ?_⟩
  · intro x hx
    rcases mem_savePlan hp hplans hpid hx with rfl | ⟨hx, hxne⟩
    · refine ⟨?_, ?_, ?_⟩
      · intro y hy hyp
        obtain ⟨t, ht, rfl⟩ := rewrite_back (Db.unfinishedWithStatus_taskId _ _) htasks hy
        refine iff_of_false (fun hd => ?_) (by rcases hp' with hst | hst <;> simp [hst])
        rcases hmoved t with he | he
        · rw [he] at hd hyp
          exact hnotplanning ((hprog.drafts t ht (hyp.trans hpid)).mp hd)
        · exact hne.1 (he.symm.trans hd)
      · have hgoal : Unfinished db' x := by
          obtain ⟨t, ht, htp, hst⟩ := hunf
          refine ⟨_, rewrite_forth (Db.unfinishedWithStatus_taskId _ _) htasks ht, (hrow t).trans (htp.trans hpid.symm), ?_⟩
          rcases hmoved t with he | he
          · rw [he]
            exact hst
          · rw [he]
            exact hne.2
        rw [TasksAgree]
        rcases hp' with hst | hst <;> rw [hst] <;> exact hgoal
      · have hcount := hprog.aggregated
        rw [if_neg (fun hst => by rw [hst] at hclosed; cases hclosed)] at hcount
        rw [hpid, hagg, hcount]
        rcases hp' with hst | hst <;> rw [hst] <;> rfl
    · refine (h.progress x hx).frame (frame_rewrite (Db.unfinishedWithStatus_taskId _ _) htasks (fun t _ => hrow t) ?_) (hagg _)
      exact fun t _ htx => hother t (by rw [htx]; exact hxne)
  · intro y hy hytype
    rw [hout] at hy
    exact aggregates_save hp hplans hpid (h.aggregates y hy hytype)

/-- **The step**: every effect keeps the graph and the progress of the plans. -/
theorem Effect.dagConsistent (hcons : Consistent registry db) (h : DagConsistent db)
    (heff : Effect registry claiming db db') : DagConsistent db' := by
  have hgraph := heff.taskGraph hcons h.graph
  have hsame : db'.outbox = db.outbox → ∀ i, aggregations db' i = aggregations db i := fun ho i => by
    rw [aggregations, ho, aggregations]
  cases heff with
  | quiet hp ht hd _ ho =>
    have hrows : db'.outbox.rows = db.outbox.rows ++ [] := by rw [ho, List.append_nil]
    exact h.frame hp ht hd hrows (by simp)
  | advanced e e' news _ _ _ hp ht hd _ hrows hnews =>
    refine h.frame hp ht hd hrows fun ev hev htype => ?_
    have := hnews ev hev
    rw [IsWakeup, htype] at this
    cases this
  | settled p p' t t' e e' news hp ht _ hcur hst _ hpid _ hsame _ hplans htasks hdeps _ hrows
      hsettle =>
    exact h.settled hcons hp ht hcur hst hpid hsame hplans htasks hdeps hrows hsettle
  | resumed planId _ hp ht hd _ ho =>
    refine ⟨hgraph.edges, fun p hpm => ?_, ?_⟩
    · rw [hp] at hpm
      exact (h.progress p hpm).resume ht (hsame ho _)
    · rw [ho, hp]
      exact h.aggregates
  | started p t d ids clock _ hp _ hpst ht htp _ _ _ hplans htasks hdeps _ hout =>
    exact h.started hp hpst ht htp hplans htasks hdeps hout
  | planCreated p hst _ hp ht hd _ ho =>
    refine ⟨hgraph.edges, fun q hq => ?_, fun ev hev htype => ?_⟩
    · rcases (Table.mem_insert hp).mp hq with hqm | rfl
      · exact (h.progress q hqm).frame (fun t _ => by rw [ht]) (hsame ho _)
      · refine (hgraph.executable q hq).progress (.inl hst) ?_
        rw [hsame ho, List.length_eq_zero_iff, aggregations, List.filter_eq_nil_iff]
        intro ev hev
        rw [decide_eq_true_eq]
        rintro ⟨htype, haid⟩
        obtain ⟨x, hx, hxa⟩ := h.aggregates ev hev htype
        exact Table.key_not_mem_of_insert hp hx (hxa.trans haid)
    · rw [ho] at hev
      obtain ⟨x, hx, hxa⟩ := h.aggregates ev hev htype
      exact ⟨x, (Table.mem_insert hp).mpr (.inl hx), hxa⟩
  | taskCreated p t hp hpst htp hst _ hplans ht hd _ ho =>
    refine ⟨hgraph.edges, fun q hq => ?_, ?_⟩
    · have hqm := hplans ▸ hq
      by_cases hqp : q.planId = p.planId
      · obtain rfl : q = p := Table.eq_of_key hqm hp hqp
        refine (hgraph.executable q hq).progress (.inl hpst) ?_
        rw [hsame ho, (h.progress q hqm).aggregated, hpst]
        rfl
      · refine (h.progress q hqm).frame (fun x hxq => ?_) (hsame ho _)
        rw [Table.mem_insert ht]
        refine or_iff_left ?_
        rintro rfl
        exact hqp (hxq.symm.trans htp)
    · rw [ho, hplans]
      exact h.aggregates
  | published p pairs newDependencyId ev hp hst hne hdag hplans htasks hdeps _ hout hplain =>
    exact h.published hp hst hne hdag hplans htasks hdeps hout hplain
  | closed p p' status ev r hp hev htype hpayload hprev hpid _ hp' hstatus hplans htasks hdeps _
      hout =>
    exact h.closed hcons hp hev htype hpayload hprev hpid hp' hstatus hplans htasks hdeps hout

end Effects

/-! ## Every run -/

section Runs

variable {config : RuntimeConfig} {st st' : RuntimeState}

theorem RuntimeState.Fresh.dagConsistent (h : st.Fresh) : DagConsistent st.db := by
  refine ⟨h.taskGraph.edges, ?_, ?_⟩
  · simp [Table.mem_iff, h.1]
  · simp [Table.mem_iff, h.2.2.2.2.1]

theorem reachable_dagConsistent {ok : RuntimeState → RuntimeAction → Prop}
    (h : (runtime config).ReachableVia ok st) : DagConsistent st.db := by
  refine h.invariant (P := fun st => DagConsistent st.db) (fun _ hi => RuntimeState.Fresh.dagConsistent hi) ?_
  intro s a s' hr hdag _ hstep
  have howned := reachable_owned hr
  exact ((runtime_step_effects howned hstep).preserves
    (P := fun db => Consistent config.registry db ∧ DagConsistent db)
    (fun _ _ hc he => ⟨he.consistent hc.1, he.dagConsistent hc.1 hc.2⟩)
    ⟨howned.consistent, hdag⟩).2

theorem Progress.completed_iff {db : Db} {p : Plan} (h : Progress db p)
    (hpub : p.status ≠ .planning) :
    p.status = .completed ↔ ∀ t ∈ db.tasks, t.planId = p.planId → t.status = .succeeded := by
  have hagree := h.tasks
  rw [TasksAgree] at hagree
  have hnot : Unfinished db p → ¬ ∀ t ∈ db.tasks, t.planId = p.planId → t.status = .succeeded :=
    fun ⟨t, ht, htp, hne⟩ hall => hne (hall t ht htp)
  cases hst : p.status with
  | planning => exact absurd hst hpub
  | completed =>
    rw [hst] at hagree
    exact iff_of_true rfl hagree
  | ready | running =>
    rw [hst] at hagree
    exact iff_of_false (fun hc => nomatch hc) (hnot hagree.2)
  | replanPending | superseded | failed =>
    rw [hst] at hagree
    exact iff_of_false (fun hc => nomatch hc) (hnot hagree)
  | unsupported | needsClarification | retryPending | cancelled =>
    rw [hst] at hagree
    exact hagree.elim

/-- **The graph is executed**: whatever is claimed has only succeeded predecessors, a
claim on an idle plan under execution never finds nothing to do, and a plan is
completed exactly when all its tasks have succeeded, with one request for aggregation
if it is and none otherwise. -/
theorem dag_execution (config : RuntimeConfig) (st : RuntimeState)
    (h : (runtime config).Reachable st) :
    (∀ ids clock seen call task db',
      claimNext config.registry ids clock seen call st.db = .ok (.claimed task, db') →
      ∀ d ∈ st.db.taskDependencies, d.taskId = task.taskId →
        ∃ x ∈ st.db.tasks, x.taskId = d.dependsOnTaskId ∧ x.status = .succeeded) ∧
    (∀ p ∈ st.db.plans, p.status = .ready ∨ p.status = .running → p.currentTaskId = none →
      ∀ ids clock seen call r db', call.planId = p.planId →
        claimNext config.registry ids clock seen call st.db = .ok (r, db') → r ≠ .noTask) ∧
    (∀ p ∈ st.db.plans, p.status ≠ .planning →
      (p.status = .completed ↔
        ∀ t ∈ st.db.tasks, t.planId = p.planId → t.status = .succeeded) ∧
      (aggregations st.db p.planId).length = if p.status = .completed then 1 else 0) := by
  have hcons := (reachable_owned h).consistent
  have hdag := reachable_dagConsistent h
  refine ⟨?_, ?_, ?_⟩
  · intro ids clock seen call task db' hclaim
    rcases claimNext_cases hclaim with ⟨-, hr, -⟩ | ⟨-, hstep⟩
    · cases hr
    · exact claim_predecessors hdag.graph hcons hstep
  · intro p _ _ _ ids clock seen call r db' _ hclaim
    rcases claimNext_cases hclaim with ⟨-, rfl, -⟩ | ⟨-, hstep⟩
    · exact fun hc => nomatch hc
    · exact claim_not_idle hcons hdag.graph hstep
  · intro p hp hpub
    have hprog := hdag.progress p hp
    exact ⟨hprog.completed_iff hpub, hprog.aggregated⟩

end Runs

/-- The first task succeeds, and the second is claimed and succeeds. -/
def finishBothTasks : List RuntimeAction :=
  [ .complete 3 (.at 1) firstSnapshot [] [],
    .claim ⟨2, 2, 2, 4⟩ (.at 2) false ⟨1, some 3, none, none⟩,
    .complete 5 (.at 3) ⟨2, 1, 1, 1, 1, .buildDocumentChunks, ⟨7, none⟩, 1, 3, 2, 2, 2⟩ [] [] ]

def bothTasksDone : RuntimeState :=
  ((runtime defaultConfig).run firstTaskRunning finishBothTasks).getD firstTurn

/-- The plan of the example in a state of it. -/
def firstPlanIn (st : RuntimeState) : Plan := (st.db.plans.get? 1).getD firstPlan

theorem bothTasksDone_aggregated :
    (aggregations bothTasksDone.db (firstPlanIn bothTasksDone).planId).length = 1 := by
  have hreach : (runtime defaultConfig).Reachable bothTasksDone :=
    firstTaskRunning_reachable.run
      (rfl : (runtime defaultConfig).run firstTaskRunning finishBothTasks = some bothTasksDone)
  have hdone := (dag_execution defaultConfig bothTasksDone hreach).2.2 (firstPlanIn bothTasksDone)
    (Table.mem_of_get? (k := 1) rfl) (by decide)
  exact hdone.2.trans (if_pos (by decide))

end DocFlow.TaskRuntime
