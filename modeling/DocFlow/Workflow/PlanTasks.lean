import DocFlow.Workflow.Lineage

/-!
# The tasks of a plan

`RowsEffect` says what a step does to the tasks of one plan: they are drafted and published while it
is planned, worked on while it is ready or running, and ended with it.

A superseded or failed plan is dead: its tasks have all ended, and they stay as they are
(`Buried`).  A plan that is planned has only drafts, and one that is ready has only pending tasks,
which its turn lists (`Staged`).
-/

namespace DocFlow.Workflow

open Planning TaskRuntime

def View.rowsOf (v : View) (planId : PlanId) : List Task :=
  v.tasks.rows.filter fun t => t.planId = planId

theorem mem_rowsOf {v : View} {planId : PlanId} {t : Task} :
    t ∈ v.rowsOf planId ↔ t ∈ v.tasks ∧ t.planId = planId := by
  rw [View.rowsOf, List.mem_filter, decide_eq_true_eq, Table.mem_iff]

theorem map_of_fixed {rows : List Task} {f : Task → Task} (h : ∀ t ∈ rows, f t = t) :
    rows.map f = rows :=
  (List.map_congr_left h).trans (List.map_id _)

theorem unfinishedWithStatus_planId (planId : PlanId) (status : TaskStatus) (t : Task) :
    (Db.unfinishedWithStatus planId status t).planId = t.planId := by
  unfold Db.unfinishedWithStatus
  split <;> rfl

theorem unfinishedWithStatus_of_terminal {planId : PlanId} {status : TaskStatus} {t : Task}
    (h : t.planId = planId → Db.TaskStatus.isTerminal t.status = true) :
    Db.unfinishedWithStatus planId status t = t := by
  unfold Db.unfinishedWithStatus
  rw [if_neg]
  rintro ⟨hp, hst⟩
  rw [h hp] at hst
  cases hst

theorem unfinishedWithStatus_terminal {planId : PlanId} {status : TaskStatus} {t : Task}
    (hst : Db.TaskStatus.isTerminal status = true) (ht : t.planId = planId) :
    Db.TaskStatus.isTerminal (Db.unfinishedWithStatus planId status t).status = true := by
  unfold Db.unfinishedWithStatus
  split
  · exact hst
  · next h =>
    rw [not_and, Bool.not_eq_true, Bool.not_eq_false'] at h
    exact h ht

theorem publishTask_of_mem {taskIds : List TaskId} {t : Task} (h : t.taskId ∈ taskIds) :
    (publishTask taskIds t).status = .pending := by
  rw [publishTask, if_pos h]

/-! ## What a step does to the tasks of a plan -/

inductive RowsEffect (v v' : View) (planId : PlanId) : Prop
  | kept : v'.rowsOf planId = v.rowsOf planId → RowsEffect v v' planId
  | drafted (p : Plan) (t : Task) : p ∈ v.plans → p.planId = planId → p.status = .planning →
      t.status = .draft → v'.rowsOf planId = v.rowsOf planId ++ [t] → RowsEffect v v' planId
  | published (p : Plan) : p ∈ v.plans → p.planId = planId → p.status = .planning →
      publishPlan p ∈ v'.plans →
      v'.rowsOf planId = (v.rowsOf planId).map
        (publishTask ((v.draftsOf planId).map Task.taskId)) → RowsEffect v v' planId
  | worked (p : Plan) : p ∈ v.plans → p.planId = planId → isWorking p.status = true →
      Worked v v' → RowsEffect v v' planId
  | ended (p : Plan) (status : TaskStatus) : p ∈ v.plans → p.planId = planId →
      isClosed p.status = true →
      v'.rowsOf planId = (v.rowsOf planId).map (Db.unfinishedWithStatus planId status) →
      RowsEffect v v' planId

/-- The tasks of other plans are left alone when those of one plan end. -/
theorem ended_effect {v v' : View} {p : Plan} {status : TaskStatus} (hp : p ∈ v.plans)
    (hclosed : isClosed p.status = true)
    (htasks : v'.tasks = v.tasks.mapRows (Db.unfinishedWithStatus p.planId status)
      (Db.unfinishedWithStatus_taskId p.planId status)) (planId : PlanId) :
    RowsEffect v v' planId := by
  have hrows : v'.rowsOf planId =
      (v.rowsOf planId).map (Db.unfinishedWithStatus p.planId status) := by
    rw [View.rowsOf, htasks]
    exact Db.filter_map_planId fun t _ => unfinishedWithStatus_planId p.planId status t
  by_cases hid : p.planId = planId
  · subst hid
    exact .ended p status hp rfl hclosed hrows
  · refine .kept (hrows.trans (map_of_fixed fun t ht => ?_))
    refine unfinishedWithStatus_of_terminal fun htp => ?_
    exact absurd (htp.symm.trans (mem_rowsOf.mp ht).2) hid

theorem rows_effect {retries : Option PlanId} {v v' : View} (hl : Lineage v)
    (h : WorkflowStep retries v v') (planId : PlanId) : RowsEffect v v' planId := by
  cases h with
  | taskCreated p t tasks hp hst htp hdraft htasks hv' =>
    subst hv'
    have hrows : (tasks.rows.filter fun t => t.planId = planId) =
        v.rowsOf planId ++ [t].filter fun t => t.planId = planId := by
      rw [Table.rows_insert htasks, List.filter_append, View.rowsOf]
    by_cases hid : t.planId = planId
    · rw [List.filter_cons_of_pos (by simp [hid]), List.filter_nil] at hrows
      exact .drafted p t hp (htp.symm.trans hid) hst hdraft hrows
    · rw [List.filter_cons_of_neg (by simp [hid]), List.filter_nil, List.append_nil] at hrows
      exact .kept hrows
  | published p turn taskIds hp hst _ _ _ hids hv' =>
    subst hv'
    have hrows : ((v.tasks.mapRows (publishTask taskIds) (publishTask_taskId taskIds)).rows.filter
        fun t => t.planId = planId) = (v.rowsOf planId).map (publishTask taskIds) :=
      Db.filter_map_planId fun t _ => publishTask_planId taskIds t
    by_cases hid : p.planId = planId
    · subst hid
      subst hids
      refine .published p hp rfl hst ?_ hrows
      exact (Table.mem_save_of_mem (r := publishPlan p) hp rfl).mpr (.inl rfl)
    · refine .kept (hrows.trans (map_of_fixed fun t ht => ?_))
      obtain ⟨htm, htp⟩ := mem_rowsOf.mp ht
      rw [publishTask, if_neg]
      intro hin
      rw [hids] at hin
      obtain ⟨x, hx, hxid⟩ := List.mem_map.mp hin
      rw [View.draftsOf, List.mem_insertionSort, List.mem_filter, decide_eq_true_eq] at hx
      obtain rfl : x = t := Table.eq_of_key hx.1 htm hxid
      exact hid (hx.2.1.symm.trans htp)
  | worked hw =>
    by_cases hworking : ∃ p ∈ v.plans, p.planId = planId ∧ isWorking p.status = true
    · obtain ⟨p, hp, hid, hst⟩ := hworking
      exact .worked p hp hid hst hw
    · obtain ⟨f, hf, hwork⟩ := hw.tasks
      refine .kept ?_
      rw [View.rowsOf, hf, Db.filter_map_planId fun t ht => (hwork t ht).planId]
      refine map_of_fixed fun t ht => ?_
      obtain ⟨htm, htp⟩ := mem_rowsOf.mp ht
      rcases (hwork t htm).moved with hsame | ⟨p, hp, hid, hst, -⟩
      · exact hsame
      · exact absurd ⟨p, hp, hid.trans htp, hst⟩ hworking
  | revised p ev _ _ _ hp hev hprev _ _ _ _ hv' =>
    subst hv'
    exact ended_effect hp (hl.asked hp hev hprev).2 rfl planId
  | exhausted p ev _ _ hp hev hprev _ _ _ hv' =>
    subst hv'
    exact ended_effect hp (hl.asked hp hev hprev).2 rfl planId
  | quiet hv' => subst hv'; exact .kept rfl
  | turnCreated _ _ _ _ hv' => subst hv'; exact .kept rfl
  | turnRouted _ _ _ _ _ hv' => subst hv'; exact .kept rfl
  | planCreated _ _ _ _ _ _ _ _ hv' => subst hv'; exact .kept rfl
  | unsupported _ _ _ _ hv' => subst hv'; exact .kept rfl
  | retried _ _ _ _ _ _ _ _ _ _ _ _ hv' => subst hv'; exact .kept rfl
  | asked _ _ _ _ _ _ _ _ _ _ _ _ hv' => subst hv'; exact .kept rfl
  | questioned _ _ _ _ _ _ _ _ _ _ _ hv' => subst hv'; exact .kept rfl
  | answered _ _ _ _ _ _ _ _ _ _ _ _ _ _ _ hv' => subst hv'; exact .kept rfl
  | turnCompleted _ _ _ _ _ _ _ _ _ _ hv' => subst hv'; exact .kept rfl
  | resolved _ _ _ _ _ _ _ _ hv' => subst hv'; exact .kept rfl

/-! ## Dead plans -/

/-- The tasks of a dead plan have ended. -/
def Buried (v : View) : Prop :=
  ∀ p ∈ v.plans, isDead p.status = true → ∀ t ∈ v.rowsOf p.planId,
    Db.TaskStatus.isTerminal t.status = true

/-- **The tasks of a dead plan** are left alone. -/
theorem Buried.rows_step {retries : Option PlanId} {v v' : View} (hl : Lineage v) (hb : Buried v)
    (h : WorkflowStep retries v v') {p : Plan} (hp : p ∈ v.plans) (hdead : isDead p.status = true) :
    v'.rowsOf p.planId = v.rowsOf p.planId := by
  have hplan : ∀ q ∈ v.plans, q.planId = p.planId → isDead q.status = true := by
    intro q hq hid
    rw [Table.eq_of_key hq hp hid]
    exact hdead
  cases rows_effect hl h p.planId with
  | kept hrows => exact hrows
  | drafted q _ hq hid hst =>
    have hq := hplan q hq hid
    rw [hst] at hq
    cases hq
  | published q hq hid hst =>
    have hq := hplan q hq hid
    rw [hst] at hq
    cases hq
  | worked q hq hid hst =>
    have hq := hplan q hq hid
    rw [isDead_of_working hst] at hq
    cases hq
  | ended q status _ _ _ hrows =>
    rw [hrows]
    exact map_of_fixed fun t ht => unfinishedWithStatus_of_terminal fun _ => hb p hp hdead t ht

/-- A saved plan that is not dead leaves no new dead plan. -/
theorem dead_of_save {plans : Table Plan.planId} {q p' : Plan} (q' : Plan) (hq : q ∈ plans)
    (hid : q'.planId = q.planId) (hlive : isDead q'.status = false) (hp' : p' ∈ plans.save q')
    (hdead : isDead p'.status = true) : p' ∈ plans := by
  rcases (Table.mem_save_of_mem hq hid).mp hp' with rfl | ⟨hp', -⟩
  · rw [hlive] at hdead
    cases hdead
  · exact hp'

/-- The tasks of a plan that has ended with all of them. -/
theorem terminal_of_unfinished {v : View} {planId : PlanId} {status : TaskStatus}
    (hst : Db.TaskStatus.isTerminal status = true) {t : Task}
    (ht : t ∈ v.tasks.mapRows (Db.unfinishedWithStatus planId status)
      (Db.unfinishedWithStatus_taskId planId status)) (htp : t.planId = planId) :
    Db.TaskStatus.isTerminal t.status = true := by
  obtain ⟨t₀, -, rfl⟩ := Table.mem_mapRows.mp ht
  exact unfinishedWithStatus_terminal hst ((unfinishedWithStatus_planId _ _ _).symm.trans htp)

/-- A dead plan was dead before the step, or the step has ended its tasks. -/
theorem dead_step {retries : Option PlanId} {v v' : View} (h : WorkflowStep retries v v') {p' : Plan} (hp' : p' ∈ v'.plans)
    (hdead : isDead p'.status = true) : p' ∈ v.plans ∨
      ∀ t ∈ v'.rowsOf p'.planId, Db.TaskStatus.isTerminal t.status = true := by
  cases h with
  | planCreated newPlanId newWorkflowId turn plans _ _ _ hplans hv' =>
    subst hv'
    rcases (Table.mem_insert hplans).mp hp' with hp' | rfl
    · exact .inl hp'
    · cases hdead
  | published q turn taskIds hq _ _ _ _ _ hv' =>
    subst hv'
    exact .inl (dead_of_save (publishPlan q) hq rfl rfl hp' hdead)
  | worked hw =>
    obtain ⟨p, hp, hwork⟩ := hw.plans.back hp'
    rcases hwork.status with rfl | ⟨-, hworked⟩
    · exact .inl hp
    · rw [isDead_of_worked hworked] at hdead
      cases hdead
  | revised q ev newPlanId now plans hq _ _ _ _ _ hplans hv' =>
    subst hv'
    rcases (Table.mem_insert hplans).mp hp' with hp' | rfl
    · rcases (Table.mem_save_of_mem (r := supersedePlan now q) hq rfl).mp hp' with rfl | ⟨hp', -⟩
      · exact .inr fun t ht => terminal_of_unfinished rfl (mem_rowsOf.mp ht).1 (mem_rowsOf.mp ht).2
      · exact .inl hp'
    · cases hdead
  | exhausted q ev turn now hq _ _ _ _ _ hv' =>
    subst hv'
    rcases (Table.mem_save_of_mem (r := exhaustPlan now q) hq rfl).mp hp' with rfl | ⟨hp', -⟩
    · exact .inr fun t ht => terminal_of_unfinished rfl (mem_rowsOf.mp ht).1 (mem_rowsOf.mp ht).2
    · exact .inl hp'
  | unsupported q reason hq _ hv' =>
    subst hv'
    exact .inl (dead_of_save (setPlanStatus .unsupported (some reason) (some "unsupported") q)
      hq rfl rfl hp' hdead)
  | retried q turn reason requests ev _ hq _ _ _ _ _ hv' =>
    subst hv'
    exact .inl (dead_of_save (setPlanStatus .retryPending (some reason)
      (some "planner_system_failure") q) hq rfl rfl hp' hdead)
  | asked q turn newClarificationId command requests hq _ _ _ _ _ _ hv' =>
    subst hv'
    exact .inl (dead_of_save (setPlanStatus .needsClarification (some command.reason.text)
      (some "clarification_required") q) hq rfl rfl hp' hdead)
  | quiet hv' => exact .inl (hv' ▸ hp')
  | turnCreated _ _ _ _ hv' => subst hv'; exact .inl hp'
  | turnRouted _ _ _ _ _ hv' => subst hv'; exact .inl hp'
  | taskCreated _ _ _ _ _ _ _ _ hv' => subst hv'; exact .inl hp'
  | questioned _ _ _ _ _ _ _ _ _ _ _ hv' => subst hv'; exact .inl hp'
  | answered _ _ _ _ _ _ _ _ _ _ _ _ _ _ _ hv' => subst hv'; exact .inl hp'
  | turnCompleted _ _ _ _ _ _ _ _ _ _ hv' => subst hv'; exact .inl hp'
  | resolved _ _ _ _ _ _ _ _ hv' => subst hv'; exact .inl hp'

theorem Buried.step {retries : Option PlanId} {v v' : View} (hl : Lineage v) (hb : Buried v)
    (h : WorkflowStep retries v v') : Buried v' := by
  intro p hp hdead t ht
  rcases dead_step h hp hdead with hold | hended
  · rw [hb.rows_step hl h hold hdead] at ht
    exact hb p hold hdead t ht
  · exact hended t ht

/-! ## Planned and published plans -/

/-- The tasks of a published plan wait, and its turn lists them. -/
structure Published (v : View) (p : Plan) : Prop where
  pending : ∀ t ∈ v.rowsOf p.planId, t.status = .pending
  turn : ∃ turn ∈ v.turns, turn.turnId = p.turnId ∧
    turn.taskIds = (v.tasksOf p.planId).map Task.taskId

structure Staged (v : View) : Prop where
  owner : ∀ t ∈ v.tasks, ∃ p ∈ v.plans, p.planId = t.planId
  rooted : ∀ p ∈ v.plans, ∃ turn ∈ v.turns, turn.turnId = p.turnId
  drafts : ∀ p ∈ v.plans, p.status = .planning → ∀ t ∈ v.rowsOf p.planId, t.status = .draft
  published : ∀ p ∈ v.plans, p.status = .ready → Published v p

/-- A turn before and after a step.  Its list of tasks is written by the publication of one of
its plans, or by its completion with the answer of one. -/
structure TurnMove (v : View) (turn turn' : ConversationTurn) : Prop where
  turnId : turn'.turnId = turn.turnId
  taskIds : turn'.taskIds = turn.taskIds ∨ ∃ q ∈ v.plans, q.turnId = turn.turnId ∧
    (q.status = .planning ∨ isAnswer q.status = true)

theorem TurnMove.refl (v : View) (turn : ConversationTurn) : TurnMove v turn turn :=
  ⟨rfl, .inl rfl⟩

theorem turns_step {retries : Option PlanId} {v v' : View} (h : WorkflowStep retries v v') :
    ∀ turn ∈ v.turns, ∃ turn' ∈ v'.turns, TurnMove v turn turn' := by
  have hsaved : ∀ turn ∈ v.turns, ∀ saved, TurnMove v turn saved → ∀ x ∈ v.turns,
      ∃ x' ∈ v.turns.save saved, TurnMove v x x' := by
    intro turn hturn saved hm
    exact (Table.Corr.save (TurnMove.refl v) hturn hm.turnId hm).forth
  cases h with
  | turnCreated turn turns _ hturns hv' =>
    subst hv'
    exact fun x hx => ⟨x, (Table.mem_insert hturns).mpr (.inl hx), .refl v x⟩
  | turnRouted turn status hturn _ _ hv' =>
    subst hv'
    exact hsaved turn hturn (withTurnStatus status turn) ⟨rfl, .inl rfl⟩
  | published p turn taskIds hp hst hturn hid _ _ hv' =>
    subst hv'
    exact hsaved turn hturn { turn with taskIds := taskIds, status := .processing }
      ⟨rfl, .inr ⟨p, hp, hid.symm, .inl hst⟩⟩
  | exhausted _ _ turn _ _ _ _ _ hturn _ hv' =>
    subst hv'
    exact hsaved turn hturn (withTurnStatus .failed turn) ⟨rfl, .inl rfl⟩
  | retried _ turn _ _ _ _ _ _ hturn _ _ _ hv' =>
    subst hv'
    exact hsaved turn hturn (withTurnStatus .processing turn) ⟨rfl, .inl rfl⟩
  | asked _ turn _ _ _ _ _ hturn _ _ _ _ hv' =>
    subst hv'
    exact hsaved turn hturn (withTurnStatus .needsClarification turn) ⟨rfl, .inl rfl⟩
  | questioned _ _ turn question _ _ _ _ hturn _ _ hv' =>
    subst hv'
    exact hsaved turn hturn (askingTurn question turn) ⟨rfl, .inl rfl⟩
  | answered _ _ turn answer _ _ _ _ _ _ _ hturn _ _ _ hv' =>
    subst hv'
    exact hsaved turn hturn (answeredTurn answer turn) ⟨rfl, .inl rfl⟩
  | turnCompleted p turn turn' hp hst hturn hid _ hid' _ hv' =>
    subst hv'
    exact hsaved turn hturn turn' ⟨hid', .inr ⟨p, hp, hid.symm, .inr hst⟩⟩
  | worked hw => exact (Table.Corr.of_eq (TurnMove.refl v) hw.turns).forth
  | quiet hv' => subst hv'; exact fun x hx => ⟨x, hx, .refl _ x⟩
  | planCreated _ _ _ _ _ _ _ _ hv' => subst hv'; exact fun x hx => ⟨x, hx, .refl v x⟩
  | taskCreated _ _ _ _ _ _ _ _ hv' => subst hv'; exact fun x hx => ⟨x, hx, .refl v x⟩
  | revised _ _ _ _ _ _ _ _ _ _ _ _ hv' => subst hv'; exact fun x hx => ⟨x, hx, .refl v x⟩
  | unsupported _ _ _ _ hv' => subst hv'; exact fun x hx => ⟨x, hx, .refl v x⟩
  | resolved _ _ _ _ _ _ _ _ hv' => subst hv'; exact fun x hx => ⟨x, hx, .refl v x⟩

/-- A plan that is ready after a step was ready before it, or is published by it. -/
theorem ready_back {retries : Option PlanId} {v v' : View} (h : WorkflowStep retries v v') {p' : Plan}
    (hp' : p' ∈ v'.plans) (hst : p'.status = .ready) : p' ∈ v.plans ∨
      ∃ p turn taskIds, p ∈ v.plans ∧ p.status = .planning ∧ turn ∈ v.turns ∧
        turn.turnId = p.turnId ∧ taskIds = (v.draftsOf p.planId).map Task.taskId ∧
        p' = publishPlan p ∧ v' = { v with
          plans := v.plans.save (publishPlan p)
          tasks := v.tasks.mapRows (publishTask taskIds) (publishTask_taskId taskIds)
          turns := v.turns.save { turn with taskIds := taskIds, status := .processing } } := by
  have hsaved : ∀ q ∈ v.plans, ∀ saved : Plan, saved.planId = q.planId → saved.status ≠ .ready →
      p' ∈ v.plans.save saved → p' ∈ v.plans := by
    intro q hq saved hid hqst hx
    rcases (Table.mem_save_of_mem hq hid).mp hx with rfl | ⟨hx, -⟩
    · exact absurd hst hqst
    · exact hx
  cases h with
  | published p turn taskIds hp hpst hturn hid _ hids hv' =>
    have hx := hp'
    rw [hv'] at hx
    rcases (Table.mem_save_of_mem (r := publishPlan p) hp rfl).mp hx with rfl | ⟨hx, -⟩
    · exact .inr ⟨p, turn, taskIds, hp, hpst, hturn, hid, hids, rfl, hv'⟩
    · exact .inl hx
  | planCreated _ _ _ plans _ _ _ hplans hv' =>
    subst hv'
    rcases (Table.mem_insert hplans).mp hp' with hx | rfl
    · exact .inl hx
    · cases hst
  | worked hw =>
    obtain ⟨p, hp, hwork⟩ := hw.plans.back hp'
    rcases hwork.status with rfl | ⟨-, hworked⟩
    · exact .inl hp
    · rw [hst] at hworked
      cases hworked
  | revised q _ _ now plans hq _ _ _ _ _ hplans hv' =>
    subst hv'
    rcases (Table.mem_insert hplans).mp hp' with hx | rfl
    · exact .inl (hsaved q hq (supersedePlan now q) rfl nofun hx)
    · cases hst
  | exhausted q _ _ now hq _ _ _ _ _ hv' =>
    subst hv'
    exact .inl (hsaved q hq (exhaustPlan now q) rfl nofun hp')
  | unsupported q reason hq _ hv' =>
    subst hv'
    exact .inl (hsaved q hq (setPlanStatus .unsupported (some reason) (some "unsupported") q) rfl
      nofun hp')
  | retried q _ reason _ _ _ hq _ _ _ _ _ hv' =>
    subst hv'
    exact .inl (hsaved q hq (setPlanStatus .retryPending (some reason)
      (some "planner_system_failure") q) rfl nofun hp')
  | asked q _ _ command _ hq _ _ _ _ _ _ hv' =>
    subst hv'
    exact .inl (hsaved q hq (setPlanStatus .needsClarification (some command.reason.text)
      (some "clarification_required") q) rfl nofun hp')
  | quiet hv' => subst hv'; exact .inl hp'
  | turnCreated _ _ _ _ hv' => subst hv'; exact .inl hp'
  | turnRouted _ _ _ _ _ hv' => subst hv'; exact .inl hp'
  | taskCreated _ _ _ _ _ _ _ _ hv' => subst hv'; exact .inl hp'
  | questioned _ _ _ _ _ _ _ _ _ _ _ hv' => subst hv'; exact .inl hp'
  | answered _ _ _ _ _ _ _ _ _ _ _ _ _ _ _ hv' => subst hv'; exact .inl hp'
  | turnCompleted _ _ _ _ _ _ _ _ _ _ hv' => subst hv'; exact .inl hp'
  | resolved _ _ _ _ _ _ _ _ hv' => subst hv'; exact .inl hp'

/-- The tasks of a plan are listed in the same order before and after publication. -/
theorem publish_insertionSort (taskIds : List TaskId) (rows : List Task) :
    ((rows.map (publishTask taskIds)).insertionSort Db.TaskOrder).map Task.taskId =
      (rows.insertionSort Db.TaskOrder).map Task.taskId := by
  rw [Db.insertionSort_map (publishTask_sequence taskIds) (publishTask_taskId taskIds),
    List.map_map]
  exact List.map_congr_left fun t _ => publishTask_taskId taskIds t

/-- **Publication**: drafts become the pending tasks that the turn lists. -/
theorem published_of_drafts {v : View} {planId : PlanId} {rows' : List Task}
    (hdrafts : ∀ t ∈ v.rowsOf planId, t.status = .draft)
    (hrows : rows' = (v.rowsOf planId).map (publishTask ((v.draftsOf planId).map Task.taskId))) :
    (∀ t ∈ rows', t.status = .pending) ∧
      (rows'.insertionSort Db.TaskOrder).map Task.taskId = (v.draftsOf planId).map Task.taskId := by
  have hsame : v.draftsOf planId = (v.rowsOf planId).insertionSort Db.TaskOrder := by
    rw [View.draftsOf, View.rowsOf]
    congr 1
    refine List.filter_congr fun t ht => ?_
    by_cases hid : t.planId = planId
    · simp [hid, hdrafts t (mem_rowsOf.mpr ⟨ht, hid⟩)]
    · simp [hid]
  refine ⟨fun t ht => ?_, ?_⟩
  · rw [hrows] at ht
    obtain ⟨x, hx, rfl⟩ := List.mem_map.mp ht
    refine publishTask_of_mem ?_
    rw [hsame]
    exact List.mem_map_of_mem ((List.mem_insertionSort _).mpr hx)
  · rw [hrows, publish_insertionSort, hsame]

section Staged

variable {retries : Option PlanId} {v v' : View}

theorem Staged.owner_step (hl : Lineage v) (hs : Staged v) (h : WorkflowStep retries v v') :
    ∀ t ∈ v'.tasks, ∃ p ∈ v'.plans, p.planId = t.planId := by
  intro t ht
  have hold : ∀ p ∈ v.plans, p.planId = t.planId → ∃ p' ∈ v'.plans, p'.planId = t.planId := by
    intro p hp hid
    obtain ⟨p', hp', hm⟩ := (hl.plansStep h).forth p hp
    exact ⟨p', hp', hm.same.planId.trans hid⟩
  cases rows_effect hl h t.planId with
  | kept hrows =>
    obtain ⟨htv, -⟩ := mem_rowsOf.mp (hrows ▸ mem_rowsOf.mpr ⟨ht, rfl⟩)
    obtain ⟨p, hp, hid⟩ := hs.owner t htv
    exact hold p hp hid
  | drafted p _ hp hid => exact hold p hp hid
  | published p hp hid => exact hold p hp hid
  | worked p hp hid => exact hold p hp hid
  | ended p _ hp hid => exact hold p hp hid

theorem Staged.rooted_step (hl : Lineage v) (hs : Staged v) (h : WorkflowStep retries v v') :
    ∀ p ∈ v'.plans, ∃ turn ∈ v'.turns, turn.turnId = p.turnId := by
  have hold : ∀ turn ∈ v.turns, ∃ turn' ∈ v'.turns, turn'.turnId = turn.turnId := by
    intro turn hturn
    obtain ⟨turn', hturn', hm⟩ := turns_step h turn hturn
    exact ⟨turn', hturn', hm.turnId⟩
  have hplan : ∀ q ∈ v.plans, ∃ turn' ∈ v'.turns, turn'.turnId = q.turnId := by
    intro q hq
    obtain ⟨turn, hturn, hid⟩ := hs.rooted q hq
    obtain ⟨turn', hturn', hid'⟩ := hold turn hturn
    exact ⟨turn', hturn', hid'.trans hid⟩
  refine (hl.plansStep h).all (fun p hp p' _ hm => ?_) fun n hn => ?_
  · rw [hm.same.turnId]
    exact hplan p hp
  · rcases hn.turn with ⟨turn, hturn, hid⟩ | ⟨q, hq, hid⟩
    · rw [← hid]
      exact hold turn hturn
    · rw [← hid]
      exact hplan q hq

theorem Staged.drafts_step (hl : Lineage v) (hs : Staged v) (h : WorkflowStep retries v v') :
    ∀ p ∈ v'.plans, p.status = .planning → ∀ t ∈ v'.rowsOf p.planId, t.status = .draft := by
  intro p' hp' hst
  have hcases : (p' ∈ v.plans) ∨ ∀ q ∈ v.plans, q.planId ≠ p'.planId := by
    refine (hl.plansStep h).all (P := fun p' => p'.status = .planning → p' ∈ v.plans ∨
      ∀ q ∈ v.plans, q.planId ≠ p'.planId) (fun p hp p' _ hm hst => ?_)
      (fun n hn _ => .inr hn.fresh) p' hp' hst
    rcases hm.moved with rfl | hadv
    · exact .inl hp
    · exact absurd hst hadv.not_planning
  have hplan : ∀ q ∈ v.plans, q.planId = p'.planId → q = p' := by
    intro q hq hid
    rcases hcases with hp | hfresh
    · exact Table.eq_of_key hq hp hid
    · exact absurd hid (hfresh q hq)
  have hold : ∀ t ∈ v.rowsOf p'.planId, t.status = .draft := by
    intro t ht
    obtain ⟨htm, htp⟩ := mem_rowsOf.mp ht
    obtain ⟨q, hq, hid⟩ := hs.owner t htm
    obtain rfl := hplan q hq (hid.trans htp)
    exact hs.drafts q hq hst t ht
  cases rows_effect hl h p'.planId with
  | kept hrows =>
    rw [hrows]
    exact hold
  | drafted q x _ _ _ hdraft hrows =>
    rw [hrows]
    intro t ht
    rcases List.mem_append.mp ht with ht | ht
    · exact hold t ht
    · rw [List.mem_singleton.mp ht]
      exact hdraft
  | published q hq hid _ hpub _ =>
    obtain rfl := Table.eq_of_key hpub hp' hid
    cases hst
  | worked q hq hid hworking =>
    rw [hplan q hq hid, hst] at hworking
    cases hworking
  | ended q _ hq hid hclosed =>
    rw [hplan q hq hid, hst] at hclosed
    cases hclosed

/-- The plan stays ready, and so nothing of it moves. -/
theorem Staged.published_kept (hl : Lineage v) (hs : Staged v) (h : WorkflowStep retries v v')
    {p : Plan} (hp : p ∈ v.plans) (hp' : p ∈ v'.plans) (hst : p.status = .ready) :
    Published v' p := by
  obtain ⟨hpending, turn, hturn, hid, hids⟩ := hs.published p hp hst
  have hplan : ∀ q ∈ v.plans, q.planId = p.planId → q.status = .ready := by
    intro q hq hid
    rw [Table.eq_of_key hq hp hid]
    exact hst
  have hrows : v'.rowsOf p.planId = v.rowsOf p.planId := by
    cases rows_effect hl h p.planId with
    | kept hrows => exact hrows
    | drafted q _ hq hid hqst =>
      rw [hplan q hq hid] at hqst
      cases hqst
    | published q hq hid hqst =>
      rw [hplan q hq hid] at hqst
      cases hqst
    | ended q _ hq hid hclosed =>
      rw [hplan q hq hid] at hclosed
      cases hclosed
    | worked q hq hid _ hw =>
      obtain ⟨f, hf, hwork⟩ := hw.tasks
      rw [View.rowsOf, hf, Db.filter_map_planId fun t ht => (hwork t ht).planId]
      refine map_of_fixed fun t ht => ?_
      obtain ⟨htm, htp⟩ := mem_rowsOf.mp ht
      rcases (hwork t htm).moved with hsame | ⟨x, -, hxid, -, hwait | ⟨x', hx', hxid', hworked⟩⟩
      · exact hsame
      · rw [hpending t ht] at hwait
        cases hwait
      · obtain rfl : x' = p := Table.eq_of_key hx' hp' (hxid'.trans (hxid.trans htp))
        rw [hst] at hworked
        cases hworked
  refine ⟨by rw [hrows]; exact hpending, ?_⟩
  obtain ⟨turn', hturn', hturnId, htaskIds⟩ := turns_step h turn hturn
  refine ⟨turn', hturn', hturnId.trans hid, ?_⟩
  have hlist : v'.tasksOf p.planId = v.tasksOf p.planId := by
    show (v'.rowsOf p.planId).insertionSort Db.TaskOrder = _
    rw [hrows]
    rfl
  rcases htaskIds with hsame | ⟨q, hq, hqt, hqst⟩
  · rw [hsame, hids, hlist]
  · -- a plan that is planned or has answered is not the ready one of the turn
    have hlive : q.status ≠ .superseded := by
      rcases hqst with hqst | hqst
      · rw [hqst]
        nofun
      · intro hsup
        rw [hsup] at hqst
        cases hqst
    obtain rfl := hl.eq_of_turn hq hp (hqt.trans hid) hlive (by rw [hst]; nofun)
    rw [hst] at hqst
    rcases hqst with hqst | hqst <;> cases hqst

theorem Staged.published_step (hl : Lineage v) (hs : Staged v) (h : WorkflowStep retries v v') :
    ∀ p ∈ v'.plans, p.status = .ready → Published v' p := by
  intro p' hp' hst
  rcases ready_back h hp' hst with hp | ⟨p, turn, taskIds, hp, hpst, hturn, hid, hids, rfl, hv'⟩
  · exact hs.published_kept hl h hp hp' hst
  · subst hv' hids
    obtain ⟨hpending, hlist⟩ := published_of_drafts (hs.drafts p hp hpst) rfl
    have hrows : ((v.tasks.mapRows (publishTask ((v.draftsOf p.planId).map Task.taskId))
        (publishTask_taskId _)).rows.filter fun t => t.planId = p.planId) =
          (v.rowsOf p.planId).map (publishTask ((v.draftsOf p.planId).map Task.taskId)) :=
      Db.filter_map_planId fun t _ => publishTask_planId _ t
    rw [← hrows] at hpending hlist
    refine ⟨hpending, { turn with
      taskIds := (v.draftsOf p.planId).map Task.taskId
      status := .processing }, ?_, hid, hlist.symm⟩
    exact (Table.mem_save_of_mem (r := { turn with
      taskIds := (v.draftsOf p.planId).map Task.taskId
      status := .processing }) hturn rfl).mpr (.inl rfl)

theorem Staged.step (hl : Lineage v) (hs : Staged v) (h : WorkflowStep retries v v') : Staged v' :=
  ⟨hs.owner_step hl h, hs.rooted_step hl h, hs.drafts_step hl h, hs.published_step hl h⟩

end Staged

theorem workflow_staged {config : RuntimeConfig} {s : WorkflowState}
    {ok : WorkflowState → WorkflowAction → Prop} (h : (workflows config).ReachableVia ok s) :
    Staged (view s.runtime.db) := by
  refine h.invariant (P := fun s => Staged (view s.runtime.db)) ?_ ?_
  · intro s hi
    obtain ⟨-, hplans, htasks, -, -⟩ := WorkflowState.Fresh.blank hi
    constructor <;> simp [Table.mem_iff, hplans, htasks]
  · exact fun _ _ _ hr hs _ hstep =>
      hs.step (workflow_lineage hr) (workflow_step_cases (workflow_owned hr) hstep)

end DocFlow.Workflow
