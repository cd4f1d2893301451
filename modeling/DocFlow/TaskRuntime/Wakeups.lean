import DocFlow.TaskRuntime.TaskGraph
import DocFlow.TaskRuntime.Attempts

/-!
# No wake-up is lost

A wake-up drives a plan when a claim for it, made once it is available, gets past every branch
that only records the event: the lease of a running execution has run out by then, and an
execution that waits for its compensation is the one that the event is addressed to.

As long as a plan is under execution and not locked, the outbox holds an unrecorded wake-up that
drives it.  Every change of the plan's current execution appends one (`Effect.carries`), and a
transaction that records one makes such a change (`transaction_awake`).
-/

namespace DocFlow.TaskRuntime

/-! ## Wake-ups that drive a plan -/

/-- The call of `execute_next` that the dispatcher makes for an event. -/
def delivery (ev : OutboxEvent) : Option ExecuteNextInput :=
  match ev.eventType, ev.payload.planId with
  | .planWakeup, some planId =>
    some ⟨planId, some ev.eventId, ev.payload.executionId, ev.payload.operationId⟩
  | _, _ => none

theorem delivery_eq_some {ev : OutboxEvent} {input : ExecuteNextInput} :
    delivery ev = some input ↔ ev.eventType = .planWakeup ∧
      ev.payload.planId = some input.planId ∧ input.eventId = some ev.eventId ∧
      input.compensationExecutionId = ev.payload.executionId ∧
      input.compensationOperationId = ev.payload.operationId := by
  obtain ⟨planId, eventId, executionId, operationId⟩ := input
  unfold delivery
  split
  · next p htype hplan =>
    simp only [Option.some.injEq, ExecuteNextInput.mk.injEq, htype, hplan, true_and]
    grind
  · next h =>
    constructor
    · rintro ⟨⟩
    · rintro ⟨htype, hplan, -⟩
      exact absurd hplan (h planId htype)

/-- A claim for the event, made once it is available, goes on with the plan. -/
structure Drives (registry : CapabilityRegistry) (db : Db) (p : Plan) (ev : OutboxEvent)
    (input : ExecuteNextInput) : Prop where
  delivered : delivery ev = some input
  planId : input.planId = p.planId
  idle : p.currentTaskId = none → ¬ input.Directed
  running : ∀ e ∈ db.taskExecutions, p.currentTaskId = some e.taskId → e.status = .running →
    ¬ input.Directed ∧ ∀ t ∈ db.tasks, t.taskId = e.taskId →
      ∀ d, registry.get? t.capabilityCode = some d → leaseHeld t d ev.availableAt = false
  required : ∀ e ∈ db.taskExecutions, p.currentTaskId = some e.taskId →
    e.status = .compensationRequired → ∀ s : Snapshot, s.executionId = e.executionId →
      s.operationId = e.operationId → ¬ input.Mismatches s

/-- The plan is being executed. -/
def Live (p : Plan) : Prop := p.status = .ready ∨ p.status = .running

/-- The plan's current execution is not locked. -/
def Unlocked (db : Db) (p : Plan) : Prop :=
  ∀ e ∈ db.taskExecutions, p.currentTaskId = some e.taskId → e.status ≠ .compensationLocked

/-- An unrecorded wake-up drives the plan. -/
def Awake (registry : CapabilityRegistry) (db : Db) (p : Plan) : Prop :=
  ∃ ev ∈ db.outbox, ¬ Recorded db ev.eventId ∧ ∃ input, Drives registry db p ev input

/-- A new wake-up drives the plan. -/
def Woken (registry : CapabilityRegistry) (db db' : Db) (p : Plan) : Prop :=
  ∃ ev ∈ db'.outbox, (∀ x ∈ db.outbox, x.eventId ≠ ev.eventId) ∧
    ∃ input, Drives registry db' p ev input

/-- The current task and execution of the plan stay as they are, or the execution starts to wait
for its compensation. -/
structure KeepsCurrent (db db' : Db) (p : Plan) : Prop where
  executions : ∀ e' ∈ db'.taskExecutions, p.currentTaskId = some e'.taskId →
    e'.status = .running ∨ e'.status = .compensationRequired →
    ∃ e ∈ db.taskExecutions, e.taskId = e'.taskId ∧ e.executionId = e'.executionId ∧
      e.operationId = e'.operationId ∧ (e.status = e'.status ∨ e.status = .running)
  tasks : ∀ t' ∈ db'.tasks, p.currentTaskId = some t'.taskId →
    ∃ t ∈ db.tasks, t.taskId = t'.taskId ∧ t.capabilityCode = t'.capabilityCode ∧
      t.startedAt = t'.startedAt
  locked : ∀ e ∈ db.taskExecutions, p.currentTaskId = some e.taskId →
    e.status = .compensationLocked →
    ∃ e' ∈ db'.taskExecutions, e'.taskId = e.taskId ∧ e'.status = .compensationLocked

section Driving

variable {registry : CapabilityRegistry} {db db' mid : Db} {p : Plan} {ev : OutboxEvent}
  {input : ExecuteNextInput}

theorem ExecuteNextInput.not_mismatches (h : ¬ input.Directed) (s : Snapshot) :
    ¬ input.Mismatches s := by
  unfold ExecuteNextInput.Directed at h
  unfold ExecuteNextInput.Mismatches
  grind

theorem IsPlainWakeup.delivery (h : IsPlainWakeup p ev) :
    delivery ev = some ⟨p.planId, some ev.eventId, none, none⟩ := by
  rw [delivery_eq_some, h.payload]
  exact ⟨h.eventType, rfl, rfl, rfl, rfl⟩

theorem not_directed (planId : PlanId) (eventId : Option EventId) :
    ¬ ExecuteNextInput.Directed ⟨planId, eventId, none, none⟩ := by
  simp [ExecuteNextInput.Directed]

/-- Any wake-up that names no execution drives a plan without a current task. -/
theorem IsPlainWakeup.drives_idle (h : IsPlainWakeup p ev) {p' : Plan}
    (hid : p'.planId = p.planId) (hcur : p'.currentTaskId = none) :
    Drives registry db p' ev ⟨p.planId, some ev.eventId, none, none⟩ where
  delivered := h.delivery
  planId := hid.symm
  idle := fun _ => not_directed _ _
  running := fun e _ hT => by rw [hcur] at hT; cases hT
  required := fun e _ hT => by rw [hcur] at hT; cases hT

theorem Drives.kept (h : Drives registry db p ev input) (hkept : KeepsCurrent db db' p) :
    Drives registry db' p ev input where
  delivered := h.delivered
  planId := h.planId
  idle := h.idle
  running := by
    intro e' he' hcur hst
    obtain ⟨e, he, htask, -, -, hsame⟩ := hkept.executions e' he' hcur (.inl hst)
    have hrun : e.status = .running := hsame.elim (fun h => h.trans hst) id
    rw [← htask] at hcur
    obtain ⟨hundirected, hlease⟩ := h.running e he hcur hrun
    refine ⟨hundirected, fun t' ht' htid d hd => ?_⟩
    rw [htask, ← htid] at hcur
    obtain ⟨t, ht, hid, hcode, hstart⟩ := hkept.tasks t' ht' hcur
    have hlease := hlease t ht (by rw [hid, htid, htask]) d (by rw [hcode, hd])
    rw [leaseHeld, hstart] at hlease
    exact hlease
  required := by
    intro e' he' hcur hst s hs hop
    obtain ⟨e, he, htask, hid, hopid, hsame⟩ := hkept.executions e' he' hcur (.inr hst)
    rw [← htask] at hcur
    rcases hsame with hsame | hrun
    · exact h.required e he hcur (hsame.trans hst) s (hs.trans hid.symm) (hop.trans hopid.symm)
    · exact ExecuteNextInput.not_mismatches (h.running e he hcur hrun).1 s

theorem KeepsCurrent.of_eq (he : db'.taskExecutions = db.taskExecutions)
    (ht : db'.tasks = db.tasks) : KeepsCurrent db db' p := by
  refine ⟨?_, ?_, ?_⟩
  · rw [he]
    exact fun e h _ _ => ⟨e, h, rfl, rfl, rfl, .inl rfl⟩
  · rw [ht]
    exact fun t h _ => ⟨t, h, rfl, rfl, rfl⟩
  · rw [he]
    exact fun e h _ hst => ⟨e, h, rfl, hst⟩

theorem KeepsCurrent.trans (h : KeepsCurrent db mid p) (g : KeepsCurrent mid db' p) :
    KeepsCurrent db db' p := by
  refine ⟨fun e'' he'' hcur hst => ?_, fun t'' ht'' hcur => ?_, fun e he hcur hst => ?_⟩
  · obtain ⟨e', he', htask', hid', hop', hsame'⟩ := g.executions e'' he'' hcur hst
    have hst' : e'.status = .running ∨ e'.status = .compensationRequired :=
      hsame'.elim (fun h => by rw [h]; exact hst) .inl
    obtain ⟨e, he, htask, hid, hop, hsame⟩ := h.executions e' he' (by rw [htask', hcur]) hst'
    refine ⟨e, he, htask.trans htask', hid.trans hid', hop.trans hop', ?_⟩
    rcases hsame with hsame | hrun
    · rw [hsame]
      exact hsame'
    · exact .inr hrun
  · obtain ⟨t', ht', hid', hcode', hstart'⟩ := g.tasks t'' ht'' hcur
    obtain ⟨t, ht, hid, hcode, hstart⟩ := h.tasks t' ht' (by rw [hid', hcur])
    exact ⟨t, ht, hid.trans hid', hcode.trans hcode', hstart.trans hstart'⟩
  · obtain ⟨e', he', htask', hst'⟩ := h.locked e he hcur hst
    obtain ⟨e'', he'', htask'', hst''⟩ := g.locked e' he' (by rw [htask', hcur]) hst'
    exact ⟨e'', he'', htask''.trans htask', hst''⟩

theorem Unlocked.back (h : Unlocked db' p) (hkept : KeepsCurrent db db' p) : Unlocked db p := by
  intro e he hcur hst
  obtain ⟨e', he', htask, hst'⟩ := hkept.locked e he hcur hst
  exact h e' he' (by rw [htask, hcur]) hst'

end Driving

/-! ## Every effect -/

section Effects

variable {registry : CapabilityRegistry} {claiming : Option (ClaimIds × Clock)} {db db' : Db}

/-- An appended event is new. -/
theorem mem_append_new {ev : OutboxEvent} (hrows : db'.outbox.rows = db.outbox.rows ++ [ev]) :
    ev ∈ db'.outbox ∧ ∀ x ∈ db.outbox, x.eventId ≠ ev.eventId := by
  have hnodup := db'.outbox.nodup
  rw [hrows, List.map_append, List.nodup_append] at hnodup
  refine ⟨by rw [Table.mem_iff, hrows]; simp, fun x hx => ?_⟩
  exact hnodup.2.2 x.eventId (List.mem_map_of_mem hx) ev.eventId (by simp)

theorem Settlement.woken (hcons : Consistent registry db') (hgraph : TaskGraph db')
    {p p' : Plan} {t t' : Task} {e e' : TaskExecution} {news : List OutboxEvent}
    (h : Settlement db' p p' t t' e e' news) (hp' : p' ∈ db'.plans) (hid : p'.planId = p.planId)
    (hcur : p'.currentTaskId = none) (hrows : db'.outbox.rows = db.outbox.rows ++ news)
    (hlive : Live p') : Woken registry db db' p' := by
  cases h with
  | succeeded ev _ _ _ _ hnews hplain =>
    rw [hnews] at hrows
    obtain ⟨hmem, hnew⟩ := mem_append_new hrows
    exact ⟨ev, hmem, hnew, _, hplain.drives_idle hid hcur⟩
  | retried ev _ _ _ _ hnews hplain =>
    rw [hnews] at hrows
    obtain ⟨hmem, hnew⟩ := mem_append_new hrows
    exact ⟨ev, hmem, hnew, _, hplain.drives_idle hid hcur⟩
  | finished ev _ _ _ hst => simp [Live, hst] at hlive
  | replanned ev r _ _ hst => simp [Live, hst] at hlive
  | stuck x _ _ _ _ _ hx hxp hsucc hpend hretry =>
    -- the tasks of a live plan are pending, waiting, running or have succeeded
    have hstatus : isLive x.status = true :=
      ((hgraph.executable p' hp').live hlive).1 x hx (hxp.trans hid.symm)
    have hrun : x.status = .running := by
      cases hx : x.status <;> simp_all [isLive]
    have := hcons.running x hx hrun p' hp' (hid.trans hxp.symm)
    rw [hcur] at this
    cases this

/-- A plan that is left alone when an attempt ends keeps its current execution. -/
theorem KeepsCurrent.settled {q : Plan} {t t' : Task} {e e' : TaskExecution}
    (ht : t ∈ db.tasks) (he : e ∈ db.taskExecutions) (hsameTask : SameTask t t')
    (hsame : SameAttempt e e') (hlocked : e.status ≠ .compensationLocked)
    (hinactive : isActive e'.status = false)
    (htasks : db'.tasks = db.tasks.save t')
    (hexecs : db'.taskExecutions = db.taskExecutions.save e') : KeepsCurrent db db' q := by
  refine ⟨fun x hx _ hst => ?_, fun x hx _ => ?_, fun x hx _ hst => ?_⟩
  · rw [hexecs] at hx
    rcases (Table.mem_save_of_mem he hsame.executionId).mp hx with rfl | ⟨hx, -⟩
    · rcases hst with hst | hst
      · rw [hst] at hinactive
        cases hinactive
      · rw [hst] at hinactive
        cases hinactive
    · exact ⟨x, hx, rfl, rfl, rfl, .inl rfl⟩
  · rw [htasks] at hx
    rcases (Table.mem_save_of_mem ht hsameTask.taskId).mp hx with rfl | ⟨hx, -⟩
    · exact ⟨t, ht, hsameTask.taskId.symm, hsameTask.capabilityCode.symm,
        hsameTask.startedAt.symm⟩
    · exact ⟨x, hx, rfl, rfl, rfl⟩
  · refine ⟨x, ?_, rfl, hst⟩
    rw [hexecs]
    refine (Table.mem_save_of_mem he hsame.executionId).mpr (.inr ⟨hx, ?_⟩)
    rintro rfl
    exact hlocked hst

theorem KeepsCurrent.advanced {q : Plan} {e e' : TaskExecution} (he : e ∈ db.taskExecutions)
    (hsame : SameAttempt e e') (hadv : Advances e.status e'.status)
    (htasks : db'.tasks = db.tasks) (hexecs : db'.taskExecutions = db.taskExecutions.save e') :
    KeepsCurrent db db' q := by
  refine ⟨fun x hx _ hst => ?_, fun x hx _ => ?_, fun x hx _ hst => ?_⟩
  · rw [hexecs] at hx
    rcases (Table.mem_save_of_mem he hsame.executionId).mp hx with rfl | ⟨hx, -⟩
    · refine ⟨e, he, hsame.taskId.symm, hsame.executionId.symm, hsame.operationId.symm, ?_⟩
      generalize e.status = s, x.status = s' at *
      cases hadv with
      | required => exact .inr rfl
      | attempted => exact .inl rfl
      | locked => rcases hst with hst | hst <;> cases hst
    · exact ⟨x, hx, rfl, rfl, rfl, .inl rfl⟩
  · rw [htasks] at hx
    exact ⟨x, hx, rfl, rfl, rfl⟩
  · refine ⟨x, ?_, rfl, hst⟩
    rw [hexecs]
    refine (Table.mem_save_of_mem he hsame.executionId).mpr (.inr ⟨hx, ?_⟩)
    rintro rfl
    rw [hst] at hadv
    cases hadv

/-- Rewriting tasks in place keeps what a lease depends on. -/
theorem KeepsCurrent.rewriteTasks {q : Plan} {f : Task → Task} (hf : ∀ t, (f t).taskId = t.taskId)
    (hcode : ∀ t, (f t).capabilityCode = t.capabilityCode)
    (hstart : ∀ t, (f t).startedAt = t.startedAt) (htasks : db'.tasks = db.tasks.mapRows f hf)
    (hexecs : db'.taskExecutions = db.taskExecutions) : KeepsCurrent db db' q := by
  have hkept : KeepsCurrent db (db.setTaskExecutions db'.taskExecutions) q := .of_eq hexecs rfl
  refine ⟨hkept.executions, fun x hx _ => ?_, hkept.locked⟩
  rw [htasks] at hx
  obtain ⟨t, ht, rfl⟩ := Table.mem_mapRows.mp hx
  exact ⟨t, ht, (hf t).symm, (hcode t).symm, (hstart t).symm⟩

/-- The lease wake-up of a new attempt drives its plan. -/
theorem leaseWakeup_drives {p : Plan} {t : Task} {d : CapabilityDefinition} {ids : ClaimIds}
    {clock : Clock} (hd : registry.get? t.capabilityCode = some d)
    (htasks : db'.tasks = db.tasks.save (startTask d clock t)) :
    Drives registry db' (startPlan clock t p) (leaseWakeup d ids clock p)
      ⟨p.planId, some ids.eventId, none, none⟩ where
  delivered := rfl
  planId := rfl
  idle := fun _ => not_directed _ _
  running := by
    intro e _ hcur _
    refine ⟨not_directed _ _, fun t' ht' htid d' hd' => ?_⟩
    have htask : t'.taskId = t.taskId := htid.trans (Option.some.inj hcur).symm
    rw [htasks] at ht'
    rcases Table.mem_save.mp ht' with ⟨rfl, -⟩ | ⟨-, hne⟩
    · obtain rfl := Option.some.inj (hd.symm.trans hd')
      have hmono : clock.read 0 ≤ clock.read 3 := clock.monotone (by omega)
      show decide (clock.read 3 + timedelta d.timeoutSeconds <
        clock.read 0 + timedelta d.timeoutSeconds) = false
      rw [decide_eq_false_iff_not]
      exact Int.not_lt.mpr (Int.add_le_add_right hmono _)
    · exact absurd htask hne
  required := fun _ _ _ _ s _ _ => ExecuteNextInput.not_mismatches (not_directed _ _) s

/-- A plan whose current task is another one keeps its current execution when a task is
started. -/
theorem KeepsCurrent.started (hcons : Consistent registry db) {q : Plan} {t t' : Task}
    {e : TaskExecution} (hq : q ∈ db.plans) (ht : t ∈ db.tasks) (hst : t.status ≠ .running)
    (htid : t'.taskId = t.taskId) (hetid : e.taskId = t.taskId)
    (htasks : db'.tasks = db.tasks.save t')
    (hexecs : db.taskExecutions.insert e = some db'.taskExecutions) : KeepsCurrent db db' q := by
  have hother : q.currentTaskId ≠ some t.taskId := by
    intro hcur
    obtain ⟨-, x, hx, hxid, -, hrun⟩ := hcons.current q hq t.taskId hcur
    rw [Table.eq_of_key hx ht hxid] at hrun
    exact hst hrun
  refine ⟨fun x hx hcur _ => ?_, fun x hx hcur => ?_, fun x hx _ hxst => ?_⟩
  · rcases (Table.mem_insert hexecs).mp hx with hx | rfl
    · exact ⟨x, hx, rfl, rfl, rfl, .inl rfl⟩
    · rw [hetid] at hcur
      exact absurd hcur hother
  · rw [htasks] at hx
    rcases (Table.mem_save_of_mem ht htid).mp hx with rfl | ⟨hx, -⟩
    · rw [htid] at hcur
      exact absurd hcur hother
    · exact ⟨x, hx, rfl, rfl, rfl⟩
  · exact ⟨x, (Table.mem_insert hexecs).mpr (.inl hx), rfl, hxst⟩

/-- **The step**: an effect wakes a live plan, or leaves it with its current execution. -/
theorem Effect.carries (hcons : Consistent registry db) (hgraph : TaskGraph db)
    (heff : Effect registry claiming db db') {q : Plan} (hq : q ∈ db'.plans) (hlive : Live q) :
    Woken registry db db' q ∨ (q ∈ db.plans ∧ KeepsCurrent db db' q) := by
  have hcons' := heff.consistent hcons
  have hgraph' := heff.taskGraph hcons hgraph
  cases heff with
  | quiet hp ht _ he _ =>
    rw [hp] at hq
    exact .inr ⟨hq, .of_eq he ht⟩
  | advanced e e' news he hsame hadv hp ht _ hexecs _ _ =>
    rw [hp] at hq
    exact .inr ⟨hq, .advanced he hsame hadv ht hexecs⟩
  | settled p p' t t' e e' news hp ht he _ _ _ hid hcur hsameTask hsame hplans htasks _ hexecs hrows
      hset =>
    rcases mem_savePlan hp hplans hid hq with rfl | ⟨hq, -⟩
    · exact .inl (hset.woken hcons' hgraph' hq hid hcur hrows hlive)
    · refine .inr ⟨hq, .settled ht he hsameTask hsame ?_ hset.ended.inactive htasks hexecs⟩
      cases hset with
      | succeeded _ hst | finished _ hst | stuck _ hst =>
        rw [hst]
        exact nofun
      | retried _ hfails | replanned _ _ hfails =>
        intro hst
        rw [hst] at hfails
        cases hfails
  | resumed planId _ hp ht _ he _ =>
    rw [hp] at hq
    refine .inr ⟨hq, .rewriteTasks (Db.withStatus_taskId _ _) (fun t => ?_) (fun t => ?_) ht he⟩
    · unfold Db.withStatus; split <;> rfl
    · unfold Db.withStatus; split <;> rfl
  | started p t d ids clock _ hp _ _ ht _ hst _ hd hplans htasks _ hexecs hout =>
    rcases mem_savePlan hp hplans rfl hq with rfl | ⟨hq, -⟩
    · refine .inl ⟨leaseWakeup d ids clock p, (Table.mem_insert hout).mpr (.inr rfl),
        fun x hx => Table.key_not_mem_of_insert hout hx, _, leaseWakeup_drives hd htasks⟩
    · have htid : (startTask d clock t).taskId = t.taskId := rfl
      exact .inr ⟨hq, .started hcons hq ht (by rw [hst]; exact nofun) htid rfl htasks hexecs⟩
  | planCreated p hst _ hp ht _ he _ =>
    rcases (Table.mem_insert hp).mp hq with hq | rfl
    · exact .inr ⟨hq, .of_eq he ht⟩
    · simp [Live, hst] at hlive
  | taskCreated p t _ _ _ _ _ hp ht _ he _ =>
    rw [hp] at hq
    have hkept : KeepsCurrent db (db.setTaskExecutions db'.taskExecutions) q := .of_eq he rfl
    refine .inr ⟨hq, hkept.executions, fun x hx hcur => ?_, hkept.locked⟩
    rcases (Table.mem_insert ht).mp hx with hx | rfl
    · exact ⟨x, hx, rfl, rfl, rfl⟩
    · obtain ⟨-, y, hy, hyid, -⟩ := hcons.current q hq x.taskId hcur
      exact absurd hyid (Table.key_not_mem_of_insert ht hy)
  | published p pairs newDependencyId ev hp hst _ _ hplans htasks _ he hout hplain =>
    rcases mem_savePlan hp hplans rfl hq with rfl | ⟨hq, -⟩
    · have hcur : p.currentTaskId = none := by
        cases hcur : p.currentTaskId with
        | none => rfl
        | some T =>
          have hrun := (hcons.current p hp T hcur).1
          rw [hst] at hrun
          cases hrun
      exact .inl ⟨ev, (Table.mem_insert hout).mpr (.inr rfl),
        fun x hx => Table.key_not_mem_of_insert hout hx, _, hplain.drives_idle rfl hcur⟩
    · refine .inr ⟨hq, .rewriteTasks _ (fun t => ?_) (fun t => ?_) htasks he⟩
      · unfold Planning.publishTask; split <;> rfl
      · unfold Planning.publishTask; split <;> rfl
  | closed p p' status ev r hp _ _ _ _ hid _ hst _ hplans htasks _ he _ =>
    rcases mem_savePlan hp hplans hid hq with rfl | ⟨hq, -⟩
    · rcases hst with hst | hst <;> simp [Live, hst] at hlive
    · refine .inr ⟨hq, .rewriteTasks (Db.unfinishedWithStatus_taskId _ _) (fun t => ?_) (fun t => ?_)
        htasks he⟩
      · unfold Db.unfinishedWithStatus; split <;> rfl
      · unfold Db.unfinishedWithStatus; split <;> rfl

/-- No event leaves the outbox. -/
theorem Effect.outbox_kept (heff : Effect registry claiming db db') :
    ∀ ev ∈ db.outbox, ev ∈ db'.outbox := by
  intro ev hev
  have happend : ∀ {news}, db'.outbox.rows = db.outbox.rows ++ news → ev ∈ db'.outbox := by
    intro news hrows
    rw [Table.mem_iff, hrows]
    exact List.mem_append_left _ hev
  cases heff with
  | quiet _ _ _ _ ho | resumed _ _ _ _ _ _ ho | planCreated _ _ _ _ _ _ _ ho
  | taskCreated _ _ _ _ _ _ _ _ _ _ _ ho | closed _ _ _ _ _ _ _ _ _ _ _ _ _ _ _ _ _ _ ho =>
    rw [ho]
    exact hev
  | advanced _ _ _ _ _ _ _ _ _ _ hrows => exact happend hrows
  | settled _ _ _ _ _ _ _ _ _ _ _ _ _ _ _ _ _ _ _ _ _ hrows => exact happend hrows
  | started _ _ _ _ _ _ _ _ _ _ _ _ _ _ _ _ _ _ ho => exact (Table.mem_insert ho).mpr (.inl hev)
  | published _ _ _ _ _ _ _ _ _ _ _ _ ho => exact (Table.mem_insert ho).mpr (.inl hev)

theorem Effects.outbox_kept (heffs : Effects registry claiming db db') :
    ∀ ev ∈ db.outbox, ev ∈ db'.outbox :=
  heffs.preserves (P := fun x => ∀ ev ∈ db.outbox, ev ∈ x.outbox)
    (fun _ _ h heff ev hev => heff.outbox_kept ev (h ev hev)) fun _ hev => hev

/-- **A transaction wakes a live plan, or leaves it with its current execution.** -/
theorem Effects.carries (hcons : Consistent registry db) (hgraph : TaskGraph db)
    (heffs : Effects registry claiming db db') {q : Plan} (hq : q ∈ db'.plans) (hlive : Live q) :
    Woken registry db db' q ∨ (q ∈ db.plans ∧ KeepsCurrent db db' q) := by
  have hall : (Consistent registry db' ∧ TaskGraph db') ∧ ∀ q ∈ db'.plans, Live q →
      Woken registry db db' q ∨ (q ∈ db.plans ∧ KeepsCurrent db db' q) := by
    clear hq hlive q
    induction heffs with
    | refl => exact ⟨⟨hcons, hgraph⟩, fun q hq _ => .inr ⟨hq, .of_eq rfl rfl⟩⟩
    | tail hfirst heff ih =>
      obtain ⟨⟨hcons', hgraph'⟩, ih⟩ := ih
      refine ⟨⟨heff.consistent hcons', heff.taskGraph hcons' hgraph'⟩, fun q hq hlive => ?_⟩
      rcases heff.carries hcons' hgraph' hq hlive with ⟨ev, hev, hnew, hdrives⟩ | ⟨hq, hkept⟩
      · exact .inl ⟨ev, hev, fun x hx => hnew x (Effects.outbox_kept hfirst x hx), hdrives⟩
      · rcases ih q hq hlive with ⟨ev, hev, hnew, input, hdrives⟩ | ⟨hq, hfirst⟩
        · exact .inl ⟨ev, heff.outbox_kept ev hev, hnew, input, hdrives.kept hkept⟩
        · exact .inr ⟨hq, hfirst.trans hkept⟩
  exact hall.2 q hq hlive

end Effects

/-! ## Recording a wake-up -/

section Recording

variable {config : RuntimeConfig} {registry : CapabilityRegistry} {db db' : Db} {q : Plan}
  {ev : OutboxEvent}

theorem leaseHeld_mono {t : Task} {d : CapabilityDefinition} {a b : Time} (hab : a ≤ b)
    (h : leaseHeld t d a = false) : leaseHeld t d b = false := by
  unfold leaseHeld at *
  split at h
  · exact h
  · rw [decide_eq_false_iff_not] at *
    exact fun hlt => h (lt_of_le_of_lt hab hlt)

theorem Live.not_terminal (h : Live q) : isTerminalForClaim q.status = false := by
  rcases h with h | h <;> rw [h] <;> rfl

/-- A recovery of the plan's current execution is not addressed to another one. -/
theorem Drives.not_mismatches {input : ExecuteNextInput} (h : Drives registry db q ev input)
    (hunlocked : Unlocked db q) {now : Time} {T : TaskId} {rc : RecoveryClaim} {written : Db}
    (hcur : q.currentTaskId = some T)
    (hrec : Recovers registry now q T db (some rc) written) :
    ¬ input.Mismatches rc.recovery := by
  cases hrec with
  | locked t e s rows hst =>
    obtain ⟨-, -, he, het⟩ := rows.mem
    exact absurd hst (hunlocked e he (by rw [het, hcur]))
  | required t e s rows hst hsnap =>
    obtain ⟨-, -, he, het⟩ := rows.mem
    obtain ⟨-, -, -, hid, hop, -⟩ := recoverySnapshot_fields hsnap
    exact h.required e he (by rw [het, hcur]) hst s hid hop
  | expired t e d s rows hst =>
    obtain ⟨-, -, he, het⟩ := rows.mem
    exact ExecuteNextInput.not_mismatches (h.running e he (by rw [het, hcur]) hst).1 s

/-- **A claim for a driving wake-up does not only record it.** -/
theorem ClaimStep.not_recorded (hcons : Consistent registry db) (hgraph : TaskGraph db)
    {ids : ClaimIds} {clock : Clock} {input : ExecuteNextInput} {r : ClaimNextTaskResult}
    (h : ClaimStep registry ids clock input db r db') (hdrives : Drives registry db q ev input)
    (havailable : ev.availableAt ≤ clock.read 0) (hq : q ∈ db.plans) (hq' : q ∈ db'.plans)
    (hlive : Live q) (hunlocked : Unlocked db q) (hnew : ¬ Recorded db ev.eventId) :
    ¬ Recorded db' ev.eventId := by
  have hplan : ∀ {p}, db.plans.get? input.planId = some p → p = q := by
    intro p hp
    obtain ⟨hpm, hpid⟩ := Table.get?_eq_some.mp hp
    exact Table.eq_of_key hpm hq (hpid.trans hdrives.planId)
  cases h with
  | skipped p _ hp hskip =>
    obtain rfl := hplan hp
    rcases hskip with hterm | ⟨hcur, hdirected | hnot⟩
    · rw [hlive.not_terminal] at hterm
      cases hterm
    · exact absurd hdirected (hdrives.idle hcur)
    · exact absurd hlive hnot
  | mismatched p T rc written _ hp _ hcur hrec hmis =>
    obtain rfl := hplan hp
    exact absurd hmis (hdrives.not_mismatches hunlocked hcur hrec)
  | locked p T s _ hp _ hcur hrec =>
    obtain rfl := hplan hp
    cases hrec with
    | locked t e _ rows hst =>
      obtain ⟨-, -, he, het⟩ := rows.mem
      exact absurd hst (hunlocked e he (by rw [het, hcur]))
  | required p T s _ _ _ _ hrec =>
    unfold Recorded
    rw [hrec.inbox]
    exact hnew
  | busy p T _ hp _ hcur hrec =>
    obtain rfl := hplan hp
    cases hrec with
    | held t e d rows hst hd hheld =>
      -- the event was not available before the lease had run out
      obtain ⟨ht, htid, he, het⟩ := rows.mem
      have hlease := (hdrives.running e he (by rw [het, hcur]) hst).2 t ht (by rw [htid, het]) d hd
      rw [leaseHeld_mono havailable hlease] at hheld
      cases hheld
  | idle p _ hp hcur hundirected hst hnext hdb =>
    have hidle : ClaimStep registry ids clock input db .noTask db' :=
      .idle p _ hp hcur hundirected hst hnext hdb
    exact absurd rfl (claim_not_idle hcons hgraph hidle)
  | claimed p t d c db₁ db₂ _ hp hcur _ _ _ _ h₁ h₂ h₃ =>
    obtain rfl := hplan hp
    obtain ⟨-, execs, -, rfl⟩ := Db.addExecution_eq_ok.mp h₁
    obtain ⟨outbox, -, rfl⟩ := Db.addOutbox_eq_ok.mp h₂
    rw [(recordInbox_inboxOnly h₃).plans] at hq'
    rcases Table.mem_save.mp hq' with ⟨hsame, -⟩ | ⟨-, hne⟩
    · rw [hsame] at hcur
      cases hcur
    · exact absurd rfl hne

theorem active_unique (hcons : Consistent registry db) {e e' : TaskExecution}
    (he : e ∈ db.taskExecutions) (he' : e' ∈ db.taskExecutions) (htask : e.taskId = e'.taskId)
    (hact : isActive e.status = true) (hact' : isActive e'.status = true) : e = e' := by
  obtain ⟨t, ht, htid, -⟩ := hcons.taskOfExecution e he
  have hk := ((hcons.active t ht e he htid.symm).mp hact).2
  have hk' := ((hcons.active t ht e' he' (by rw [htid, htask])).mp hact').2
  exact hcons.unique e he e' he' htask (hk.trans hk'.symm)

/-- A failed compensation appends the wake-up of its next attempt, or locks the execution. -/
theorem handleCompensationFailure_woken (hcons : Consistent registry db) {settings : RuntimeSettings}
    {newEventId : EventId} {clock : Clock} {s : Snapshot} {eventId : Option EventId}
    {error : String} {attempt : Nat} {o : ExecuteOutcome} (hs : Coherent db s)
    (h : handleCompensationFailure settings newEventId clock s eventId error attempt db =
      .ok (o, db')) (hq : q ∈ db.plans) (hid : q.planId = s.planId) (hunlocked : Unlocked db' q) :
    Woken registry db db' q := by
  obtain ⟨p, t, e, hlock, -, h⟩ := handleCompensationFailure_cases h
  obtain ⟨hp, ht, he, hcur, -, hst, -, hop⟩ := lockCompensationToken_eq_ok.mp hlock
  obtain ⟨hpm, hpid⟩ := Table.get?_eq_some.mp hp
  obtain rfl : p = q := Table.eq_of_key hpm hq (hpid.trans hid.symm)
  obtain ⟨hem, heid⟩ := Table.get?_eq_some.mp he
  have htask := hs.taskId_eq ht he
  rcases h with ⟨-, -, h⟩ | ⟨-, -, mid, hmid, h⟩
  · have hsaved : lockExhausted (clock.read 0) (recordCompensationError error e) ∈
        db'.taskExecutions := by
      rw [(recordInboxOnce_inboxOnly h).taskExecutions]
      have hkey : (lockExhausted (clock.read 0) (recordCompensationError error e)).executionId =
        e.executionId := rfl
      exact (Table.mem_save_of_mem hem hkey).mpr (.inl rfl)
    exact absurd rfl (hunlocked _ hsaved (hcur.trans (congrArg some htask.symm)))
  · obtain ⟨outbox, hout, rfl⟩ := Db.addOutbox_eq_ok.mp hmid
    have hkept := recordInboxOnce_inboxOnly h
    -- the execution of the snapshot is the only active one of the current task
    have hexecs : ∀ x ∈ db'.taskExecutions, p.currentTaskId = some x.taskId →
        isActive x.status = true → x = recordCompensationError error e := by
      intro x hx hxcur hact
      rw [hkept.taskExecutions] at hx
      have hkey : (recordCompensationError error e).executionId = e.executionId := rfl
      rcases (Table.mem_save_of_mem hem hkey).mp hx with hx | ⟨hx, hne⟩
      · exact hx
      · have hsame : x.taskId = e.taskId := by
          rw [htask]
          exact Option.some.inj (hxcur.symm.trans hcur)
        exact absurd (active_unique hcons hx hem hsame hact (by rw [hst]; rfl)) hne
    refine ⟨compensationWakeup settings newEventId (clock.read 0) s attempt p, ?_,
      fun x hx => Table.key_not_mem_of_insert hout hx,
      ⟨p.planId, some newEventId, some s.executionId, some s.operationId⟩, rfl, rfl, ?_, ?_, ?_⟩
    · rw [hkept.outbox]
      exact (Table.mem_insert hout).mpr (.inr rfl)
    · intro hnone
      rw [hcur] at hnone
      cases hnone
    · intro x hx hxcur hxst
      have hxe := hexecs x hx hxcur (by rw [hxst]; rfl)
      rw [hxe, show (recordCompensationError error e).status = e.status from rfl, hst] at hxst
      cases hxst
    · intro x hx hxcur hxst s' hs' hop'
      obtain rfl := hexecs x hx hxcur (by rw [hxst]; rfl)
      have hsid : s'.executionId = s.executionId := hs'.trans heid
      have hsop : s'.operationId = s.operationId := hop'.trans hop
      simp [ExecuteNextInput.Mismatches, hsid, hsop]

/-- A completed compensation releases its plan. -/
theorem completeCompensation_plan {settings : RuntimeSettings} {newEventId : EventId}
    {clock : Clock} {s : Snapshot} {eventId : Option EventId} {o : ExecuteOutcome}
    (h : completeCompensation settings newEventId clock s eventId db = .ok (o, db'))
    (hq : q ∈ db.plans) (hid : q.planId = s.planId) : q ∉ db'.plans := by
  intro hq'
  obtain ⟨p, t, e, mid, hlock, hinbox, h⟩ := completeCompensation_cases h
  obtain ⟨hp, -, -, hcur, -⟩ := lockCompensationToken_eq_ok.mp hlock
  obtain ⟨hpm, hpid⟩ := Table.get?_eq_some.mp hp
  obtain rfl : p = q := Table.eq_of_key hpm hq (hpid.trans hid.symm)
  have hreleased : ∀ p', p'.planId = p.planId → p'.currentTaskId = none →
      p ∈ db.plans.save p' → False := by
    intro p' hkey hnone hin
    rcases Table.mem_save.mp hin with ⟨rfl, -⟩ | ⟨-, hne⟩
    · rw [hcur] at hnone
      cases hnone
    · exact hne hkey.symm
  rw [(recordInbox_inboxOnly hinbox).plans] at hq'
  rcases h with ⟨-, -, -, h⟩ | ⟨-, -, h⟩
  · obtain ⟨_, -, rfl⟩ := Db.addOutbox_eq_ok.mp h
    exact hreleased (releasePlan p) rfl rfl hq'
  · obtain ⟨_, -, rfl⟩ := Db.addOutbox_eq_ok.mp h
    exact hreleased (requestReplan e.errorCode e.errorMessage p) rfl rfl hq'

end Recording

/-! ## The invariant -/

/-- The event of a transaction is a wake-up of its plan, and a claim is made once its event is
available. -/
def Punctual (db : Db) : RuntimeAction → Prop
  | .claim _ clock _ input => input.eventId = none ∨
      ∃ ev ∈ db.outbox, delivery ev = some input ∧ ev.availableAt ≤ clock.read 0
  | .handleCompensationFailure _ _ s eventId _ _ | .completeCompensation _ _ s eventId =>
      ∀ i ∈ eventId, ∃ ev ∈ db.outbox, ev.eventId = i ∧
        ∃ input, delivery ev = some input ∧ input.planId = s.planId
  | _ => True

/-- Every live plan that is not locked is awake, and only events of the outbox are recorded. -/
structure Wakeful (registry : CapabilityRegistry) (db : Db) : Prop where
  awake : ∀ p ∈ db.plans, Live p → Unlocked db p → Awake registry db p
  known : ∀ i, Recorded db i → ∃ ev ∈ db.outbox, ev.eventId = i

section Transactions

variable {config : RuntimeConfig} {db db' : Db} {a : RuntimeAction}

/-- The event that a transaction records. -/
theorem Punctual.recorded (hok : Punctual db a) {i : EventId}
    (hrec : a.record = some ⟨consumerName, i⟩) :
    ∃ ev ∈ db.outbox, ev.eventId = i ∧ ∃ input, delivery ev = some input ∧
      ((∃ ids clock seen, a = .claim ids clock seen input ∧ ev.availableAt ≤ clock.read 0) ∨
      (∃ newEventId clock s eventId error attempt, input.planId = s.planId ∧
        a = .handleCompensationFailure newEventId clock s eventId error attempt) ∨
      ∃ newEventId clock s eventId, input.planId = s.planId ∧
        a = .completeCompensation newEventId clock s eventId) := by
  cases a with
  | claim ids clock seen input =>
    obtain ⟨j, hj, hrow⟩ := Option.map_eq_some_iff.mp hrec
    obtain rfl := congrArg InboxEvent.eventId hrow
    rcases hok with hnone | ⟨ev, hev, hdel, havail⟩
    · rw [hnone] at hj
      cases hj
    · have hid := (delivery_eq_some.mp hdel).2.2.1
      refine ⟨ev, hev, Option.some.inj (hid.symm.trans hj), input, hdel, ?_⟩
      exact .inl ⟨ids, clock, seen, rfl, havail⟩
  | handleCompensationFailure newEventId clock s eventId error attempt =>
    obtain ⟨j, hj, hrow⟩ := Option.map_eq_some_iff.mp hrec
    obtain rfl := congrArg InboxEvent.eventId hrow
    obtain ⟨ev, hev, hid, input, hdel, hplan⟩ := hok j hj
    exact ⟨ev, hev, hid, input, hdel,
      .inr (.inl ⟨newEventId, clock, s, eventId, error, attempt, hplan, rfl⟩)⟩
  | completeCompensation newEventId clock s eventId =>
    obtain ⟨j, hj, hrow⟩ := Option.map_eq_some_iff.mp hrec
    obtain rfl := congrArg InboxEvent.eventId hrow
    obtain ⟨ev, hev, hid, input, hdel, hplan⟩ := hok j hj
    exact ⟨ev, hev, hid, input, hdel, .inr (.inr ⟨newEventId, clock, s, eventId, hplan, rfl⟩)⟩
  | prepareRevision newPlanId clock seen eventId =>
    have hname : Planning.replanConsumerName = consumerName :=
      congrArg InboxEvent.consumerName (Option.some.inj hrec)
    exact absurd hname (by decide)
  | createPlan | createTask | finalizePlan | complete | fail | requireCompensation
  | beginCompensation => cases hrec

/-- A transaction that records a driving wake-up wakes the plan. -/
theorem recorded_woken (hcons : Consistent config.registry db) (hgraph : TaskGraph db)
    (hcoherent : ∀ x, a.snapshot? = some x → Coherent db x) (hok : Punctual db a)
    {x : Option Snapshot} (h : a.transaction config db = .ok (x, db')) {q : Plan}
    {ev : OutboxEvent} {input : ExecuteNextInput} (hdrives : Drives config.registry db q ev input)
    (hev : ev ∈ db.outbox) (hq : q ∈ db.plans) (hq' : q ∈ db'.plans) (hlive : Live q)
    (hunlocked : Unlocked db q) (hunlocked' : Unlocked db' q) (hnew : ¬ Recorded db ev.eventId)
    (hrecorded : Recorded db' ev.eventId) : Woken config.registry db db' q := by
  rcases (transaction_records h).only _ hrecorded with hold | hrec
  · exact absurd hold hnew
  · obtain ⟨ev', hev', hid, input', hdel, hcase⟩ := hok.recorded hrec
    obtain rfl : ev' = ev := Table.eq_of_key hev' hev hid
    obtain rfl : input' = input := Option.some.inj (hdel.symm.trans hdrives.delivered)
    rcases hcase with ⟨ids, clock, seen, rfl, havail⟩ |
      ⟨newEventId, clock, s, eventId, error, attempt, hplan, rfl⟩ |
      ⟨newEventId, clock, s, eventId, hplan, rfl⟩
    · simp only [RuntimeAction.transaction, bind_eq_ok, Prod.exists, pure_eq_ok,
        Prod.mk.injEq] at h
      obtain ⟨r, _, hx, -, rfl⟩ := h
      rcases claimNext_cases hx with ⟨-, -, rfl⟩ | ⟨-, hstep⟩
      · exact absurd hrecorded hnew
      · exact absurd hrecorded (hstep.not_recorded hcons hgraph hdrives havail hq hq' hlive hunlocked
          hnew)
    · simp only [RuntimeAction.transaction, bind_eq_ok, Prod.exists, pure_eq_ok,
        Prod.mk.injEq] at h
      obtain ⟨o, _, hx, -, rfl⟩ := h
      exact handleCompensationFailure_woken hcons (hcoherent s rfl) hx hq
        (hdrives.planId.symm.trans hplan) hunlocked'
    · simp only [RuntimeAction.transaction, bind_eq_ok, Prod.exists, pure_eq_ok,
        Prod.mk.injEq] at h
      obtain ⟨o, _, hx, -, rfl⟩ := h
      exact absurd hq' (completeCompensation_plan hx hq (hdrives.planId.symm.trans hplan))

/-- **The step.** -/
theorem transaction_awake (hcons : Consistent config.registry db) (hgraph : TaskGraph db)
    (hcoherent : ∀ x, a.snapshot? = some x → Coherent db x) (hok : Punctual db a)
    {x : Option Snapshot} (h : a.transaction config db = .ok (x, db'))
    (hwake : Wakeful config.registry db) : Wakeful config.registry db' := by
  have heffs := transaction_effects hcoherent h
  have hknown : ∀ i, Recorded db' i → ∃ ev ∈ db.outbox, ev.eventId = i := by
    intro i hi
    rcases (transaction_records h).only _ hi with hold | hrec
    · exact hwake.known i hold
    · obtain ⟨ev, hev, hid, -⟩ := hok.recorded hrec
      exact ⟨ev, hev, hid⟩
  have hwoken : ∀ {q}, Woken config.registry db db' q → Awake config.registry db' q := by
    rintro q ⟨ev, hev, hnew, hdrives⟩
    refine ⟨ev, hev, fun hrecorded => ?_, hdrives⟩
    obtain ⟨y, hy, hid⟩ := hknown _ hrecorded
    exact hnew y hy hid
  refine ⟨fun q hq hlive hunlocked => ?_, fun i hi => ?_⟩
  · rcases heffs.carries hcons hgraph hq hlive with hwoke | ⟨hq₀, hkept⟩
    · exact hwoken hwoke
    · have hunlocked₀ := hunlocked.back hkept
      obtain ⟨ev, hev, hnew, input, hdrives⟩ := hwake.awake q hq₀ hlive hunlocked₀
      by_cases hrecorded : Recorded db' ev.eventId
      · exact hwoken (recorded_woken hcons hgraph hcoherent hok h hdrives hev hq₀ hq hlive
          hunlocked₀ hunlocked hnew hrecorded)
      · exact ⟨ev, heffs.outbox_kept ev hev, hrecorded, input, hdrives.kept hkept⟩
  · obtain ⟨ev, hev, hid⟩ := hknown i hi
    exact ⟨ev, heffs.outbox_kept ev hev, hid⟩

end Transactions

theorem RuntimeState.Fresh.wakeful {registry : CapabilityRegistry} {st : RuntimeState}
    (h : st.Fresh) : Wakeful registry st.db := by
  obtain ⟨hp, -, -, -, -, hi, -⟩ := h
  exact ⟨by simp [Table.mem_iff, hp], by simp [Recorded, Table.mem_iff, hi]⟩

end DocFlow.TaskRuntime
