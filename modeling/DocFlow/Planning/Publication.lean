import DocFlow.Lib.Links
import DocFlow.Lib.Machine
import DocFlow.Planning.Dag
import DocFlow.Planning.Marks

/-!
# Publishing a plan

The commands of a planner on one plan, in any order and with any arguments.  `PlannerState` keeps
beside the database which task commands have been accepted, and how many publications.

While the plan is planned its tasks are the drafts of these commands (`Drafting`).  `finalizePlan`
turns them into a well-formed plan (`WellPublished`), which no later command touches.
-/

namespace DocFlow.Planning

/-- An accepted command for a task, with the identifier drawn for it. -/
structure Draft where
  taskId : TaskId
  capabilityCode : PlanningCapabilityCode
  command : CreateDocumentTaskInput

structure PlannerState where
  db : Db
  /-- the accepted task commands, in their order -/
  drafts : List Draft
  /-- how many publications have been accepted -/
  publications : Nat

inductive PlannerCommand
  | createTask (capabilityCode : PlanningCapabilityCode) (newTaskId : TaskId)
      (command : CreateDocumentTaskInput)
  | finalize (newDependencyId : Nat → DependencyId) (newEventId : EventId) (now : Time)
      (command : FinalizePlanInput)
  | markUnsupported (planId : PlanId) (reason : BoundedText)
  | markRetryPending (newEventId : EventId) (resolvedAt availableAt : Time) (planId : PlanId)
      (reason : BoundedText)
  | markNeedsClarification (newClarificationId : ClarificationId)
      (command : MarkPlanNeedsClarificationInput)

namespace PlannerCommand

def planId : PlannerCommand → PlanId
  | createTask _ _ command => command.planId
  | finalize _ _ _ command => command.planId
  | markUnsupported planId _ => planId
  | markRetryPending _ _ _ planId _ => planId
  | markNeedsClarification _ command => command.planId

def execute (db : Db) : PlannerCommand → Except Failure Db
  | createTask capabilityCode newTaskId command =>
    createDocumentTask capabilityCode newTaskId command db
  | finalize newDependencyId newEventId now command =>
    finalizePlan newDependencyId newEventId now command db
  | markUnsupported planId reason => markPlanUnsupported planId reason db
  | markRetryPending newEventId resolvedAt availableAt planId reason =>
    markPlanRetryPending newEventId resolvedAt availableAt planId reason db
  | markNeedsClarification newClarificationId command =>
    markPlanNeedsClarification newClarificationId command db

/-- The draft that the command makes. -/
def draft : PlannerCommand → Option Draft
  | createTask capabilityCode newTaskId command => some ⟨newTaskId, capabilityCode, command⟩
  | _ => none

def isPublication : PlannerCommand → Bool
  | finalize .. => true
  | _ => false

end PlannerCommand

namespace PlannerState

/-- A command has been accepted. -/
def accept (s : PlannerState) (command : PlannerCommand) (db : Db) : PlannerState :=
  { db := db
    drafts := s.drafts ++ command.draft.toList
    publications := s.publications + command.isPublication.toNat }

/-- The transaction of a rejected command is rolled back. -/
def perform (s : PlannerState) (command : PlannerCommand) : PlannerState :=
  match command.execute s.db with
  | .error _ => s
  | .ok db => s.accept command db

def step (planId : PlanId) (s : PlannerState) (command : PlannerCommand) : Option PlannerState :=
  if command.planId = planId then some (s.perform command) else none

end PlannerState

/-! ## Well-formed plans -/

/-- The edges of a plan, as pairs of task identifiers. -/
def edgesOf (db : Db) (planId : PlanId) : List (TaskId × TaskId) :=
  (db.taskDependencies.rows.filter fun d => d.planId = planId).map TaskDependency.edge

def wakeupsOf (db : Db) (planId : PlanId) : List OutboxEvent :=
  db.outbox.rows.filter fun e => e.eventType = .planWakeup ∧ e.aggregateId = planId

/-- The rows of the tasks of a plan. -/
def tasksOf (db : Db) (planId : PlanId) : List Task :=
  db.tasks.rows.filter fun t => t.planId = planId

/-- The first task has been declared to depend on the second. -/
def Declared (drafts : List Draft) (i j : TaskId) : Prop :=
  ∃ d ∈ drafts, ∃ e ∈ drafts, e.command.taskRef ∈ d.command.dependsOnTaskRefs ∧
    d.taskId = i ∧ e.taskId = j

/-- The task that a draft makes in its plan. -/
def draftTask (planId : PlanId) (turnId : TurnId) (d : Draft) : Task where
  taskId := d.taskId
  planId := planId
  turnId := turnId
  taskRef := d.command.taskRef
  capabilityCode := d.capabilityCode
  inputJson :=
    { documentId := d.command.documentId
      dependsOnTaskRefs := some d.command.dependsOnTaskRefs.eraseDups }
  sequence := d.command.sequence
  status := .draft
  attemptCount := 0
  maxAttempts := 3
  outputJson := none
  lastErrorCode := none
  lastErrorMessage := none
  startedAt := none
  completedAt := none

/-- A draft as publication leaves it. -/
def pendingTask (task : Task) : Task :=
  { task with status := .pending, inputJson := { task.inputJson with dependsOnTaskRefs := none } }

/-- **What a published plan looks like.**  Its tasks are the drafts, in the order of their
sequences. -/
structure WellPublished (s : PlannerState) (p : Plan) : Prop where
  tasks : (s.db.listByPlanId p.planId).Perm
    (s.drafts.map fun d => pendingTask (draftTask p.planId p.turnId d))
  count : 1 ≤ (s.db.listByPlanId p.planId).length ∧
    (s.db.listByPlanId p.planId).length ≤ maxTasksPerPlan
  sequences : (s.db.listByPlanId p.planId).map Task.sequence =
    List.range' 1 (s.db.listByPlanId p.planId).length
  taskRefs : ((s.db.listByPlanId p.planId).map Task.taskRef).Nodup
  resolved : ∀ d ∈ s.drafts, ∀ r ∈ d.command.dependsOnTaskRefs, ∃ e ∈ s.drafts,
    e.command.taskRef = r
  edges : ∀ i j, (i, j) ∈ edgesOf s.db p.planId ↔ Declared s.drafts i j
  edges_nodup : (edgesOf s.db p.planId).Nodup
  acyclic : Acyclic fun i j => (i, j) ∈ edgesOf s.db p.planId
  depth : ∀ path : List TaskId, path.IsChain (fun i j => (i, j) ∈ edgesOf s.db p.planId) →
    (∀ i ∈ path, ∃ t ∈ s.db.listByPlanId p.planId, t.taskId = i) → path.length ≤ maxPlanDagDepth
  pending : ∀ t ∈ s.db.listByPlanId p.planId, t.status = .pending
  inputs : ∀ t ∈ s.db.listByPlanId p.planId, t.inputJson.dependsOnTaskRefs = none
  turn : ∃ turn, s.db.conversationTurns.get? p.turnId = some turn ∧
    turn.taskIds = (s.db.listByPlanId p.planId).map Task.taskId
  published : s.publications = 1
  wakeups : ∃ e, wakeupsOf s.db p.planId = [e] ∧ e.payload = .plan p.workflowId p.planId

/-- A plan under way: its tasks are the drafts, and nothing has been published. -/
structure Drafting (s : PlannerState) (p : Plan) : Prop where
  tasks : tasksOf s.db p.planId = s.drafts.map (draftTask p.planId p.turnId)
  edges : edgesOf s.db p.planId = []
  wakeups : wakeupsOf s.db p.planId = []
  published : s.publications = 0

/-- The plan at any time.  Once it is neither planned nor ready it stays so. -/
structure Planned (planId : PlanId) (s : PlannerState) : Prop where
  edges_nodup : (s.db.taskDependencies.rows.map TaskDependency.edge).Nodup
  plan : ∃ p, s.db.plans.get? planId = some p
  drafting : ∀ p, s.db.plans.get? planId = some p → p.status = .planning → Drafting s p
  published : ∀ p, s.db.plans.get? planId = some p → p.status = .ready → WellPublished s p

namespace PlannerState

/-- A new plan, without tasks. -/
structure Fresh (planId : PlanId) (s : PlannerState) : Prop where
  edges_nodup : (s.db.taskDependencies.rows.map TaskDependency.edge).Nodup
  plan : ∃ p, s.db.plans.get? planId = some p ∧ p.status = .planning
  tasks : ∀ t ∈ s.db.tasks, t.planId ≠ planId
  edges : ∀ d ∈ s.db.taskDependencies, d.planId ≠ planId
  wakeups : ∀ e ∈ s.db.outbox, e.eventType = .planWakeup → e.aggregateId ≠ planId
  drafts : s.drafts = []
  published : s.publications = 0

def machine (planId : PlanId) : Machine PlannerState PlannerCommand :=
  ⟨Fresh planId, step planId⟩

end PlannerState

/-! ## What an accepted command does -/

section Commands

variable {db db' : Db}

theorem createDocumentTask_eq_ok {capabilityCode : PlanningCapabilityCode} {newTaskId : TaskId}
    {command : CreateDocumentTaskInput}
    (h : createDocumentTask capabilityCode newTaskId command db = .ok db') :
    ∃ p tasks, db.plans.get? command.planId = some p ∧ p.status = .planning ∧
      db.tasks.insert (draftTask p.planId p.turnId ⟨newTaskId, capabilityCode, command⟩) =
        some tasks ∧ db' = db.setTasks tasks := by
  simp only [createDocumentTask, bind_eq_ok, orRaise_eq_ok, requirePlanning, ensure_eq_ok] at h
  obtain ⟨p, hp, -, hst, -, -, -, -, -, -, -, -, -, -, h⟩ := h
  rw [asSequenceConflict_eq_ok, Db.createTask] at h
  split at h
  · cases h
  · simp only [bind_eq_ok, orRaise_eq_ok, pure_eq_ok] at h
    obtain ⟨tasks, htasks, rfl⟩ := h
    exact ⟨p, tasks, hp, hst, htasks, rfl⟩

/-- The rows of an accepted publication. -/
structure Publication (db db' : Db) (planId : PlanId) (drafts : List Task)
    (pairs : List (TaskId × TaskId)) (p : Plan) : Prop where
  plan : db.plans.get? planId = some p
  planning : p.status = .planning
  drafts_eq : drafts = db.listByPlanIdAndStatus p.planId .draft
  count : drafts ≠ [] ∧ drafts.length ≤ maxTasksPerPlan
  sequences : drafts.map Task.sequence = List.range' 1 drafts.length
  dag : validateDag drafts = .ok pairs
  plans : db'.plans = db.plans.save (publishPlan p)
  tasks : db'.tasks.rows = db.tasks.rows.map (publishTask (drafts.map Task.taskId))
  edges : (edgesOf db' p.planId) = edgesOf db p.planId ++ pairs
  edges_nodup : (db.taskDependencies.rows.map TaskDependency.edge).Nodup →
    (db'.taskDependencies.rows.map TaskDependency.edge).Nodup
  turn : ∃ turn, db'.conversationTurns.get? p.turnId = some turn ∧
    turn.taskIds = drafts.map Task.taskId
  wakeups : ∃ e, wakeupsOf db' p.planId = wakeupsOf db p.planId ++ [e] ∧
    e.payload = .plan p.workflowId p.planId

theorem edges_dependencyRows (planId : PlanId) (newDependencyId : Nat → DependencyId)
    (pairs : List (TaskId × TaskId)) :
    ((dependencyRows planId newDependencyId pairs).filter fun d => d.planId = planId).map
      TaskDependency.edge = pairs := by
  have hall : (dependencyRows planId newDependencyId pairs).filter (fun d => d.planId = planId) =
      dependencyRows planId newDependencyId pairs := by
    refine List.filter_eq_self.mpr ?_
    intro d hd
    obtain ⟨⟨pair, i⟩, -, rfl⟩ := List.mem_map.mp hd
    exact decide_eq_true rfl
  rw [hall, dependencyRows, List.map_map]
  exact List.zipIdx_map_fst ..

theorem finalizePlan_eq_ok {newDependencyId : Nat → DependencyId} {newEventId : EventId}
    {now : Time} {command : FinalizePlanInput}
    (h : finalizePlan newDependencyId newEventId now command db = .ok db') :
    ∃ drafts pairs p, Publication db db' command.planId drafts pairs p := by
  simp only [finalizePlan, bind_eq_ok, orRaise_eq_ok, requirePlanning, ensure_eq_ok] at h
  obtain ⟨p, hp, -, hst, -, -, -, hne, -, hmax, -, hseq, pairs, hdag, turn, hturn, -, -, mid, hdeps,
    h⟩ := h
  obtain ⟨table, rfl, hrows, hnodup⟩ := Db.addDependencies_eq_ok hdeps
  obtain ⟨outbox, hout, rfl⟩ := Db.addOutbox_eq_ok.mp h
  obtain ⟨hturnm, hturnId⟩ := Table.get?_eq_some.mp hturn
  refine ⟨_, pairs, p, hp, hst, rfl, ⟨hne, hmax⟩, hseq, hdag, rfl, rfl, ?_, hnodup, ?_, ?_⟩
  · show (table.rows.filter _).map _ = _
    rw [hrows, List.filter_append, List.map_append, edges_dependencyRows]
    rfl
  · refine ⟨{ turn with taskIds := _, status := .processing }, ?_, rfl⟩
    rw [← hturnId]
    exact Table.get?_save_self hturnm (by rfl)
  · refine ⟨firstWakeup newEventId now p, ?_, rfl⟩
    have hkept : [firstWakeup newEventId now p].filter
        (fun e => e.eventType = .planWakeup ∧ e.aggregateId = p.planId) =
          [firstWakeup newEventId now p] := by simp [firstWakeup]
    show outbox.rows.filter _ = _
    rw [Table.rows_insert hout, List.filter_append, hkept]
    rfl

/-- A mark takes the plan out of planning for good. -/
structure Marked (db db' : Db) (planId : PlanId) : Prop where
  plan : ∃ p status reason code, db.plans.get? planId = some p ∧ status ≠ .planning ∧
    status ≠ .ready ∧ db'.plans = db.plans.save (setPlanStatus status reason code p)
  edges : db'.taskDependencies = db.taskDependencies

theorem markPlanUnsupported_marked {planId : PlanId} {reason : BoundedText}
    (h : markPlanUnsupported planId reason db = .ok db') : Marked db db' planId := by
  obtain ⟨-, p, hp, -, rfl⟩ := markPlanUnsupported_eq_ok.mp h
  exact ⟨⟨p, .unsupported, _, _, hp, by decide, by decide, rfl⟩, rfl⟩

theorem markPlanRetryPending_marked {newEventId : EventId} {resolvedAt availableAt : Time}
    {planId : PlanId} {reason : BoundedText}
    (h : markPlanRetryPending newEventId resolvedAt availableAt planId reason db = .ok db') :
    Marked db db' planId := by
  obtain ⟨-, p, turn, outbox, hp, -, -, -, rfl⟩ := markPlanRetryPending_eq_ok.mp h
  exact ⟨⟨p, .retryPending, _, _, hp, by decide, by decide, rfl⟩, rfl⟩

theorem markPlanNeedsClarification_marked {newClarificationId : ClarificationId}
    {command : MarkPlanNeedsClarificationInput}
    (h : markPlanNeedsClarification newClarificationId command db = .ok db') :
    Marked db db' command.planId := by
  obtain ⟨p, turn, table, hp, -, -, -, -, -, -, rfl⟩ := markPlanNeedsClarification_eq_ok h
  exact ⟨⟨p, .needsClarification, _, _, hp, by decide, by decide, rfl⟩, rfl⟩

end Commands

/-! ## The steps -/

section Steps

variable {planId : PlanId} {s : PlannerState} {db' : Db}

theorem Planned.marked (hP : Planned planId s) (hm : Marked s.db db' planId) {drafts : List Draft}
    {publications : Nat} : Planned planId ⟨db', drafts, publications⟩ := by
  obtain ⟨p, status, reason, code, hp, hplanning, hready, hplans⟩ := hm.plan
  obtain ⟨hmem, rfl⟩ := Table.get?_eq_some.mp hp
  have hget : db'.plans.get? p.planId = some (setPlanStatus status reason code p) := by
    rw [hplans]
    exact Table.get?_save_self (r := setPlanStatus status reason code p) hmem rfl
  refine ⟨?_, ⟨_, hget⟩, ?_, ?_⟩
  · show (db'.taskDependencies.rows.map TaskDependency.edge).Nodup
    rw [hm.edges]
    exact hP.edges_nodup
  · intro q hq hst
    obtain rfl := Option.some.inj (hget.symm.trans hq)
    exact absurd hst hplanning
  · intro q hq hst
    obtain rfl := Option.some.inj (hget.symm.trans hq)
    exact absurd hst hready

theorem Planned.created (hP : Planned planId s) {d : Draft} {p : Plan} {tasks : Table Task.taskId}
    (hp : s.db.plans.get? planId = some p) (hst : p.status = .planning)
    (htasks : s.db.tasks.insert (draftTask p.planId p.turnId d) = some tasks) :
    Planned planId ⟨s.db.setTasks tasks, s.drafts ++ [d], s.publications⟩ := by
  have hD := hP.drafting p hp hst
  refine ⟨hP.edges_nodup, hP.plan, ?_, ?_⟩
  · intro q hq _
    obtain rfl := Option.some.inj (hp.symm.trans hq)
    refine ⟨?_, hD.edges, hD.wakeups, hD.published⟩
    have hnew : [draftTask p.planId p.turnId d].filter (fun t => t.planId = p.planId) =
        [draftTask p.planId p.turnId d] := by simp [draftTask]
    show tasks.rows.filter _ = _
    rw [Table.rows_insert htasks, List.filter_append, hnew, List.map_append]
    exact congrArg (· ++ [draftTask p.planId p.turnId d]) hD.tasks
  · intro q hq hready
    obtain rfl := Option.some.inj (hp.symm.trans hq)
    rw [hst] at hready
    cases hready

/-! ### Publication -/

section Publish

variable {drafts : List Task} {pairs : List (TaskId × TaskId)} {p : Plan}

theorem Drafting.draft (hD : Drafting s p) {t : Task} (ht : t ∈ tasksOf s.db p.planId) :
    ∃ d ∈ s.drafts, t = draftTask p.planId p.turnId d := by
  rw [hD.tasks] at ht
  obtain ⟨d, hd, rfl⟩ := List.mem_map.mp ht
  exact ⟨d, hd, rfl⟩

/-- All tasks of the plan are listed as drafts. -/
theorem Drafting.list (hD : Drafting s p) : s.db.listByPlanIdAndStatus p.planId .draft =
    (tasksOf s.db p.planId).insertionSort Db.TaskOrder := by
  rw [Db.listByPlanIdAndStatus, tasksOf]
  congr 1
  refine List.filter_congr ?_
  intro t ht
  by_cases hid : t.planId = p.planId
  · obtain ⟨d, -, hd⟩ := hD.draft (List.mem_filter.mpr ⟨ht, decide_eq_true hid⟩)
    have hst : t.status = .draft := by
      rw [hd]
      rfl
    simp [hid, hst]
  · simp [hid]

theorem Publication.mem (hpub : Publication s.db db' planId drafts pairs p) (hD : Drafting s p)
    {t : Task} : t ∈ drafts ↔ ∃ d ∈ s.drafts, draftTask p.planId p.turnId d = t := by
  rw [hpub.drafts_eq, hD.list, List.mem_insertionSort, hD.tasks, List.mem_map]

/-- The tasks of the published plan. -/
theorem Publication.list (hpub : Publication s.db db' planId drafts pairs p) (hD : Drafting s p) :
    db'.listByPlanId p.planId = drafts.map pendingTask := by
  rw [Db.listByPlanId, hpub.tasks, Db.filter_map_planId fun t _ => publishTask_planId _ t,
    Db.insertionSort_map (publishTask_sequence _) (publishTask_taskId _)]
  have hsorted : (s.db.tasks.rows.filter fun t => t.planId = p.planId).insertionSort Db.TaskOrder =
      drafts := by
    rw [hpub.drafts_eq, hD.list]
    rfl
  rw [hsorted]
  refine List.map_congr_left ?_
  intro t ht
  rw [publishTask, if_pos (List.mem_map_of_mem ht)]
  rfl

theorem Publication.ids (hpub : Publication s.db db' planId drafts pairs p) :
    (drafts.map Task.taskId).Nodup := by
  rw [hpub.drafts_eq, Db.listByPlanIdAndStatus]
  refine ((List.perm_insertionSort _ _).map _).nodup_iff.mpr ?_
  exact s.db.tasks.nodup.sublist (List.filter_sublist.map _)

theorem Publication.edgesOf_eq (hpub : Publication s.db db' planId drafts pairs p)
    (hD : Drafting s p) : edgesOf db' p.planId = pairs := by
  rw [hpub.edges, hD.edges, List.nil_append]

/-- The edges are the references that have been declared. -/
theorem Publication.declared (hpub : Publication s.db db' planId drafts pairs p)
    (hD : Drafting s p) (i j : TaskId) : (i, j) ∈ pairs ↔ Declared s.drafts i j := by
  rw [(validateDag_pairs hpub.dag).2.2]
  constructor
  · rintro ⟨t, ht, t', ht', hdeclared, hij⟩
    obtain ⟨d, hd, rfl⟩ := (hpub.mem hD).mp ht
    obtain ⟨e, he, rfl⟩ := (hpub.mem hD).mp ht'
    obtain ⟨hi, hj⟩ := Prod.mk.inj hij
    exact ⟨d, hd, e, he, List.mem_eraseDups.mp hdeclared, hi, hj⟩
  · rintro ⟨d, hd, e, he, hdeclared, rfl, rfl⟩
    exact ⟨_, (hpub.mem hD).mpr ⟨d, hd, rfl⟩, _, (hpub.mem hD).mpr ⟨e, he, rfl⟩,
      List.mem_eraseDups.mpr hdeclared, rfl⟩

/-- **An accepted publication** makes a well-formed plan. -/
theorem Publication.wellPublished (hpub : Publication s.db db' planId drafts pairs p)
    (hD : Drafting s p) (hnodup : (s.db.taskDependencies.rows.map TaskDependency.edge).Nodup) :
    WellPublished ⟨db', s.drafts, s.publications + 1⟩ (publishPlan p) := by
  have hlist : db'.listByPlanId p.planId = drafts.map pendingTask := hpub.list hD
  have hedges := hpub.edgesOf_eq hD
  obtain ⟨hrefs, hresolved, -⟩ := validateDag_pairs hpub.dag
  obtain ⟨rank, hrank, hbounds⟩ := validateDag_layered hpub.dag hpub.ids
  have hlower : ∀ i j, (i, j) ∈ edgesOf db' p.planId → rank j < rank i := by
    intro i j hij
    rw [hedges] at hij
    exact hrank (i, j) hij
  obtain ⟨e, hwakeups, hpayload⟩ := hpub.wakeups
  rw [hD.wakeups] at hwakeups
  constructor
  case tasks =>
    show (db'.listByPlanId p.planId).Perm _
    rw [hlist, hpub.drafts_eq, hD.list]
    refine ((List.perm_insertionSort _ _).map _).trans ?_
    rw [hD.tasks, List.map_map]
    exact List.Perm.refl _
  case count =>
    show 1 ≤ (db'.listByPlanId p.planId).length ∧ (db'.listByPlanId p.planId).length ≤ _
    rw [hlist, List.length_map]
    exact ⟨List.length_pos_of_ne_nil hpub.count.1, hpub.count.2⟩
  case sequences =>
    show (db'.listByPlanId p.planId).map _ = List.range' 1 (db'.listByPlanId p.planId).length
    rw [hlist, List.map_map, List.length_map]
    exact hpub.sequences
  case taskRefs =>
    show ((db'.listByPlanId p.planId).map _).Nodup
    rw [hlist, List.map_map]
    exact hrefs
  case resolved =>
    intro d hd r hr
    obtain ⟨t, ht, htr⟩ := hresolved _ ((hpub.mem hD).mpr ⟨d, hd, rfl⟩) r (List.mem_eraseDups.mpr hr)
    obtain ⟨e, he, rfl⟩ := (hpub.mem hD).mp ht
    exact ⟨e, he, htr⟩
  case edges =>
    intro i j
    show (i, j) ∈ edgesOf db' p.planId ↔ _
    rw [hedges]
    exact hpub.declared hD i j
  case edges_nodup => exact (hpub.edges_nodup hnodup).sublist (List.filter_sublist.map _)
  case acyclic => exact Acyclic.of_rank hlower
  case depth =>
    intro path hpath htasks
    have htask : ∀ i ∈ path, 1 ≤ rank i ∧ rank i ≤ maxPlanDagDepth := by
      intro i hi
      obtain ⟨t, ht, hid⟩ := htasks i hi
      rw [show (publishPlan p).planId = p.planId from rfl, hlist] at ht
      obtain ⟨x, hx, rfl⟩ := List.mem_map.mp ht
      rw [← hid]
      exact hbounds x hx
    exact length_le_of_rank hlower hpath (fun i hi => (htask i hi).1) fun i hi => (htask i hi).2
  case pending =>
    intro t ht
    rw [show (publishPlan p).planId = p.planId from rfl, hlist] at ht
    obtain ⟨x, -, rfl⟩ := List.mem_map.mp ht
    rfl
  case inputs =>
    intro t ht
    rw [show (publishPlan p).planId = p.planId from rfl, hlist] at ht
    obtain ⟨x, -, rfl⟩ := List.mem_map.mp ht
    rfl
  case turn =>
    obtain ⟨turn, hturn, hids⟩ := hpub.turn
    refine ⟨turn, hturn, ?_⟩
    show _ = (db'.listByPlanId p.planId).map _
    rw [hids, hlist, List.map_map]
    rfl
  case published =>
    show s.publications + 1 = 1
    rw [hD.published]
  case wakeups => exact ⟨e, hwakeups, hpayload⟩

end Publish

theorem Planned.finalized (hP : Planned planId s) {drafts : List Task}
    {pairs : List (TaskId × TaskId)} {p : Plan}
    (hpub : Publication s.db db' planId drafts pairs p) :
    Planned planId ⟨db', s.drafts, s.publications + 1⟩ := by
  obtain ⟨hmem, rfl⟩ := Table.get?_eq_some.mp hpub.plan
  have hget : db'.plans.get? p.planId = some (publishPlan p) := by
    rw [hpub.plans]
    exact Table.get?_save_self (r := publishPlan p) hmem rfl
  refine ⟨hpub.edges_nodup hP.edges_nodup, ⟨_, hget⟩, ?_, ?_⟩
  · intro q hq hst
    obtain rfl := Option.some.inj (hget.symm.trans hq)
    cases hst
  · intro q hq _
    obtain rfl := Option.some.inj (hget.symm.trans hq)
    exact hpub.wellPublished (hP.drafting p hpub.plan hpub.planning) hP.edges_nodup

/-- **One command**, accepted or rejected. -/
theorem Planned.perform (hP : Planned planId s) {command : PlannerCommand}
    (hid : command.planId = planId) : Planned planId (s.perform command) := by
  unfold PlannerState.perform
  cases hrun : command.execute s.db with
  | error e => exact hP
  | ok db' =>
    subst hid
    cases command with
    | createTask capabilityCode newTaskId command =>
      obtain ⟨p, tasks, hp, hst, htasks, rfl⟩ := createDocumentTask_eq_ok hrun
      exact hP.created hp hst htasks
    | finalize newDependencyId newEventId now command =>
      obtain ⟨drafts, pairs, p, hpub⟩ := finalizePlan_eq_ok hrun
      have hfinal := hP.finalized hpub
      simpa [PlannerState.accept, PlannerCommand.draft, PlannerCommand.isPublication] using hfinal
    | markUnsupported planId reason => exact hP.marked (markPlanUnsupported_marked hrun)
    | markRetryPending newEventId resolvedAt availableAt planId reason =>
      exact hP.marked (markPlanRetryPending_marked hrun)
    | markNeedsClarification newClarificationId command =>
      exact hP.marked (markPlanNeedsClarification_marked hrun)

theorem Planned.of_fresh (h : PlannerState.Fresh planId s) : Planned planId s := by
  obtain ⟨p, hp, hst⟩ := h.plan
  obtain ⟨-, rfl⟩ := Table.get?_eq_some.mp hp
  refine ⟨h.edges_nodup, ⟨p, hp⟩, ?_, ?_⟩
  · intro q hq _
    obtain rfl := Option.some.inj (hp.symm.trans hq)
    refine ⟨?_, ?_, ?_, h.published⟩
    · rw [h.drafts, tasksOf, List.filter_eq_nil_iff.mpr fun t ht hid =>
        h.tasks t ht (of_decide_eq_true hid)]
      rfl
    · rw [edgesOf, List.filter_eq_nil_iff.mpr fun d hd hid =>
        h.edges d hd (of_decide_eq_true hid)]
      rfl
    · refine List.filter_eq_nil_iff.mpr ?_
      intro e he hboth
      obtain ⟨htype, hid⟩ := of_decide_eq_true hboth
      exact h.wakeups e he htype hid
  · intro q hq hready
    obtain rfl := Option.some.inj (hp.symm.trans hq)
    rw [hst] at hready
    cases hready

end Steps

/-! ## Runs -/

namespace PlannerState

theorem reachable_planned {planId : PlanId} {s : PlannerState}
    (hs : (machine planId).Reachable s) : Planned planId s := by
  refine Machine.ReachableVia.invariant (P := Planned planId) ?_ ?_ hs
  · intro s h
    exact Planned.of_fresh h
  · intro s command s' _ hP _ hstep
    obtain ⟨hid, hstep⟩ := Option.ite_none_right_eq_some.mp hstep
    obtain rfl := Option.some.inj hstep
    exact hP.perform hid

/-- **Planner commands publish only well-formed plans**, and a rejected command changes nothing. -/
theorem planner_commands (planId : PlanId) :
    (∀ s, (machine planId).Reachable s → ∀ p, s.db.plans.get? planId = some p →
      p.status = .ready → WellPublished s p) ∧
    ∀ s command e, command.planId = planId → command.execute s.db = .error e →
      step planId s command = some s := by
  constructor
  · intro s hs p hp hready
    exact (reachable_planned hs).published p hp hready
  · intro s command e hid he
    rw [step, if_pos hid, perform, he]

def newPlan : PlannerState where
  db :=
    { conversationTurns := .single ⟨1, 1, .contextReady, [], none, none, none, none, none⟩
      plans := .single (Db.draftPlan 1 1 1 none 1)
      tasks := .empty
      taskDependencies := .empty
      taskExecutions := .empty
      outbox := .empty
      inbox := .empty
      clarifications := .empty
      context := .empty }
  drafts := []
  publications := 0

/-- The second task comes first, and names the first before it is there. -/
def twoTasks : List PlannerCommand :=
  [.createTask .buildDocumentChunks 2 ⟨1, 1, 1, 2, "chunks", ["text"]⟩,
    .createTask .processDocument 1 ⟨1, 1, 1, 1, "text", []⟩, .finalize id 1 0 ⟨1, 1⟩]

example : ((machine 1).run newPlan twoTasks).map (fun s =>
    (edgesOf s.db 1, (s.db.listByPlanId 1).map Task.taskId, s.publications)) =
      some ([(2, 1)], [1, 2], 1) := by decide

def publishedPlan : PlannerState := ((machine 1).run newPlan twoTasks).getD newPlan

theorem planner_commands_publishedPlan :
    (∃ p, publishedPlan.db.plans.get? 1 = some p ∧ p.status = .ready ∧ WellPublished publishedPlan p) ∧
      step 1 publishedPlan (.finalize id 2 0 ⟨1, 1⟩) = some publishedPlan := by
  obtain ⟨hpublished, hrejected⟩ := planner_commands 1
  have hrun : (machine 1).run newPlan twoTasks = some publishedPlan := rfl
  have hfresh : Fresh 1 newPlan :=
    { edges_nodup := List.nodup_nil
      plan := ⟨_, rfl, rfl⟩
      tasks := fun t ht => by cases ht
      edges := fun d hd => by cases hd
      wakeups := fun e he => by cases he
      drafts := rfl
      published := rfl }
  have hreachable : (machine 1).Reachable publishedPlan := Machine.Reachable.run (.init hfresh) hrun
  exact ⟨⟨_, rfl, rfl, hpublished publishedPlan hreachable _ rfl rfl⟩, hrejected _ _ _ rfl rfl⟩

end PlannerState

end DocFlow.Planning
