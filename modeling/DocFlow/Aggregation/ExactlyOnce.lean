import DocFlow.Aggregation.AggregatePlan
import DocFlow.Context.Footprint
import DocFlow.Lib.Machine
import DocFlow.Lib.Tokens

/-!
# A completed plan is aggregated once

The executions of the handler of one `AGGREGATION_REQUESTED` event, any number of them at a time,
each of which may stop between two of its transactions; the other turns are completed meanwhile.

The status of the turn decides: until it is `COMPLETED` nothing has been written for the turn
(`Untouched`), and from then on the nodes and events of the turn are those of the one
completion that was committed (`CompletedOnce`), which every later execution reads back.
-/

namespace DocFlow.Aggregation

open Context

/-! ## The handler -/

/-- Where an execution of the handler stands; `ended` is an exception or a crash. -/
inductive HandlerPhase
  | arrived
  | checked
  | loaded (snapshot : AggregationSnapshot)
  | completed (result : CompleteTurnResult)
  | resolved (result : CompleteTurnResult)
  | returned (result : Option CompleteTurnResult)
  | ended
deriving DecidableEq, Repr

/-- The answer of `complete_turn` that an execution holds or has returned. -/
def HandlerPhase.report : HandlerPhase → Option CompleteTurnResult
  | .completed result | .resolved result => some result
  | .returned result => result
  | _ => none

/-- What an execution draws: the identifier of a new chain, by itself and by `complete_turn`, and
the time. -/
structure Draws where
  newChainId : ChainId
  drawnChainId : ChainId
  now : Time
deriving DecidableEq, Repr

/-- The next transaction of the handler. -/
def HandlerPhase.advance (str : Option OutputJson → String) (planId : PlanId) (eventId : EventId)
    (draws : Draws) (db : Db) : HandlerPhase → Option (HandlerPhase × Db)
  | .arrived =>
    if db.inboxExists dispatcherConsumerName eventId then some (.returned none, db)
    else some (.checked, db)
  | .checked =>
    match loadSnapshot str planId db with
    | .ok snapshot => some (.loaded snapshot, db)
    | .error _ => some (.ended, db)
  | .loaded snapshot =>
    match completeFromSnapshot draws.newChainId draws.drawnChainId draws.now snapshot db with
    | .ok (result, db') => some (.completed result.response, db')
    | .error _ => some (.ended, db)
  | .completed result => some (.resolved result, resolveClarification draws.now planId db)
  | .resolved result =>
    match recordProcessed eventId db with
    | .ok db' => some (.returned (some result), db')
    | .error _ => some (.ended, db)
  | .returned _ | .ended => none

/-- A crash ends what has not returned. -/
def HandlerPhase.crash : HandlerPhase → HandlerPhase
  | .returned result => .returned result
  | _ => .ended

/-- The executions of the handler, and the chains that they have created. -/
structure AggregationState where
  db : Db
  handlers : List HandlerPhase
  created : List ChainId

inductive AggregationAction
  /-- The event is delivered, for the first time or again. -/
  | deliver
  | advance (handler : Nat) (draws : Draws)
  | crash (handler : Nat)
  /-- Another turn is completed. -/
  | completeTurn (drawnChainId : ChainId) (now : Time) (turnId : TurnId)
      (command : CompleteTurnCommand)
deriving DecidableEq, Repr

/-- The chains that a transaction adds. -/
def addedChains (db db' : Db) : List ChainId :=
  (chainIds db'.context).filter (· ∉ chainIds db.context)

theorem addedChains_of_context {db db' : Db} (h : db'.context = db.context) :
    addedChains db db' = [] := by
  rw [addedChains, h, List.filter_eq_nil_iff]
  intro c hc hnot
  exact of_decide_eq_true hnot hc

def aggregator (str : Option OutputJson → String) (planId : PlanId) (eventId : EventId) :
    Machine AggregationState AggregationAction where
  init s :=
    EventSourced s.db.context ∧ s.handlers = [] ∧ s.created = [] ∧
      ∃ plan, s.db.plans.get? planId = some plan ∧ plan.status = .completed ∧
        linkedChains s.db.context plan.turnId = [] ∧
        ∀ turn, s.db.conversationTurns.get? plan.turnId = some turn → turn.status ≠ .completed
  step s
    | .deliver => some { s with handlers := s.handlers ++ [.arrived] }
    | .advance handler draws => do
      let phase ← s.handlers[handler]?
      let (phase, db) ← phase.advance str planId eventId draws s.db
      return ⟨db, s.handlers.set handler phase, s.created ++ addedChains s.db db⟩
    | .crash handler => do
      let phase ← s.handlers[handler]?
      return { s with handlers := s.handlers.set handler phase.crash }
    | .completeTurn drawnChainId now turnId command =>
      if (s.db.plans.get? planId).map Plan.turnId = some turnId then none
      else
        match completeTurn drawnChainId now turnId command s.db with
        | .ok (_, db) => some { s with db := db }
        | .error _ => some s

/-! ## What the transactions read and write -/

section Transactions

variable {str : Option OutputJson → String} {planId : PlanId} {eventId : EventId} {db db' : Db}

/-- The snapshot depends on the plan, its tasks and executions, and the selection of its turn. -/
theorem loadSnapshot_congr (hplans : db'.plans = db.plans) (htasks : db'.tasks = db.tasks)
    (hexecutions : db'.taskExecutions = db.taskExecutions)
    (hselections : db'.context.selections = db.context.selections) :
    loadSnapshot str planId db' = loadSnapshot str planId db := by
  unfold loadSnapshot Db.listByPlanId listExecutionsByPlanId
  rw [hplans, htasks, hexecutions, hselections]

theorem recordProcessed_eq_ok (h : recordProcessed eventId db = .ok db') :
    ∃ inbox, db' = db.setInbox inbox := by
  unfold recordProcessed at h
  split at h
  · obtain rfl := Except.ok.inj h
    exact ⟨db.inbox, rfl⟩
  · obtain ⟨inbox, -, rfl⟩ := Db.addInbox_eq_ok.mp h
    exact ⟨inbox, rfl⟩

theorem loadSnapshot_turnId {snapshot : AggregationSnapshot}
    (h : loadSnapshot str planId db = .ok snapshot) :
    ∃ plan, db.plans.get? planId = some plan ∧ plan.turnId = snapshot.turnId := by
  simp only [loadSnapshot, bind_eq_ok, orRaise_eq_ok, pure_eq_ok] at h
  obtain ⟨plan, hplan, _, -, _, -, _, -, _, -, rfl⟩ := h
  exact ⟨plan, hplan, rfl⟩

/-- The references of a snapshot are the keys of the resources made from them. -/
theorem resource_key {resourceRef : String} {input : ContextResourceInput}
    (h : resource resourceRef = .ok input) : input.resourceKey = resourceRef := by
  unfold resource at h
  cases hparts : PyString.partition resourceRef ':' with
  | mk before rest =>
    obtain ⟨separator, after⟩ := rest
    rw [hparts] at h
    cases separator with
    | none => simp at h
    | some c =>
      obtain ⟨-, hjoin⟩ := PyString.partition_join hparts
      simp only at h
      split at h
      · cases h
      · obtain rfl := Except.ok.inj h
        exact hjoin

theorem resources_keys {resourceRefs : List String} {inputs : List ContextResourceInput}
    (h : resources resourceRefs = .ok inputs) :
    inputs.map ContextResourceInput.resourceKey = resourceRefs := by
  induction resourceRefs generalizing inputs with
  | nil =>
    obtain rfl := Except.ok.inj h
    rfl
  | cons resourceRef resourceRefs ih =>
    simp only [resources, bind_eq_ok, pure_eq_ok] at h
    obtain ⟨input, hinput, rest, hrest, rfl⟩ := h
    rw [List.map_cons, resource_key hinput, ih hrest]

/-- The targets of a snapshot: the chains of the read set, or a new one. -/
inductive Chooses (snapshot : AggregationSnapshot) : List ChainId → List ChainId → Prop
  | existing : snapshot.relevantChainIds ≠ [] →
      Chooses snapshot (PyString.fromKeys snapshot.relevantChainIds) []
  | new (newChainId : ChainId) : snapshot.relevantChainIds = [] →
      Chooses snapshot [newChainId] [newChainId]

theorem Chooses.length_le {snapshot : AggregationSnapshot} {targets created : List ChainId}
    (h : Chooses snapshot targets created) : created.length ≤ 1 := by
  cases h with
  | existing _ => exact Nat.zero_le 1
  | new _ _ => exact Nat.le_refl 1

/-- The command attributes the turn to its targets, with one update for each. -/
theorem completionCommand_targets {newChainId drawnChainId : ChainId}
    {snapshot : AggregationSnapshot} {command : CompleteTurnCommand} {t : ContextTables}
    {targets : Targets} (h : completionCommand newChainId snapshot = .ok command)
    (htargets : resolveTargets drawnChainId command.attribution t = .ok targets) :
    Chooses snapshot targets.chainIds targets.newChainId.toList ∧
      ∃ inputs, inputs.map ContextResourceInput.resourceKey = snapshot.resourceRefs ∧
        command.chainUpdates =
          targets.chainIds.map fun chainId => ⟨chainId, snapshot.taskIds, inputs, []⟩ := by
  simp only [completionCommand, bind_eq_ok, pure_eq_ok] at h
  obtain ⟨inputs, hinputs, attribution, hattribution, rfl⟩ := h
  have hkeys := resources_keys hinputs
  simp only [buildReadSetFallbackAttribution] at hattribution
  by_cases hnil : snapshot.relevantChainIds = []
  · rw [hnil] at hattribution
    obtain rfl := Except.ok.inj hattribution
    simp only [resolveTargets, bind_eq_ok, ensure_eq_ok] at htargets
    obtain ⟨_, -, htargets⟩ := htargets
    rw [if_pos (.inl trivial)] at htargets
    simp only [bind_eq_ok, ensure_eq_ok, pure_eq_ok] at htargets
    obtain ⟨_, -, _, -, rfl⟩ := htargets
    exact ⟨.new newChainId hnil, inputs, hkeys, rfl⟩
  · have hne : PyString.fromKeys snapshot.relevantChainIds ≠ [] :=
      fun he => hnil (PyString.fromKeys_eq_nil.mp he)
    have hidem := PyString.fromKeys_of_nodup (PyString.nodup_fromKeys snapshot.relevantChainIds)
    rw [if_pos hne] at hattribution
    simp only [bind_eq_ok, ensure_eq_ok, pure_eq_ok] at hattribution
    obtain ⟨_, -, rfl⟩ := hattribution
    simp only [resolveTargets, bind_eq_ok, ensure_eq_ok, hidem] at htargets
    obtain ⟨_, -, htargets⟩ := htargets
    rw [if_neg (by simp [hne])] at htargets
    obtain rfl := pure_eq_ok.mp htargets
    exact ⟨.existing hnil, inputs, hkeys, by simp [attributedChainIds]⟩

/-- Updates that pass the checks are all in the map. -/
theorem validateChainUpdates_eq {targetChainIds : List ChainId} {turnTaskIds : List TaskId}
    {updateMap updates updateMap' : List ChainTurnUpdate}
    (h : validateChainUpdates targetChainIds turnTaskIds updateMap updates = .ok updateMap') :
    updateMap' = updateMap ++ updates := by
  induction updates generalizing updateMap with
  | nil =>
    obtain rfl := Except.ok.inj h
    simp
  | cons update updates ih =>
    simp only [validateChainUpdates, bind_eq_ok] at h
    obtain ⟨_, -, hrest⟩ := h
    rw [ih hrest, List.append_assoc, List.singleton_append]

theorem updateOf_map {ids : List ChainId} {f : ChainId → ChainTurnUpdate}
    (hf : ∀ c, (f c).chainId = c) {chainId : ChainId} (h : chainId ∈ ids) :
    updateOf (ids.map f) chainId = some (f chainId) := by
  induction ids with
  | nil => cases h
  | cons c ids ih =>
    by_cases hc : c = chainId
    · subst hc
      simp [updateOf, hf]
    · have hin : chainId ∈ ids := (List.mem_cons.mp h).resolve_left fun he => hc he.symm
      have hrest := ih hin
      simp only [updateOf, List.map_cons] at hrest ⊢
      rw [List.find?_cons_of_neg (by simp [hf, hc]), hrest]

end Transactions

/-! ## Before and after the completion -/

/-- Nothing has been written for the turn. -/
structure Untouched (turnId : TurnId) (s : AggregationState) : Prop where
  turn : ∀ turn, s.db.conversationTurns.get? turnId = some turn → turn.status ≠ .completed
  linked : linkedChains s.db.context turnId = []
  events : turnEvents s.db.context turnId = []
  created : s.created = []
  reports : ∀ (i : Nat) phase, s.handlers[i]? = some phase → phase.report = none

/-- The turn is completed with the targets: one node in each, one use of each resource in each, and
every report names them. -/
structure CompletedOnce (str : Option OutputJson → String) (planId : PlanId)
    (s : AggregationState) (snapshot : AggregationSnapshot) (targets : List ChainId) : Prop where
  loaded : loadSnapshot str planId s.db = .ok snapshot
  turn : ∃ turn, s.db.conversationTurns.get? snapshot.turnId = some turn ∧ turn.status = .completed
  chosen : Chooses snapshot targets s.created
  linked : linkedChains s.db.context snapshot.turnId = targets
  written : (turnEvents s.db.context snapshot.turnId).map ContextChainResourceEvent.address =
    targets.flatMap fun chainId => snapshot.resourceRefs.map fun key => (chainId, key)
  uses : ∀ ev ∈ turnEvents s.db.context snapshot.turnId, isUse ev = true
  reports : ∀ (i : Nat) phase result, s.handlers[i]? = some phase → phase.report = some result →
    result.linkedChainIds.Perm targets

structure Aggregating (str : Option OutputJson → String) (planId : PlanId)
    (s : AggregationState) : Prop where
  sourced : EventSourced s.db.context
  plan : ∃ plan, s.db.plans.get? planId = some plan
  loaded : ∀ (i : Nat) snapshot, s.handlers[i]? = some (.loaded snapshot) →
    loadSnapshot str planId s.db = .ok snapshot
  stage : ∀ plan, s.db.plans.get? planId = some plan →
    Untouched plan.turnId s ∨ ∃ snapshot targets, CompletedOnce str planId s snapshot targets

section Completion

variable {str : Option OutputJson → String} {planId : PlanId} {draws : Draws}
  {s : AggregationState} {snapshot : AggregationSnapshot} {db' : Db}
  {result : CompleteTurnTransactionResult}

/-- **The first completion** writes what `CompletedOnce` says. -/
theorem Untouched.complete (handler : Nat) (h : Untouched snapshot.turnId s)
    (hload : loadSnapshot str planId s.db = .ok snapshot)
    (hcomplete : completeFromSnapshot draws.newChainId draws.drawnChainId draws.now snapshot s.db =
      .ok (result, db')) :
    ∃ targets, CompletedOnce str planId
      ⟨db', s.handlers.set handler (.completed result.response), s.created ++ addedChains s.db db'⟩
      snapshot targets := by
  simp only [completeFromSnapshot, bind_eq_ok] at hcomplete
  obtain ⟨command, hcommand, hcomplete⟩ := hcomplete
  obtain ⟨hplans, htasks, hexecutions, hselections⟩ := completeTurn_frame hcomplete
  have hload' : loadSnapshot str planId db' = .ok snapshot :=
    (loadSnapshot_congr hplans htasks hexecutions hselections).trans hload
  cases completeTurn_cases hcomplete with
  | before turn hturn hst _ _ _ => exact absurd hst (h.turn turn hturn)
  | now turn targets updateMap t t' refreshes hturn _ htargets hmap hcreate hall hresult hdb =>
    obtain ⟨hchosen, inputs, hinputs, hupdates⟩ := completionCommand_targets hcommand htargets
    obtain ⟨hnodes, hevents, -, hids, hnew⟩ := createNewChain_eq_ok hcreate
    have hmapEq : updateMap = targets.chainIds.map
        fun chainId => ⟨chainId, snapshot.taskIds, inputs, []⟩ := by
      rw [validateChainUpdates_eq hmap, hupdates, List.nil_append]
    have hupdate : ∀ c ∈ targets.chainIds,
        updateOf updateMap c = some ⟨c, snapshot.taskIds, inputs, []⟩ := by
      intro c hc
      rw [hmapEq]
      exact updateOf_map (fun _ => rfl) hc
    have hlinked : linkedChains t snapshot.turnId = [] := by
      rw [linkedChains, hnodes]
      exact h.linked
    have hnone : turnEvents t snapshot.turnId = [] := by
      rw [turnEvents, hevents]
      exact h.events
    obtain ⟨evs, hevs, hwritten, huses⟩ := hall.turnEvents
    rw [hnone, List.nil_append] at hevs
    have hturnId : turn.turnId = snapshot.turnId := Table.key_of_get? hturn
    have hcontext : db'.context = t' := by rw [hdb]; rfl
    have hadded : addedChains s.db db' = targets.newChainId.toList := by
      have hold : (chainIds s.db.context).filter (· ∉ chainIds s.db.context) = [] := by
        rw [List.filter_eq_nil_iff]
        intro c hc hnot
        exact of_decide_eq_true hnot hc
      have hall' : targets.newChainId.toList.filter (· ∉ chainIds s.db.context) =
          targets.newChainId.toList := by
        rw [List.filter_eq_self]
        intro c hc
        exact decide_eq_true (hnew c hc)
      rw [addedChains, hcontext, hall.chainIds, hids, List.filter_append, hold, hall',
        List.nil_append]
    refine ⟨targets.chainIds, hload', ⟨completedTurn draws.now command turn, ?_, rfl⟩, ?_, ?_, ?_,
      ?_, ?_⟩
    · show db'.conversationTurns.get? snapshot.turnId = _
      have hkey : (completedTurn draws.now command turn).turnId = turn.turnId := rfl
      rw [hdb, ← hturnId, ← hkey]
      exact Table.get?_save_self (Table.mem_of_get? hturn) hkey
    · show Chooses snapshot targets.chainIds (s.created ++ addedChains s.db db')
      rw [h.created, hadded, List.nil_append]
      exact hchosen
    · show linkedChains db'.context _ = _
      rw [hcontext, hall.linkedChains, hlinked, List.nil_append]
    · show (turnEvents db'.context _).map _ = _
      rw [hcontext, hevs, hwritten]
      refine List.flatMap_congr fun c hc => ?_
      rw [writtenKeys, hupdate c hc]
      simp [usedKeys, removedKeys, hinputs]
    · show ∀ ev ∈ turnEvents db'.context _, _
      rw [hcontext, hevs]
      refine huses fun c hc => ?_
      rw [hupdate c hc]
      rfl
    · intro i phase report hphase hreport
      rcases get?_set hphase with ⟨-, rfl⟩ | ⟨-, hphase⟩
      · obtain rfl := Option.some.inj hreport
        rw [hresult]
      · rw [h.reports i phase hphase] at hreport
        cases hreport

end Completion

/-! ## Every step -/

/-- What has been written for a turn stays. -/
structure KeepsTurn (turnId : TurnId) (db db' : Db) : Prop where
  turn : db'.conversationTurns.get? turnId = db.conversationTurns.get? turnId
  linked : linkedChains db'.context turnId = linkedChains db.context turnId
  events : turnEvents db'.context turnId = turnEvents db.context turnId

/-- A report that an earlier state has, or that reads the nodes of the completed turn. -/
def Repeats (turnId : TurnId) (s : AggregationState) (result : CompleteTurnResult) : Prop :=
  (∃ (j : Nat) (phase : HandlerPhase), s.handlers[j]? = some phase ∧ phase.report = some result) ∨
    (∃ turn, s.db.conversationTurns.get? turnId = some turn ∧ turn.status = .completed) ∧
      result.linkedChainIds.Perm (linkedChains s.db.context turnId)

section Steps

variable {str : Option OutputJson → String} {planId : PlanId} {eventId : EventId}
  {s s' : AggregationState}

/-- **A step that writes nothing for the turn.** -/
theorem Aggregating.keeps (h : Aggregating str planId s) (hplans : s'.db.plans = s.db.plans)
    (hload : loadSnapshot str planId s'.db = loadSnapshot str planId s.db)
    (hsourced : EventSourced s'.db.context)
    (hkeeps : ∀ plan, s.db.plans.get? planId = some plan → KeepsTurn plan.turnId s.db s'.db)
    (hcreated : s'.created = s.created)
    (hloaded : ∀ (i : Nat) snapshot, s'.handlers[i]? = some (.loaded snapshot) →
      loadSnapshot str planId s.db = .ok snapshot)
    (hreports : ∀ plan, s.db.plans.get? planId = some plan → ∀ (i : Nat) phase result,
      s'.handlers[i]? = some phase → phase.report = some result → Repeats plan.turnId s result) :
    Aggregating str planId s' := by
  refine ⟨hsourced, hplans ▸ h.plan, ?_, ?_⟩
  · intro i snapshot hi
    rw [hload]
    exact hloaded i snapshot hi
  · intro plan hplan
    rw [hplans] at hplan
    have hk := hkeeps plan hplan
    rcases h.stage plan hplan with hstage | ⟨snapshot, targets, hstage⟩
    · refine .inl ⟨?_, hk.linked.trans hstage.linked, hk.events.trans hstage.events,
        hcreated.trans hstage.created, ?_⟩
      · rw [hk.turn]
        exact hstage.turn
      · intro i phase hphase
        cases hreport : phase.report with
        | none => rfl
        | some result =>
          rcases hreports plan hplan i phase result hphase hreport with
            ⟨j, phase₀, hj, hold⟩ | ⟨⟨turn, hturn, hst⟩, -⟩
          · rw [hstage.reports j phase₀ hj] at hold
            cases hold
          · exact absurd hst (hstage.turn turn hturn)
    · obtain ⟨plan', hplan', hturnId⟩ := loadSnapshot_turnId hstage.loaded
      obtain rfl := Option.some.inj (hplan.symm.trans hplan')
      rw [hturnId] at hk
      refine .inr ⟨snapshot, targets, hload.trans hstage.loaded, ?_, hcreated ▸ hstage.chosen,
        hk.linked.trans hstage.linked, ?_, ?_, ?_⟩
      · rw [hk.turn]
        exact hstage.turn
      · rw [hk.events]
        exact hstage.written
      · rw [hk.events]
        exact hstage.uses
      · intro i phase result hphase hreport
        rcases hreports plan hplan i phase result hphase hreport with
          ⟨j, phase₀, hj, hold⟩ | ⟨-, hperm⟩
        · exact hstage.reports j phase₀ result hj hold
        · rw [hturnId, hstage.linked] at hperm
          exact hperm

theorem KeepsTurn.refl (turnId : TurnId) (db : Db) : KeepsTurn turnId db db := ⟨rfl, rfl, rfl⟩

/-- **A handler moves without touching turns and context**: it reports what it held before. -/
theorem Aggregating.moves (h : Aggregating str planId s) {db' : Db} {handler : Nat}
    {phase phase' : HandlerPhase} (hphase : s.handlers[handler]? = some phase)
    (hplans : db'.plans = s.db.plans) (htasks : db'.tasks = s.db.tasks)
    (hexecutions : db'.taskExecutions = s.db.taskExecutions)
    (hturns : db'.conversationTurns = s.db.conversationTurns) (hcontext : db'.context = s.db.context)
    (hloaded : ∀ snapshot, phase' = .loaded snapshot → loadSnapshot str planId s.db = .ok snapshot)
    (hreport : ∀ result, phase'.report = some result → phase.report = some result) :
    Aggregating str planId
      ⟨db', s.handlers.set handler phase', s.created ++ addedChains s.db db'⟩ := by
  have hadded := addedChains_of_context hcontext
  refine h.keeps hplans (loadSnapshot_congr hplans htasks hexecutions (by rw [hcontext])) ?_ ?_ ?_
    ?_ ?_
  · show EventSourced db'.context
    rw [hcontext]
    exact h.sourced
  · intro plan _
    exact ⟨congrArg (·.get? plan.turnId) hturns, congrArg (linkedChains · plan.turnId) hcontext,
      congrArg (turnEvents · plan.turnId) hcontext⟩
  · show s.created ++ addedChains s.db db' = s.created
    rw [hadded, List.append_nil]
  · intro i snapshot hi
    rcases get?_set hi with ⟨-, hlast⟩ | ⟨-, hi⟩
    · exact hloaded snapshot hlast.symm
    · exact h.loaded i snapshot hi
  · intro plan _ i phase₀ result hi hr
    rcases get?_set hi with ⟨-, rfl⟩ | ⟨-, hi⟩
    · exact .inl ⟨handler, phase, hphase, hreport result hr⟩
    · exact .inl ⟨i, phase₀, hi, hr⟩

/-- A handler moves to where it holds neither a snapshot nor a result. -/
theorem Aggregating.drops (h : Aggregating str planId s) {db' : Db} {handler : Nat}
    {phase phase' : HandlerPhase} (hphase : s.handlers[handler]? = some phase)
    (hdb : db' = s.db) (hloaded : ∀ snapshot, phase' ≠ .loaded snapshot)
    (hreport : phase'.report = none) :
    Aggregating str planId
      ⟨db', s.handlers.set handler phase', s.created ++ addedChains s.db db'⟩ := by
  subst hdb
  refine h.moves hphase rfl rfl rfl rfl rfl ?_ ?_
  · intro snapshot hsnapshot
    exact absurd hsnapshot (hloaded snapshot)
  · intro result hresult
    rw [hreport] at hresult
    cases hresult

/-- **The completing transaction** of a handler, the first or a later one. -/
theorem Aggregating.completes (h : Aggregating str planId s) {snapshot : AggregationSnapshot}
    {handler : Nat} {draws : Draws} {db' : Db} {result : CompleteTurnTransactionResult}
    (hphase : s.handlers[handler]? = some (.loaded snapshot))
    (hcomplete : completeFromSnapshot draws.newChainId draws.drawnChainId draws.now snapshot s.db =
      .ok (result, db')) :
    Aggregating str planId
      ⟨db', s.handlers.set handler (.completed result.response),
        s.created ++ addedChains s.db db'⟩ := by
  have hload := h.loaded handler snapshot hphase
  obtain ⟨plan, hplan, hturnId⟩ := loadSnapshot_turnId hload
  have hcommit := hcomplete
  simp only [completeFromSnapshot, bind_eq_ok] at hcommit
  obtain ⟨command, -, hcommit⟩ := hcommit
  rcases h.stage plan hplan with hstage | ⟨snapshot', targets, hstage⟩
  · -- the first completion
    rw [hturnId] at hstage
    obtain ⟨targets, hdone⟩ := hstage.complete handler hload hcomplete
    obtain ⟨hplans, -, -, -⟩ := completeTurn_frame hcommit
    refine ⟨h.sourced.completeTurn hcommit, ⟨plan, by rw [← hplan, ← hplans]⟩, ?_, ?_⟩
    · intro i snapshot' hi
      rcases get?_set hi with ⟨-, hlast⟩ | ⟨-, hi⟩
      · cases hlast
      · have hsame := (h.loaded i snapshot' hi).symm.trans hload
        rw [Except.ok.inj hsame]
        exact hdone.loaded
    · intro _ _
      exact .inr ⟨snapshot, targets, hdone⟩
  · -- the turn has been completed before
    obtain rfl := Except.ok.inj (hload.symm.trans hstage.loaded)
    obtain ⟨turn, hturn, hst⟩ := hstage.turn
    cases completeTurn_cases hcommit with
    | now turn' _ _ _ _ _ hturn' hopen _ _ _ _ _ _ =>
      obtain rfl := Option.some.inj (hturn.symm.trans hturn')
      rw [hst] at hopen
      simp at hopen
    | before turn' _ _ _ hresult hdb =>
      subst hdb
      have hadded : addedChains s.db s.db = [] := addedChains_of_context rfl
      refine h.keeps rfl rfl h.sourced (fun plan _ => .refl _ _) ?_ ?_ ?_
      · rw [hadded, List.append_nil]
      · intro i snapshot' hi
        rcases get?_set hi with ⟨-, hlast⟩ | ⟨-, hi⟩
        · cases hlast
        · exact h.loaded i snapshot' hi
      · intro plan' hplan' i phase report hi hr
        obtain rfl := Option.some.inj (hplan.symm.trans hplan')
        rcases get?_set hi with ⟨-, rfl⟩ | ⟨-, hi⟩
        · obtain rfl := Option.some.inj hr
          refine .inr ⟨⟨turn, hturnId ▸ hturn, hst⟩, ?_⟩
          rw [hresult, hturnId]
          exact listLinkedChainIds_perm _ _
        · exact .inl ⟨i, phase, hi, hr⟩

/-- **Every step of the machine.** -/
theorem Aggregating.step {action : AggregationAction} (h : Aggregating str planId s)
    (hstep : (aggregator str planId eventId).step s action = some s') :
    Aggregating str planId s' := by
  cases action with
  | deliver =>
    obtain rfl := Option.some.inj hstep
    refine h.keeps rfl rfl h.sourced (fun plan _ => .refl _ _) rfl ?_ ?_
    · intro i snapshot hi
      rcases get?_append hi with hi | ⟨-, hlast⟩
      · exact h.loaded i snapshot hi
      · cases hlast
    · intro plan _ i phase result hi hr
      rcases get?_append hi with hi | ⟨-, rfl⟩
      · exact .inl ⟨i, phase, hi, hr⟩
      · cases hr
  | advance handler draws =>
    simp only [aggregator, Option.bind_eq_bind, Option.bind_eq_some_iff, Option.pure_def,
      Option.some.injEq, Prod.exists] at hstep
    obtain ⟨phase, hphase, phase', db', hadvance, rfl⟩ := hstep
    cases phase with
    | arrived =>
      simp only [HandlerPhase.advance] at hadvance
      split at hadvance
      all_goals
        obtain ⟨rfl, rfl⟩ := Prod.mk.inj (Option.some.inj hadvance)
        exact h.drops hphase rfl (by simp) rfl
    | checked =>
      simp only [HandlerPhase.advance] at hadvance
      split at hadvance
      · next snapshot hload =>
        obtain ⟨rfl, rfl⟩ := Prod.mk.inj (Option.some.inj hadvance)
        refine h.moves hphase rfl rfl rfl rfl rfl ?_ ?_
        · intro snapshot' heq
          obtain rfl := HandlerPhase.loaded.inj heq
          exact hload
        · intro result hresult
          cases hresult
      · obtain ⟨rfl, rfl⟩ := Prod.mk.inj (Option.some.inj hadvance)
        exact h.drops hphase rfl (by simp) rfl
    | loaded snapshot =>
      simp only [HandlerPhase.advance] at hadvance
      split at hadvance
      · next result db₁ hcomplete =>
        obtain ⟨rfl, rfl⟩ := Prod.mk.inj (Option.some.inj hadvance)
        exact h.completes hphase hcomplete
      · obtain ⟨rfl, rfl⟩ := Prod.mk.inj (Option.some.inj hadvance)
        exact h.drops hphase rfl (by simp) rfl
    | completed result =>
      obtain ⟨rfl, rfl⟩ := Prod.mk.inj (Option.some.inj hadvance)
      obtain ⟨requests, hresolve⟩ := resolveClarification_eq draws.now planId s.db
      rw [hresolve]
      exact h.moves hphase rfl rfl rfl rfl rfl (by simp) fun _ hr => hr
    | resolved result =>
      simp only [HandlerPhase.advance] at hadvance
      split at hadvance
      · next db₁ hrecord =>
        obtain ⟨rfl, rfl⟩ := Prod.mk.inj (Option.some.inj hadvance)
        obtain ⟨inbox, rfl⟩ := recordProcessed_eq_ok hrecord
        exact h.moves hphase rfl rfl rfl rfl rfl (by simp) fun _ hr => hr
      · obtain ⟨rfl, rfl⟩ := Prod.mk.inj (Option.some.inj hadvance)
        exact h.drops hphase rfl (by simp) rfl
    | returned result => cases hadvance
    | ended => cases hadvance
  | crash handler =>
    simp only [aggregator, Option.bind_eq_bind, Option.bind_eq_some_iff, Option.pure_def,
      Option.some.injEq] at hstep
    obtain ⟨phase, hphase, rfl⟩ := hstep
    refine h.keeps rfl rfl h.sourced (fun plan _ => .refl _ _) rfl ?_ ?_
    · intro i snapshot hi
      rcases get?_set hi with ⟨-, hlast⟩ | ⟨-, hi⟩
      · cases phase <;> cases hlast
      · exact h.loaded i snapshot hi
    · intro plan _ i phase₀ result hi hr
      rcases get?_set hi with ⟨-, rfl⟩ | ⟨-, hi⟩
      · refine .inl ⟨handler, phase, hphase, ?_⟩
        cases phase with
        | returned result' => exact hr
        | _ => cases hr
      · exact .inl ⟨i, phase₀, hi, hr⟩
  | completeTurn drawnChainId now turnId command =>
    simp only [aggregator] at hstep
    split at hstep
    · cases hstep
    · next hother =>
      split at hstep
      · next result db' hcomplete =>
        obtain rfl := Option.some.inj hstep
        obtain ⟨hplans, htasks, hexecutions, hselections⟩ := completeTurn_frame hcomplete
        refine h.keeps hplans (loadSnapshot_congr hplans htasks hexecutions hselections)
          (h.sourced.completeTurn hcomplete) ?_ rfl h.loaded ?_
        · intro plan hplan
          have hne : turnId ≠ plan.turnId := by
            rintro rfl
            exact hother (by rw [hplan]; rfl)
          obtain ⟨hturn, hlinked, hevents⟩ := completeTurn_ne hcomplete hne
          exact ⟨hturn, hlinked, hevents⟩
        · exact fun plan _ i phase result hi hr => .inl ⟨i, phase, hi, hr⟩
      · obtain rfl := Option.some.inj hstep
        exact h

end Steps

theorem aggregator_aggregating {str : Option OutputJson → String} {planId : PlanId}
    {eventId : EventId} {s : AggregationState}
    (h : (aggregator str planId eventId).Reachable s) : Aggregating str planId s := by
  refine h.invariant (P := Aggregating str planId) ?_ fun s act s' _ hs _ hstep => hs.step hstep
  rintro s ⟨hsourced, hhandlers, hcreated, plan, hplan, -, hlinked, hturn⟩
  refine ⟨hsourced, ⟨plan, hplan⟩, ?_, ?_⟩
  · intro i snapshot hi
    rw [hhandlers] at hi
    cases hi
  · intro plan' hplan'
    obtain rfl := Option.some.inj (hplan.symm.trans hplan')
    refine .inl ⟨hturn, hlinked, ?_, hcreated, ?_⟩
    · -- an event of the turn would have a node of the turn
      rw [turnEvents, List.filter_eq_nil_iff]
      intro ev hev hturnId
      obtain ⟨n, hn, hplace⟩ := hsourced.nodeOfEvent ev hev
      have hnode : n.chainId ∈ linkedChains s.db.context plan.turnId := by
        refine List.mem_map_of_mem (List.mem_filter.mpr ⟨hn, decide_eq_true ?_⟩)
        exact (Prod.mk.inj hplace).2.trans (of_decide_eq_true hturnId)
      rw [hlinked] at hnode
      cases hnode
    · intro i phase hi
      rw [hhandlers] at hi
      cases hi

/-! ## What the database ends with -/

/-- The turn has used the resource once: one event and one increment of the count. -/
structure AppliedOnce (t : ContextTables) (turnId : TurnId) (chainId : ChainId)
    (key : ResourceKey) : Prop where
  event : ∃ ev, (eventsOf t chainId key).filter (fun ev => ev.turnId = turnId) = [ev] ∧
    isUse ev = true
  useCount : ∃ row, t.resources.get? (chainId, key) = some row ∧
    row.useCount = ((eventsOf t chainId key).filter (fun ev => ev.turnId ≠ turnId)).countP isUse + 1

section Ends

variable {str : Option OutputJson → String} {planId : PlanId} {s : AggregationState}
  {snapshot : AggregationSnapshot} {targets : List ChainId}

theorem loadSnapshot_resourceRefs {db : Db} (h : loadSnapshot str planId db = .ok snapshot) :
    snapshot.resourceRefs.Nodup := by
  simp only [loadSnapshot, bind_eq_ok, orRaise_eq_ok, pure_eq_ok] at h
  obtain ⟨_, -, _, -, _, -, _, -, _, -, rfl⟩ := h
  exact PyString.nodup_fromKeys _

theorem CompletedOnce.targets_nodup (h : CompletedOnce str planId s snapshot targets) :
    targets.Nodup := h.linked ▸ linkedChains_nodup _ _

/-- The events of the turn stand at different addresses. -/
theorem CompletedOnce.addresses_nodup (h : CompletedOnce str planId s snapshot targets) :
    ((turnEvents s.db.context snapshot.turnId).map ContextChainResourceEvent.address).Nodup := by
  rw [h.written, List.nodup_flatMap]
  constructor
  · intro c _
    exact (loadSnapshot_resourceRefs h.loaded).map fun a b hab => (Prod.mk.inj hab).2
  · refine h.targets_nodup.imp ?_
    intro c d hcd a hac had
    obtain ⟨_, -, rfl⟩ := List.mem_map.mp hac
    obtain ⟨_, -, heq⟩ := List.mem_map.mp had
    exact hcd (Prod.mk.inj heq).1.symm

theorem CompletedOnce.event (h : CompletedOnce str planId s snapshot targets) {chainId : ChainId}
    {key : ResourceKey} (hc : chainId ∈ targets) (hkey : key ∈ snapshot.resourceRefs) :
    ∃ ev, (eventsOf s.db.context chainId key).filter
      (fun ev => ev.turnId = snapshot.turnId) = [ev] ∧ isUse ev = true := by
  have hmem : (chainId, key) ∈ (turnEvents s.db.context snapshot.turnId).map
      ContextChainResourceEvent.address := by
    rw [h.written]
    exact List.mem_flatMap.mpr ⟨chainId, hc, List.mem_map_of_mem hkey⟩
  obtain ⟨ev, hev, haddr⟩ := List.mem_map.mp hmem
  refine ⟨ev, ?_, h.uses ev hev⟩
  have hswap : (eventsOf s.db.context chainId key).filter
      (fun ev => ev.turnId = snapshot.turnId) =
      (turnEvents s.db.context snapshot.turnId).filter (fun x => x.address = (chainId, key)) := by
    simp only [eventsOf, turnEvents, List.filter_filter]
    refine List.filter_congr fun x _ => ?_
    rw [Bool.and_comm]
  rw [hswap]
  refine List.perm_singleton.mp ?_
  rw [List.perm_ext_iff_of_nodup]
  · intro x
    rw [List.mem_filter, List.mem_singleton]
    constructor
    · rintro ⟨hx, hxa⟩
      exact List.inj_on_of_nodup_map h.addresses_nodup hx hev
        ((of_decide_eq_true hxa).trans haddr.symm)
    · rintro rfl
      exact ⟨hev, decide_eq_true haddr⟩
  · exact (List.Nodup.of_map _ h.addresses_nodup).filter _
  · exact List.nodup_singleton _

/-- **Each resource is applied once** in each target chain. -/
theorem CompletedOnce.appliedOnce (h : CompletedOnce str planId s snapshot targets)
    (hsourced : EventSourced s.db.context) {chainId : ChainId} {key : ResourceKey}
    (hc : chainId ∈ targets) (hkey : key ∈ snapshot.resourceRefs) :
    AppliedOnce s.db.context snapshot.turnId chainId key := by
  obtain ⟨ev, hevs, huse⟩ := h.event hc hkey
  have hagrees : RowAgrees (eventsOf s.db.context chainId key)
      (s.db.context.resources.get? (chainId, key)) := hsourced.folded.agrees (chainId, key)
  have hev : ev ∈ eventsOf s.db.context chainId key := by
    have hin : ev ∈ [ev] := List.mem_singleton_self ev
    rw [← hevs] at hin
    exact (List.mem_filter.mp hin).1
  have hrow : s.db.context.resources.get? (chainId, key) ≠ none := by
    intro hnone
    have hnil := hagrees.uses_eq_nil.mpr hnone
    have hin := List.mem_filter.mpr ⟨hev, huse⟩
    rw [hnil] at hin
    cases hin
  obtain ⟨row, hrow⟩ := Option.ne_none_iff_exists'.mp hrow
  refine ⟨⟨ev, hevs, huse⟩, row, hrow, ?_⟩
  have hsplit := List.countP_eq_countP_filter_add (eventsOf s.db.context chainId key) isUse
    (fun ev => ev.turnId = snapshot.turnId)
  have hone : [ev].countP isUse = 1 := by simp [huse]
  rw [hagrees.useCount row hrow, hsplit, hevs, hone, Nat.add_comm]
  simp only [decide_not]

/-- The version of a target chain has moved by one step, when there is a resource. -/
theorem CompletedOnce.version (h : CompletedOnce str planId s snapshot targets)
    (hsourced : EventSourced s.db.context) {chain : ContextChain}
    (hchain : chain ∈ s.db.context.chains) (hc : chain.chainId ∈ targets) :
    chain.resourceVersion =
      ((touchingTurns s.db.context chain.chainId).erase snapshot.turnId).card +
        if snapshot.resourceRefs = [] then 0 else 1 := by
  rw [hsourced.versions chain hchain]
  cases hrefs : snapshot.resourceRefs with
  | nil =>
    have hnone : snapshot.turnId ∉ touchingTurns s.db.context chain.chainId := by
      intro hmem
      obtain ⟨ev, hev, -, hturn⟩ := mem_touchingTurns.mp hmem
      have hin : ev ∈ turnEvents s.db.context snapshot.turnId :=
        List.mem_filter.mpr ⟨hev, decide_eq_true hturn⟩
      have hwritten := List.mem_map_of_mem (f := ContextChainResourceEvent.address) hin
      rw [h.written, hrefs] at hwritten
      simp at hwritten
    rw [Finset.erase_eq_of_notMem hnone]
    rfl
  | cons key keys =>
    obtain ⟨ev, hevs, -⟩ := h.event hc (hrefs ▸ List.mem_cons_self)
    have hin : ev ∈ [ev] := List.mem_singleton_self ev
    rw [← hevs] at hin
    simp only [eventsOf, List.mem_filter, decide_eq_true_eq] at hin
    have hmem : snapshot.turnId ∈ touchingTurns s.db.context chain.chainId :=
      mem_touchingTurns.mpr ⟨ev, hin.1.1, (Prod.mk.inj hin.1.2).1, hin.2⟩
    rw [if_neg (List.cons_ne_nil key keys), Finset.card_erase_add_one hmem]

end Ends

/-- **Aggregation completes a turn exactly once**: the handlers create at most one chain and report
the same chains; while the turn is not completed nothing has been written for it, and once it
is, it has one node in each target chain, no event but one use of each resource of the plan in each,
and one version step there. -/
theorem aggregation_completes_once (str : Option OutputJson → String) (planId : PlanId)
    (eventId : EventId) (s : AggregationState)
    (h : (aggregator str planId eventId).Reachable s) :
    s.created.length ≤ 1 ∧
    (∀ (i j : Nat) phase phase' result result', s.handlers[i]? = some phase →
      s.handlers[j]? = some phase' → phase.report = some result → phase'.report = some result' →
      result.linkedChainIds.Perm result'.linkedChainIds) ∧
    ∃ plan, s.db.plans.get? planId = some plan ∧
      (Untouched plan.turnId s ∨
        ∃ snapshot targets, snapshot.turnId = plan.turnId ∧
          CompletedOnce str planId s snapshot targets ∧ targets.Nodup ∧
          (∀ chainId ∈ targets, ∀ key ∈ snapshot.resourceRefs,
            AppliedOnce s.db.context plan.turnId chainId key) ∧
          ∀ chain ∈ s.db.context.chains, chain.chainId ∈ targets → chain.resourceVersion =
            ((touchingTurns s.db.context chain.chainId).erase plan.turnId).card +
              if snapshot.resourceRefs = [] then 0 else 1) := by
  have hs := aggregator_aggregating h
  obtain ⟨plan, hplan⟩ := hs.plan
  rcases hs.stage plan hplan with hstage | ⟨snapshot, targets, hstage⟩
  · refine ⟨by rw [hstage.created]; simp, ?_, plan, hplan, .inl hstage⟩
    intro i j phase phase' result result' hi hj hr hr'
    rw [hstage.reports i phase hi] at hr
    cases hr
  · obtain ⟨plan', hplan', hturnId⟩ := loadSnapshot_turnId hstage.loaded
    obtain rfl := Option.some.inj (hplan.symm.trans hplan')
    refine ⟨?_, ?_, plan, hplan, .inr ⟨snapshot, targets, hturnId.symm, hstage,
      hstage.targets_nodup, ?_, ?_⟩⟩
    · exact hstage.chosen.length_le
    · intro i j phase phase' result result' hi hj hr hr'
      exact (hstage.reports i phase result hi hr).trans
        (hstage.reports j phase' result' hj hr').symm
    · intro chainId hc key hkey
      rw [hturnId]
      exact hstage.appliedOnce hs.sourced hc hkey
    · intro chain hchain hc
      rw [hturnId]
      exact hstage.version hs.sourced hchain hc

/-! ## Two handlers at a time -/

/-- A completed plan with one task, which has produced one document. -/
def onePlanCompleted : Db where
  conversationTurns := ⟨[readyTurn 1], by decide⟩
  plans := ⟨[⟨5, 1, 1, none, none, .completed, 1, none, none, some 0, some 1⟩], by decide⟩
  tasks :=
    ⟨[⟨6, 5, 1, "t1", .processDocument, ⟨7, none⟩, 0, .succeeded, 1, 3, none, none, none, some 0,
      some 1⟩], by decide⟩
  taskDependencies := .empty
  taskExecutions :=
    ⟨[⟨8, 6, 5, 1, 1, .succeeded, "document.process", ⟨7, none⟩, none, ["document:7"], none, none,
      none, false, none, 11, 0, none, none, none, none, 0, some 1⟩], by decide⟩
  outbox := .empty
  inbox := .empty
  clarifications := .empty
  context :=
    { selections := ⟨[⟨1, 1, []⟩], by decide⟩
      chains := .empty
      nodes := .empty
      resources := .empty
      resourceEvents := [] }

/-- Both handlers load the snapshot before either completes the turn; the first crashes after
that, and a third delivery finds the record of the second. -/
def aggregateTwice : List AggregationAction :=
  [ .deliver, .deliver, .advance 0 ⟨21, 31, 0⟩, .advance 1 ⟨22, 32, 0⟩, .advance 0 ⟨21, 31, 1⟩,
    .advance 1 ⟨22, 32, 1⟩, .advance 0 ⟨21, 31, 2⟩, .crash 0, .advance 1 ⟨22, 32, 3⟩,
    .advance 1 ⟨22, 32, 4⟩, .advance 1 ⟨22, 32, 5⟩, .deliver, .advance 2 ⟨23, 33, 6⟩ ]

def aggregatedTwice : AggregationState :=
  ((aggregator (fun _ => "") 5 3).run ⟨onePlanCompleted, [], []⟩ aggregateTwice).getD
    ⟨onePlanCompleted, [], []⟩

theorem aggregatedTwice_once :
    aggregatedTwice.created = [21] ∧
      aggregatedTwice.handlers.map (fun phase => phase.report.map CompleteTurnResult.linkedChainIds) =
        [none, some [21], none] ∧
      aggregatedTwice.created.length ≤ 1 := by
  have hinit : (aggregator (fun _ => "") 5 3).init ⟨onePlanCompleted, [], []⟩ := by
    refine ⟨⟨⟨fun a => rfl, fun a => .nil⟩, fun c => rfl, ?_, ?_, ?_⟩, rfl, rfl, _, rfl, rfl, rfl, ?_⟩
    · intro n hn
      cases hn
    · intro ev hev
      cases hev
    · intro c hc
      cases hc
    · intro turn hturn
      obtain rfl := Option.some.inj hturn
      decide
  have hrun : (aggregator (fun _ => "") 5 3).run ⟨onePlanCompleted, [], []⟩ aggregateTwice =
      some aggregatedTwice := by
    rfl
  have hreach : (aggregator (fun _ => "") 5 3).Reachable aggregatedTwice :=
    Machine.Reachable.run (.init hinit) hrun
  exact ⟨by decide, by decide,
    (aggregation_completes_once (fun _ => "") 5 3 aggregatedTwice hreach).1⟩

end DocFlow.Aggregation
