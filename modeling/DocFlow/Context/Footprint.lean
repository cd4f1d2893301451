import DocFlow.Context.EventSourcing

/-!
# What a turn leaves in the context tables

The nodes and the events of one turn.  A completion appends one node for each target chain and one
event for each key of the chain's update, in the order of the targets
(`AttributedAll.linkedChains`, `AttributedAll.turnEvents`), and leaves those of the other turns
alone.
-/

namespace DocFlow.Context

/-- The chains that a turn has a node in, in the order of the nodes. -/
def linkedChains (t : ContextTables) (turnId : TurnId) : List ChainId :=
  (t.nodes.rows.filter fun n => n.turnId = turnId).map ContextChainNode.chainId

/-- The events of a turn, oldest first. -/
def turnEvents (t : ContextTables) (turnId : TurnId) : List ContextChainResourceEvent :=
  t.resourceEvents.filter fun ev => ev.turnId = turnId

def chainIds (t : ContextTables) : List ChainId := t.chains.rows.map ContextChain.chainId

/-- The addresses that an update writes events for. -/
def writtenKeys (updateMap : List ChainTurnUpdate) (chainId : ChainId) :
    List (ChainId × ResourceKey) :=
  (usedKeys (updateOf updateMap chainId) ++ removedKeys (updateOf updateMap chainId)).map
    fun key => (chainId, key)

/-- A turn has one node in each of its chains. -/
theorem linkedChains_nodup (t : ContextTables) (turnId : TurnId) :
    (linkedChains t turnId).Nodup := by
  refine List.Nodup.map_on ?_ ((List.Nodup.of_map _ t.nodes.nodup).filter _)
  intro x hx y hy hxy
  simp only [List.mem_filter, decide_eq_true_eq] at hx hy
  exact Table.eq_of_key hx.1 hy.1 (Prod.ext hxy (hx.2.trans hy.2.symm))

theorem listLinkedChainIds_perm (t : ContextTables) (turnId : TurnId) :
    (t.listLinkedChainIds turnId).Perm (linkedChains t turnId) :=
  List.perm_insertionSort _ _

section Steps

variable {turnId x : TurnId} {now : Time} {updateMap : List ChainTurnUpdate} {chainId : ChainId}
  {ids : List ChainId} {t t' : ContextTables}

/-! ## One target chain -/

theorem Attributed.linkedChains (h : Attributed turnId now updateMap chainId t t') :
    linkedChains t' turnId = linkedChains t turnId ++ [chainId] := by
  obtain ⟨_, nodes, m, _, _, _, _, hnodes, hlogged, _, _, _, _, rfl⟩ := h
  have hm : m.nodes = nodes := hlogged.nodes
  show (m.nodes.rows.filter _).map _ = _
  rw [hm, Table.rows_insert hnodes, List.filter_append, List.map_append]
  simp [Context.linkedChains, newNode]

theorem Attributed.linkedChains_ne (h : Attributed turnId now updateMap chainId t t')
    (hne : turnId ≠ x) : Context.linkedChains t' x = Context.linkedChains t x := by
  obtain ⟨_, nodes, m, _, _, _, _, hnodes, hlogged, _, _, _, _, rfl⟩ := h
  have hm : m.nodes = nodes := hlogged.nodes
  show (m.nodes.rows.filter _).map _ = _
  rw [hm, Table.rows_insert hnodes, List.filter_append]
  simp [Context.linkedChains, newNode, hne]

/-- One event for each key of the update; they are uses when nothing is removed. -/
theorem Attributed.turnEvents (h : Attributed turnId now updateMap chainId t t') :
    ∃ evs, turnEvents t' turnId = turnEvents t turnId ++ evs ∧
      evs.map ContextChainResourceEvent.address = writtenKeys updateMap chainId ∧
      (removedKeys (updateOf updateMap chainId) = [] → ∀ ev ∈ evs, isUse ev = true) := by
  obtain ⟨_, nodes, m, uses, removals, _, rfl, _, hlogged, hkeys, huses, hkeys', _, rfl⟩ := h
  have hm : m.resourceEvents = t.resourceEvents ++ (uses ++ removals) := hlogged.events
  have hown : (uses ++ removals).filter (fun ev => ev.turnId = turnId) = uses ++ removals := by
    rw [List.filter_eq_self]
    intro ev hev
    exact decide_eq_true (hlogged.mem hev).2
  refine ⟨uses ++ removals, ?_, ?_, ?_⟩
  · show m.resourceEvents.filter _ = _
    rw [hm, List.filter_append, hown]
    rfl
  · rw [writtenKeys, ← hkeys, ← hkeys', ← List.map_append, List.map_map]
    refine List.map_congr_left fun ev hev => ?_
    exact Prod.ext (hlogged.mem hev).1 rfl
  · intro hnil ev hev
    rw [hnil, List.map_eq_nil_iff] at hkeys'
    rw [hkeys', List.append_nil] at hev
    exact huses ev hev

theorem Attributed.turnEvents_ne (h : Attributed turnId now updateMap chainId t t')
    (hne : turnId ≠ x) : Context.turnEvents t' x = Context.turnEvents t x := by
  obtain ⟨_, _, m, uses, removals, _, _, _, hlogged, _, _, _, _, rfl⟩ := h
  have hm : m.resourceEvents = t.resourceEvents ++ (uses ++ removals) := hlogged.events
  have hother : (uses ++ removals).filter (fun ev => ev.turnId = x) = [] := by
    rw [List.filter_eq_nil_iff]
    intro ev hev hx
    exact hne ((hlogged.mem hev).2.symm.trans (of_decide_eq_true hx))
  show m.resourceEvents.filter _ = _
  rw [hm, List.filter_append, hother, List.append_nil]
  rfl

theorem Attributed.chainIds (h : Attributed turnId now updateMap chainId t t') :
    chainIds t' = chainIds t := by
  obtain ⟨chain, _, m, uses, removals, hchain, _, _, hlogged, _, _, _, _, rfl⟩ := h
  have hm : m.chains = t.chains := hlogged.chains
  show (m.chains.save (steppedChain now (uses ++ removals) chain)).rows.map _ = _
  rw [hm, Table.rows_save, List.map_map]
  refine List.map_congr_left fun c _ => ?_
  simp only [Function.comp]
  split
  · next hid => exact hid.symm
  · rfl

theorem Attributed.selections (h : Attributed turnId now updateMap chainId t t') :
    t'.selections = t.selections := by
  obtain ⟨_, _, m, _, _, _, _, _, hlogged, _, _, _, _, rfl⟩ := h
  exact hlogged.selections

/-! ## All target chains -/

theorem AttributedAll.linkedChains (h : AttributedAll turnId now updateMap ids t t') :
    Context.linkedChains t' turnId = Context.linkedChains t turnId ++ ids := by
  induction h with
  | nil => simp
  | cons hstep _ ih => rw [ih, hstep.linkedChains, List.append_assoc, List.singleton_append]

theorem AttributedAll.linkedChains_ne (h : AttributedAll turnId now updateMap ids t t')
    (hne : turnId ≠ x) : Context.linkedChains t' x = Context.linkedChains t x := by
  induction h with
  | nil => rfl
  | cons hstep _ ih => rw [ih, hstep.linkedChains_ne hne]

theorem AttributedAll.turnEvents (h : AttributedAll turnId now updateMap ids t t') :
    ∃ evs, Context.turnEvents t' turnId = Context.turnEvents t turnId ++ evs ∧
      evs.map ContextChainResourceEvent.address = ids.flatMap (writtenKeys updateMap) ∧
      ((∀ c ∈ ids, removedKeys (updateOf updateMap c) = []) → ∀ ev ∈ evs, isUse ev = true) := by
  induction h with
  | nil => exact ⟨[], by simp⟩
  | cons hstep _ ih =>
    obtain ⟨evs, hevs, hkeys, huses⟩ := hstep.turnEvents
    obtain ⟨rest, hrest, hkeys', huses'⟩ := ih
    refine ⟨evs ++ rest, ?_, ?_, ?_⟩
    · rw [hrest, hevs, List.append_assoc]
    · rw [List.map_append, hkeys, hkeys', List.flatMap_cons]
    · intro hnil ev hev
      rcases List.mem_append.mp hev with hev | hev
      · exact huses (hnil _ List.mem_cons_self) ev hev
      · exact huses' (fun c hc => hnil c (List.mem_cons_of_mem _ hc)) ev hev

theorem AttributedAll.turnEvents_ne (h : AttributedAll turnId now updateMap ids t t')
    (hne : turnId ≠ x) : Context.turnEvents t' x = Context.turnEvents t x := by
  induction h with
  | nil => rfl
  | cons hstep _ ih => rw [ih, hstep.turnEvents_ne hne]

theorem AttributedAll.chainIds (h : AttributedAll turnId now updateMap ids t t') :
    Context.chainIds t' = Context.chainIds t := by
  induction h with
  | nil => rfl
  | cons hstep _ ih => rw [ih, hstep.chainIds]

theorem AttributedAll.selections (h : AttributedAll turnId now updateMap ids t t') :
    t'.selections = t.selections := by
  induction h with
  | nil => rfl
  | cons hstep _ ih => rw [ih, hstep.selections]

end Steps

/-! ## The transaction -/

section Transaction

variable {drawnChainId : ChainId} {now : Time} {turnId x : TurnId} {command : CompleteTurnCommand}
  {db db' : Db} {result : CompleteTurnTransactionResult}

/-- The chain that is created, if any, is appended, and nothing else happens. -/
theorem createNewChain_eq_ok {conversationId : ConversationId} {newChainId : Option ChainId}
    {t t' : ContextTables} (h : createNewChain conversationId now newChainId t = .ok t') :
    t'.nodes = t.nodes ∧ t'.resourceEvents = t.resourceEvents ∧ t'.selections = t.selections ∧
      chainIds t' = chainIds t ++ newChainId.toList ∧
      ∀ chainId ∈ newChainId.toList, chainId ∉ chainIds t := by
  cases newChainId with
  | none =>
    obtain rfl := Except.ok.inj h
    simp
  | some chainId =>
    obtain ⟨chains, hchains, rfl⟩ := createChain_eq_ok h
    refine ⟨rfl, rfl, rfl, ?_, ?_⟩
    · show chains.rows.map _ = _
      rw [Table.rows_insert hchains, List.map_append]
      rfl
    · intro c hc hin
      obtain rfl := List.mem_singleton.mp hc
      obtain ⟨chain, hchain, hid⟩ := List.mem_map.mp hin
      exact Table.key_not_mem_of_insert hchains hchain hid

/-- A completion reads no other turn and writes nothing for it. -/
theorem completeTurn_ne (h : completeTurn drawnChainId now turnId command db = .ok (result, db'))
    (hne : turnId ≠ x) :
    db'.conversationTurns.get? x = db.conversationTurns.get? x ∧
      linkedChains db'.context x = linkedChains db.context x ∧
      turnEvents db'.context x = turnEvents db.context x := by
  cases completeTurn_cases h with
  | before _ _ _ _ _ hdb =>
    subst hdb
    exact ⟨rfl, rfl, rfl⟩
  | now turn _ _ t t' _ hturn _ _ _ hcreate hall _ hdb =>
    subst hdb
    obtain ⟨hnodes, hevents, -, -, -⟩ := createNewChain_eq_ok hcreate
    have hid : turn.turnId = turnId := Table.key_of_get? hturn
    have hkey : (completedTurn now command turn).turnId ≠ x := hid.symm ▸ hne
    refine ⟨Table.get?_save_ne hkey, ?_, ?_⟩
    · exact (hall.linkedChains_ne hne).trans (by rw [linkedChains, hnodes]; rfl)
    · exact (hall.turnEvents_ne hne).trans (by rw [turnEvents, hevents]; rfl)

/-- Only turns and the context tables are written, and no selection. -/
theorem completeTurn_frame
    (h : completeTurn drawnChainId now turnId command db = .ok (result, db')) :
    db'.plans = db.plans ∧ db'.tasks = db.tasks ∧ db'.taskExecutions = db.taskExecutions ∧
      db'.context.selections = db.context.selections := by
  cases completeTurn_cases h with
  | before _ _ _ _ _ hdb =>
    subst hdb
    exact ⟨rfl, rfl, rfl, rfl⟩
  | now _ _ _ _ _ _ _ _ _ _ hcreate hall _ hdb =>
    subst hdb
    obtain ⟨-, -, hselections, -, -⟩ := createNewChain_eq_ok hcreate
    exact ⟨rfl, rfl, rfl, hall.selections.trans hselections⟩

end Transaction

end DocFlow.Context
