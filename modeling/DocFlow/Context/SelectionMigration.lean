import DocFlow.Conversation.SendMessage

/-!
# From route decisions to selection records

The migration renames the decisions of the router to selection records.  The router used to prepare
the completion of a turn: it made the new chain of the turn and a placeholder node in every chain of
it.  A turn now gets its nodes when it is completed, so the migration takes the nodes of the
unfinished turns away, and then every prepared chain that nothing is left of.

The ids of a decision are a JSON column, and no foreign key holds on to the chains they name.
A decision may select a chain that another unfinished turn has prepared; the two turns lose their
nodes together, the chain goes, and the id stays (`keepsReferences_iff`).
-/

namespace DocFlow.Context.SelectionMigration

open Conversation Planning

/-! ## The tables before -/

/-- `routed` is the status that the migration does away with. -/
inductive LegacyTurnStatus
  | routed
  | current (status : ContextTurnStatus)
deriving DecidableEq, Repr

structure LegacyTurn where
  turnId : TurnId
  conversationId : ConversationId
  status : LegacyTurnStatus
  taskIds : List TaskId
  clarificationInput : Option String
  assistantContent : Option String
  assistantCompact : Option String
  taskResultSummary : Option String
  completedAt : Option Time
deriving DecidableEq, Repr

/-- `route_mode` is overwritten and `create_new_chain` dropped, both unread. -/
structure ContextRouteDecision where
  conversationId : ConversationId
  currentTurnId : TurnId
  selectedChainIds : List ChainId
  newChainId : Option ChainId
deriving DecidableEq, Repr

structure LegacyDb where
  turns : Table LegacyTurn.turnId
  decisions : Table ContextRouteDecision.currentTurnId
  chains : Table ContextChain.chainId
  nodes : Table ContextChainNode.place
  resources : Table ContextChainResource.address
  resourceEvents : List ContextChainResourceEvent

/-! ## The tables after -/

structure UpgradedRecord where
  conversationId : ConversationId
  currentTurnId : TurnId
  relevantChainIds : List ChainId
  selectionMode : ContextSelectionMode
deriving DecidableEq, Repr

structure UpgradedDb where
  turns : Table ConversationTurn.turnId
  records : Table UpgradedRecord.currentTurnId
  chains : Table ContextChain.chainId
  nodes : Table ContextChainNode.place
  resources : Table ContextChainResource.address
  resourceEvents : List ContextChainResourceEvent

def UpgradedRecord.selection (r : UpgradedRecord) : ContextSelectionRecord where
  conversationId := r.conversationId
  currentTurnId := r.currentTurnId
  relevantChainIds := r.relevantChainIds

theorem UpgradedRecord.currentTurnId_selection (r : UpgradedRecord) :
    r.selection.currentTurnId = r.currentTurnId := rfl

def UpgradedDb.selections (t : UpgradedDb) : Table ContextSelectionRecord.currentTurnId :=
  t.records.mapTo ContextSelectionRecord.currentTurnId UpgradedRecord.selection
    UpgradedRecord.currentTurnId_selection

theorem UpgradedDb.mem_selections {t : UpgradedDb} {s : ContextSelectionRecord} :
    s ∈ t.selections ↔ ∃ r ∈ t.records, r.selection = s := by
  rw [selections, Table.mem_mapTo]

/-- The upgraded tables among the tables that the migration leaves alone. -/
def UpgradedDb.within (t : UpgradedDb) (db : Db) : Db :=
  { db with
    conversationTurns := t.turns
    context := ⟨t.selections, t.chains, t.nodes, t.resources, t.resourceEvents⟩ }

/-! ## The migration -/

/-- `UPDATE conversation_turns SET status = 'context_ready' WHERE status = 'routed'`. -/
def LegacyTurn.advance (t : LegacyTurn) : ConversationTurn where
  turnId := t.turnId
  conversationId := t.conversationId
  status := match t.status with
    | .routed => .contextReady
    | .current status => status
  taskIds := t.taskIds
  clarificationInput := t.clarificationInput
  assistantContent := t.assistantContent
  assistantCompact := t.assistantCompact
  taskResultSummary := t.taskResultSummary
  completedAt := t.completedAt

theorem LegacyTurn.turnId_advance (t : LegacyTurn) : t.advance.turnId = t.turnId := rfl

def advanceTurns (turns : Table LegacyTurn.turnId) : Table ConversationTurn.turnId :=
  turns.mapTo ConversationTurn.turnId LegacyTurn.advance LegacyTurn.turnId_advance

/-- The decision joins a turn whose status is `context_ready` or `processing`. -/
def ofUnfinishedTurn (turns : Table ConversationTurn.turnId) (r : ContextRouteDecision) : Bool :=
  turns.rows.any fun t => decide (t.turnId = r.currentTurnId ∧
    (t.status = .contextReady ∨ t.status = .processing))

/-- The join of the first `DELETE`. -/
def isPlaceholder (turns : Table ConversationTurn.turnId)
    (decisions : Table ContextRouteDecision.currentTurnId) (n : ContextChainNode) : Bool :=
  decisions.rows.any fun r => decide (r.currentTurnId = n.turnId) && ofUnfinishedTurn turns r

def deletePlaceholders (turns : Table ConversationTurn.turnId)
    (decisions : Table ContextRouteDecision.currentTurnId) (nodes : Table ContextChainNode.place) :
    Table ContextChainNode.place :=
  nodes.filter fun n => !isPlaceholder turns decisions n

/-- The join of the second `DELETE`; `nodes` are those that the first one has left. -/
def isEmptyPrepared (turns : Table ConversationTurn.turnId)
    (decisions : Table ContextRouteDecision.currentTurnId) (nodes : Table ContextChainNode.place)
    (resources : Table ContextChainResource.address)
    (resourceEvents : List ContextChainResourceEvent) (c : ContextChain) : Bool :=
  decisions.rows.any fun r => decide (r.newChainId = some c.chainId) && ofUnfinishedTurn turns r &&
    nodes.rows.all (fun n => decide (n.chainId ≠ c.chainId)) &&
    resources.rows.all (fun cr => decide (cr.chainId ≠ c.chainId)) &&
    resourceEvents.all fun ce => decide (ce.chainId ≠ c.chainId)

/-- The `CASE` over `JSON_LENGTH(relevant_chain_ids)`. -/
def deriveMode (relevantChainIds : List ChainId) : ContextSelectionMode :=
  if relevantChainIds.length = 0 then .noContext
  else if relevantChainIds.length = 1 then .singleContext
  else .multiContext

def ContextRouteDecision.upgraded (r : ContextRouteDecision) : UpgradedRecord where
  conversationId := r.conversationId
  currentTurnId := r.currentTurnId
  relevantChainIds := r.selectedChainIds
  selectionMode := deriveMode r.selectedChainIds

theorem ContextRouteDecision.currentTurnId_upgraded (r : ContextRouteDecision) :
    r.upgraded.currentTurnId = r.currentTurnId := rfl

def upgradeRecords (decisions : Table ContextRouteDecision.currentTurnId) :
    Table UpgradedRecord.currentTurnId :=
  decisions.mapTo UpgradedRecord.currentTurnId ContextRouteDecision.upgraded
    ContextRouteDecision.currentTurnId_upgraded

def upgrade (db : LegacyDb) : UpgradedDb :=
  let turns := advanceTurns db.turns
  let nodes := deletePlaceholders turns db.decisions db.nodes
  { turns
    records := upgradeRecords db.decisions
    chains := db.chains.filter fun c =>
      !isEmptyPrepared turns db.decisions nodes db.resources db.resourceEvents c
    nodes
    resources := db.resources
    resourceEvents := db.resourceEvents }

/-! ## What the migration is for -/

/-- The conflict that the planner ends with when a selected chain is missing. -/
def IsChainMissing (e : Failure) : Prop :=
  ∃ statusCode message, e = .applicationError statusCode message "context_selection_chain_missing"

/-- The references are whole after the migration, and only what no turn rests on is gone. -/
structure KeepsReferences (before : LegacyDb) (after : UpgradedDb) : Prop where
  references : ∀ r ∈ after.records, ∀ chainId ∈ r.relevantChainIds,
    ∃ c ∈ after.chains, c.chainId = chainId
  modes : ∀ r ∈ after.records, r.selectionMode = deriveContextSelectionMode r.relevantChainIds
  nodes : ∀ n ∈ before.nodes, (∃ t ∈ before.turns, t.turnId = n.turnId ∧
    (t.status = .current .completed ∨ t.status = .current .failed)) → n ∈ after.nodes
  chains : ∀ c ∈ before.chains, ((∃ n ∈ after.nodes, n.chainId = c.chainId) ∨
    (∃ cr ∈ after.resources, cr.chainId = c.chainId) ∨
      ∃ ce ∈ after.resourceEvents, ce.chainId = c.chainId) → c ∈ after.chains
  plannable : ∀ t ∈ after.turns, t.status = .contextReady → ∀ command : RunPlanningInput,
    command.turnId = t.turnId → ∀ (db : Db) (e : Failure),
      loadPlannableSnapshot command [.contextReady] (after.within db) = .error e →
        ¬ IsChainMissing e

/-- Each id of a decision names a chain of its conversation. -/
def SelectsChains (before : LegacyDb) : Prop :=
  ∀ r ∈ before.decisions, ∀ chainId ∈ r.selectedChainIds,
    ∃ c ∈ before.chains, c.chainId = chainId ∧ c.conversationId = r.conversationId

/-- The turn has been routed and has not come to an end. -/
def Unfinished (before : LegacyDb) (turnId : TurnId) : Prop :=
  (∃ r ∈ before.decisions, r.currentTurnId = turnId) ∧ ∃ t ∈ before.turns, t.turnId = turnId ∧
    (t.status = .routed ∨ t.status = .current .contextReady ∨ t.status = .current .processing)

/-- An unfinished turn has prepared the chain, and nothing else has come into it but unfinished
turns. -/
structure OnlyPrepared (before : LegacyDb) (chainId : ChainId) : Prop where
  prepared : ∃ r ∈ before.decisions, r.newChainId = some chainId ∧
    Unfinished before r.currentTurnId
  nodes : ∀ n ∈ before.nodes, n.chainId = chainId → Unfinished before n.turnId
  resources : ∀ cr ∈ before.resources, cr.chainId ≠ chainId
  resourceEvents : ∀ ce ∈ before.resourceEvents, ce.chainId ≠ chainId

/-! ## What the statements delete -/

section Deletes

variable {before : LegacyDb}

theorem advance_status {t : LegacyTurn} : (t.advance.status = .contextReady ∨
    t.advance.status = .processing) ↔ (t.status = .routed ∨ t.status = .current .contextReady ∨
      t.status = .current .processing) := by
  unfold LegacyTurn.advance
  cases t.status with
  | routed => simp
  | current status => simp

theorem ofUnfinishedTurn_iff {r : ContextRouteDecision} (hr : r ∈ before.decisions) :
    ofUnfinishedTurn (advanceTurns before.turns) r = true ↔ Unfinished before r.currentTurnId := by
  rw [ofUnfinishedTurn, List.any_eq_true]
  constructor
  · rintro ⟨t, ht, hjoin⟩
    obtain ⟨t, ht', rfl⟩ := Table.mem_mapTo.mp ht
    obtain ⟨hid, hstatus⟩ := of_decide_eq_true hjoin
    exact ⟨⟨r, hr, rfl⟩, t, ht', hid, advance_status.mp hstatus⟩
  · rintro ⟨-, t, ht, hid, hstatus⟩
    exact ⟨t.advance, Table.mem_mapTo.mpr ⟨t, ht, rfl⟩,
      decide_eq_true ⟨hid, advance_status.mpr hstatus⟩⟩

theorem isPlaceholder_iff {n : ContextChainNode} :
    isPlaceholder (advanceTurns before.turns) before.decisions n = true ↔
      Unfinished before n.turnId := by
  rw [isPlaceholder, List.any_eq_true]
  constructor
  · rintro ⟨r, hr, hjoin⟩
    obtain ⟨hid, hturn⟩ := Bool.and_eq_true_iff.mp hjoin
    rw [← of_decide_eq_true hid]
    exact (ofUnfinishedTurn_iff hr).mp hturn
  · intro hturn
    obtain ⟨r, hr, hid⟩ := hturn.1
    refine ⟨r, hr, Bool.and_eq_true_iff.mpr ⟨decide_eq_true hid, ?_⟩⟩
    rw [ofUnfinishedTurn_iff hr, hid]
    exact hturn

theorem mem_upgrade_nodes {n : ContextChainNode} :
    n ∈ (upgrade before).nodes ↔ n ∈ before.nodes ∧ ¬ Unfinished before n.turnId := by
  show n ∈ deletePlaceholders _ _ _ ↔ _
  rw [deletePlaceholders, Table.mem_filter, Bool.not_eq_true', ← Bool.not_eq_true,
    isPlaceholder_iff]

theorem isEmptyPrepared_iff {c : ContextChain} :
    isEmptyPrepared (advanceTurns before.turns) before.decisions (upgrade before).nodes
      before.resources before.resourceEvents c = true ↔ OnlyPrepared before c.chainId := by
  simp only [isEmptyPrepared, List.any_eq_true, Bool.and_eq_true, List.all_eq_true,
    decide_eq_true_eq]
  constructor
  · rintro ⟨r, hr, ⟨⟨⟨hnew, hturn⟩, hnodes⟩, hresources⟩, hevents⟩
    refine ⟨⟨r, hr, hnew, (ofUnfinishedTurn_iff hr).mp hturn⟩, fun n hn hchain => ?_, hresources,
      hevents⟩
    by_contra hfinished
    exact hnodes n (mem_upgrade_nodes.mpr ⟨hn, hfinished⟩) hchain
  · rintro ⟨⟨r, hr, hnew, hturn⟩, hnodes, hresources, hevents⟩
    refine ⟨r, hr, ⟨⟨⟨hnew, (ofUnfinishedTurn_iff hr).mpr hturn⟩, ?_⟩, hresources⟩, hevents⟩
    intro n hn hchain
    obtain ⟨hn, hfinished⟩ := mem_upgrade_nodes.mp hn
    exact hfinished (hnodes n hn hchain)

theorem mem_upgrade_chains {c : ContextChain} :
    c ∈ (upgrade before).chains ↔ c ∈ before.chains ∧ ¬ OnlyPrepared before c.chainId := by
  show c ∈ Table.filter before.chains _ ↔ _
  rw [Table.mem_filter, Bool.not_eq_true', ← Bool.not_eq_true]
  exact and_congr_right fun _ => not_congr isEmptyPrepared_iff

theorem mem_upgrade_records {x : UpgradedRecord} :
    x ∈ (upgrade before).records ↔ ∃ r ∈ before.decisions, r.upgraded = x := by
  show x ∈ upgradeRecords before.decisions ↔ _
  rw [upgradeRecords, Table.mem_mapTo]

end Deletes

theorem deriveMode_eq (relevantChainIds : List ChainId) :
    deriveMode relevantChainIds = deriveContextSelectionMode relevantChainIds := by
  unfold deriveMode deriveContextSelectionMode
  match hlen : relevantChainIds.length with
  | 0 => rfl
  | 1 => rfl
  | n + 2 => rfl

/-! ## The planner's snapshot -/

theorem not_chainMissing {statusCode : Nat} {message resultCode : String}
    (h : resultCode ≠ "context_selection_chain_missing") :
    ¬ IsChainMissing (.applicationError statusCode message resultCode) := by
  rintro ⟨statusCode', message', heq⟩
  exact h (Failure.applicationError.inj heq).2.2

/-- The chains load without a missing one when they are all there. -/
theorem plannableChains_error {conversationId : ConversationId} {t : ContextTables}
    (chainIds : List ChainId) (h : ∀ chainId ∈ chainIds, ∃ c ∈ t.chains, c.chainId = chainId)
    (e : Failure) (he : plannableChains conversationId t chainIds = .error e) :
    ¬ IsChainMissing e := by
  induction chainIds with
  | nil => cases he
  | cons chainId chainIds ih =>
    obtain ⟨c, hc, rfl⟩ := h chainId List.mem_cons_self
    simp only [plannableChains, bind_eq_error, orRaise_eq_error, Table.get?_of_mem hc,
      ensure_eq_error, pure_ne_error] at he
    rcases he with ⟨hnone, -⟩ | ⟨_, -, ⟨-, rfl⟩ | ⟨_, -, he | ⟨_, -, hfalse⟩⟩⟩
    · cases hnone
    · exact not_chainMissing (by decide)
    · exact ih (fun x hx => h x (List.mem_cons_of_mem _ hx)) he
    · exact hfalse.elim

theorem snapshot_error {command : RunPlanningInput} {allowed : List ContextTurnStatus} {db : Db}
    (h : ∀ r ∈ db.context.selections, ∀ chainId ∈ r.relevantChainIds,
      ∃ c ∈ db.context.chains, c.chainId = chainId)
    {e : Failure} (he : loadPlannableSnapshot command allowed db = .error e) :
    ¬ IsChainMissing e := by
  simp only [loadPlannableSnapshot, bind_eq_error, orRaise_eq_error, orRaise_eq_ok,
    ensure_eq_error] at he
  rcases he with ⟨-, rfl⟩ | ⟨_, -, ⟨-, rfl⟩ | ⟨_, -, ⟨-, rfl⟩ | ⟨_, -, ⟨-, rfl⟩ |
    ⟨selection, hselection, ⟨-, rfl⟩ | ⟨_, -, he⟩⟩⟩⟩⟩
  · exact not_chainMissing (by decide)
  · exact not_chainMissing (by decide)
  · exact not_chainMissing (by decide)
  · exact not_chainMissing (by decide)
  · exact not_chainMissing (by decide)
  · exact plannableChains_error selection.relevantChainIds
      (h selection (Table.mem_of_get? hselection)) e he

/-! ## When the references stay whole -/

/-- Whether the references are whole decides the rest. -/
theorem keepsReferences_of_references {before : LegacyDb}
    (h : ∀ r ∈ (upgrade before).records, ∀ chainId ∈ r.relevantChainIds,
      ∃ c ∈ (upgrade before).chains, c.chainId = chainId) :
    KeepsReferences before (upgrade before) where
  references := h
  modes x hx := by
    obtain ⟨r, -, rfl⟩ := mem_upgrade_records.mp hx
    exact deriveMode_eq r.selectedChainIds
  nodes n hn := by
    rintro ⟨t, ht, hid, hfinished⟩
    refine mem_upgrade_nodes.mpr ⟨hn, ?_⟩
    rintro ⟨-, t', ht', hid', hstatus⟩
    obtain rfl := Table.eq_of_key ht ht' (hid.trans hid'.symm)
    rcases hfinished with hcompleted | hfailed
    · rw [hcompleted] at hstatus
      revert hstatus
      decide
    · rw [hfailed] at hstatus
      revert hstatus
      decide
  chains c hc hleft := by
    refine mem_upgrade_chains.mpr ⟨hc, fun hgone => ?_⟩
    rcases hleft with ⟨n, hn, hchain⟩ | ⟨cr, hcr, hchain⟩ | ⟨ce, hce, hchain⟩
    · obtain ⟨hn, hfinished⟩ := mem_upgrade_nodes.mp hn
      exact hfinished (hgone.nodes n hn hchain)
    · exact hgone.resources cr hcr hchain
    · exact hgone.resourceEvents ce hce hchain
  plannable t _ _ command _ db e he := by
    refine snapshot_error (fun r hr chainId hchain => ?_) he
    obtain ⟨x, hx, rfl⟩ := UpgradedDb.mem_selections.mp hr
    exact h x hx chainId hchain

/-- **The migration keeps the references exactly when no decision selects a chain that an unfinished
turn has prepared and that only unfinished turns have come into.** -/
theorem keepsReferences_iff (before : LegacyDb) (hselects : SelectsChains before) :
    KeepsReferences before (upgrade before) ↔
      ∀ r ∈ before.decisions, ∀ chainId ∈ r.selectedChainIds, ¬ OnlyPrepared before chainId := by
  constructor
  · intro h r hr chainId hchain hgone
    obtain ⟨c, hc, rfl⟩ :=
      h.references r.upgraded (mem_upgrade_records.mpr ⟨r, hr, rfl⟩) chainId hchain
    exact (mem_upgrade_chains.mp hc).2 hgone
  · intro h
    refine keepsReferences_of_references fun x hx chainId hchain => ?_
    obtain ⟨r, hr, rfl⟩ := mem_upgrade_records.mp hx
    obtain ⟨c, hc, hid, -⟩ := hselects r hr chainId hchain
    exact ⟨c, mem_upgrade_chains.mpr ⟨hc, hid ▸ h r hr chainId hchain⟩, hid⟩

/-! ## Two turns on one prepared chain -/

def sampleTurn (turnId : TurnId) (status : LegacyTurnStatus) : LegacyTurn where
  turnId := turnId
  conversationId := 1
  status := status
  taskIds := []
  clarificationInput := none
  assistantContent := none
  assistantCompact := none
  taskResultSummary := none
  completedAt := none

/-- Turn 1 has prepared chain 10, and turn 2 selects it; both have their placeholder in it. -/
def sharedDb (first : LegacyTurnStatus) : LegacyDb where
  turns := ⟨[sampleTurn 1 first, sampleTurn 2 .routed], by simp [sampleTurn]⟩
  decisions := ⟨[⟨1, 1, [], some 10⟩, ⟨1, 2, [10], none⟩], by decide⟩
  chains := .single ⟨10, 1, 0, 5, false⟩
  nodes := ⟨[⟨10, 1, 0, [], []⟩, ⟨10, 2, 1, [], []⟩], by decide⟩
  resources := .empty
  resourceEvents := []

theorem selectsChains_shared (first : LegacyTurnStatus) : SelectsChains (sharedDb first) := by
  have hrows : ∀ r ∈ [(⟨1, 1, [], some 10⟩ : ContextRouteDecision), ⟨1, 2, [10], none⟩],
      r.conversationId = 1 ∧ ∀ chainId ∈ r.selectedChainIds, chainId = 10 := by decide
  intro r hr chainId hchain
  obtain ⟨hconv, hids⟩ := hrows r hr
  exact ⟨⟨10, 1, 0, 5, false⟩, List.mem_singleton.mpr rfl, (hids chainId hchain).symm, hconv.symm⟩

/-- Once turn 1 is completed, its node holds the chain. -/
theorem keepsReferences_shared :
    KeepsReferences (sharedDb (.current .completed)) (upgrade (sharedDb (.current .completed))) := by
  refine (keepsReferences_iff _ (selectsChains_shared _)).mpr fun r hr chainId hchain hgone => ?_
  have hrows : ∀ r ∈ [(⟨1, 1, [], some 10⟩ : ContextRouteDecision), ⟨1, 2, [10], none⟩],
      ∀ chainId ∈ r.selectedChainIds, chainId = 10 := by decide
  obtain rfl := hrows r hr chainId hchain
  obtain ⟨-, t, ht, hid, hstatus⟩ := hgone.nodes ⟨10, 1, 0, [], []⟩ List.mem_cons_self rfl
  have hturns : ∀ t ∈ [sampleTurn 1 (.current .completed), sampleTurn 2 .routed], t.turnId = 1 →
      t.status = .current .completed := by decide
  rw [hturns t ht hid] at hstatus
  revert hstatus
  decide

/-- While turn 1 is on its way, the chain goes with the two nodes, and turn 2 still names it. -/
theorem shared_chain_lost : SelectsChains (sharedDb .routed) ∧
    ¬ KeepsReferences (sharedDb .routed) (upgrade (sharedDb .routed)) := by
  refine ⟨selectsChains_shared .routed, fun h => ?_⟩
  have hrecord : (⟨1, 2, [10], none⟩ : ContextRouteDecision).upgraded ∈
      (upgrade (sharedDb .routed)).records :=
    mem_upgrade_records.mpr ⟨_, List.mem_cons_of_mem _ List.mem_cons_self, rfl⟩
  obtain ⟨c, hc, -⟩ := h.references _ hrecord 10 (List.mem_singleton.mpr rfl)
  have hnone : (upgrade (sharedDb .routed)).chains.rows = [] := by decide
  rw [Table.mem_iff, hnone] at hc
  exact List.not_mem_nil hc

end DocFlow.Context.SelectionMigration
