import DocFlow.Database

/-!
# Opening a turn

The transactions of `ContextService.send_message`: the turn is created, the chains that are
selected for it are persisted, and a turn whose routing fails is marked.  The router that chooses
the chains stands between them; what it answers is an argument here.
-/

namespace DocFlow.Context

/-- The row of a turn that has just been created. -/
def routingTurn (turnId : TurnId) (conversationId : ConversationId) : ConversationTurn where
  turnId := turnId
  conversationId := conversationId
  status := .routing
  taskIds := []
  clarificationInput := none
  assistantContent := none
  assistantCompact := none
  taskResultSummary := none
  completedAt := none

/-- The write of `_create_turn_and_load_chains`. -/
def createTurn (turnId : TurnId) (conversationId : ConversationId) (db : Db) :
    Except Failure Db := do
  let turns ← orRaise (db.conversationTurns.insert (routingTurn turnId conversationId))
    .integrityError
  return db.setConversationTurns turns

/-- The checks on the chains of a selection. -/
def checkSelectedChains (conversationId : ConversationId) (t : ContextTables) :
    List ChainId → Except Failure Unit
  | [] => .ok ()
  | chainId :: chainIds => do
    let chain ← orRaise (t.chains.get? chainId)
      (.runtimeError ("Selected Context Chain disappeared: " ++ toString chainId))
    ensure (chain.conversationId = conversationId)
      (.runtimeError ("Selected Context Chain changed conversation: " ++ toString chainId))
    ensure (chain.archived = false)
      (.runtimeError ("Selected Context Chain was archived: " ++ toString chainId))
    checkSelectedChains conversationId t chainIds

/-- `_persist_context_selection`. -/
def persistContextSelection (turnId : TurnId) (conversationId : ConversationId)
    (relevantChainIds : List ChainId) (db : Db) : Except Failure Db := do
  let turn ← orRaise (db.conversationTurns.get? turnId)
    (.runtimeError "Context Turn disappeared before selection")
  ensure (turn.conversationId = conversationId)
    (.runtimeError "Context Turn conversation changed")
  ensure (turn.status = .routing) (.runtimeError "Context Turn is not awaiting selection")
  checkSelectedChains conversationId db.context relevantChainIds
  let selections ← orRaise
    (db.context.selections.insert ⟨conversationId, turnId, relevantChainIds⟩) .integrityError
  return (db.setContext { db.context with selections := selections }).saveTurn
    { turn with status := .contextReady }

/-- `_mark_turn_failed`. -/
def markTurnFailed (turnId : TurnId) (db : Db) : Db :=
  match db.conversationTurns.get? turnId with
  | none => db
  | some turn =>
    if turn.status = .routing then db.saveTurn { turn with status := .failed } else db

theorem persistContextSelection_eq_ok {turnId : TurnId} {conversationId : ConversationId}
    {relevantChainIds : List ChainId} {db db' : Db}
    (h : persistContextSelection turnId conversationId relevantChainIds db = .ok db') :
    ∃ turn selections, db.conversationTurns.get? turnId = some turn ∧ turn.status = .routing ∧
      db' = (db.setContext { db.context with selections := selections }).saveTurn
        { turn with status := .contextReady } := by
  simp only [persistContextSelection, bind_eq_ok, orRaise_eq_ok, ensure_eq_ok, pure_eq_ok] at h
  obtain ⟨turn, hturn, _, -, _, hst, _, -, selections, -, rfl⟩ := h
  exact ⟨turn, selections, hturn, hst, rfl⟩

end DocFlow.Context
