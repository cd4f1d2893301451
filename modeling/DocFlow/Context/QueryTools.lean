import DocFlow.AgentRuntime.ToolCalls
import DocFlow.Context.Domain
import DocFlow.Lib.Listing
import DocFlow.Lib.PyString
import Mathlib.Data.Finset.Sort
import Mathlib.Data.Prod.Lex

/-!
# The query tools of the context module

A tool checks the ids of a request against the allowed ones, puts the conversation and the ids into
the query, and hands it to the repository, which builds its filter from the parts of the query that
are there.

An id is a number here, and the descending orders of the listings are orders of `OrderDual`.
-/

namespace DocFlow.Context

open DocFlow.AgentRuntime

/-! ## Rows -/

/-- A turn, with the columns that only the queries read. -/
structure TurnRow extends ConversationTurn where
  userInput : String
  createdAt : Time
deriving DecidableEq, Repr

def TurnRow.id (t : TurnRow) : TurnId := t.turnId

structure ChainRow extends ContextChain where
  createdAt : Time
deriving DecidableEq, Repr

def ChainRow.id (c : ChainRow) : ChainId := c.chainId

structure NodeRow extends ContextChainNode where
  nodeId : Nat
  createdAt : Time
deriving DecidableEq, Repr

structure ResourceRow extends ContextChainResource where
  id : Nat
deriving DecidableEq, Repr

/-- The tables that the queries read. -/
structure QueryTables where
  turns : Table TurnRow.id
  chains : Table ChainRow.id
  nodes : Table NodeRow.nodeId
  resources : Table ResourceRow.id

def turnStatusValue : ContextTurnStatus → String
  | .routing => "routing"
  | .contextReady => "context_ready"
  | .processing => "processing"
  | .completed => "completed"
  | .failed => "failed"
  | .needsClarification => "needs_clarification"

/-! ## Queries -/

/-- A range of times, the ends included.  An end that is missing is not checked. -/
structure TimeRange where
  start : Option Time
  stop : Option Time
  valid : ∀ f ∈ start, ∀ e ∈ stop, f ≤ e

def TimeRange.contains (w : TimeRange) (t : Time) : Prop :=
  (∀ f ∈ w.start, f ≤ t) ∧ ∀ e ∈ w.stop, t ≤ e

/-- A comparison with `NULL` is not true. -/
def TimeRange.containsSome (w : TimeRange) (t : Option Time) : Prop :=
  (∀ f ∈ w.start, ∃ x ∈ t, f ≤ x) ∧ ∀ e ∈ w.stop, ∃ x ∈ t, x ≤ e

instance (w : TimeRange) (t : Time) : Decidable (w.contains t) := inferInstanceAs (Decidable (_ ∧ _))

instance (w : TimeRange) (t : Option Time) : Decidable (w.containsSome t) :=
  inferInstanceAs (Decidable (_ ∧ _))

/-- The rows of a page: at most `limit` after the first `offset`. -/
structure PageRange where
  limit : Nat
  offset : Nat
  valid : 1 ≤ limit ∧ limit ≤ 100

structure ConversationTurnSearchQuery where
  conversationId : Option ConversationId
  turnIds : List TurnId
  turnStatuses : List String
  created : TimeRange
  completed : TimeRange
  page : PageRange

structure ContextChainSearchQuery where
  conversationId : Option ConversationId
  chainIds : List ChainId
  archived : Option Bool
  created : TimeRange
  page : PageRange

structure ContextChainNodeSearchQuery where
  conversationId : Option ConversationId
  chainId : Option ChainId
  chainIds : List ChainId
  turnId : Option TurnId
  turnIds : List TurnId
  created : TimeRange
  page : PageRange

structure ContextChainResourceSearchQuery where
  conversationId : Option ConversationId
  chainId : Option ChainId
  chainIds : List ChainId
  resourceType : Option String
  resourceId : Option String
  active : Option Bool
  lastSeen : TimeRange
  page : PageRange

/-! ## The repository -/

/-- A filter that is left out when it is `None`. -/
def given {α : Type} (filter : Option α) (p : α → Prop) : Prop := ∀ x ∈ filter, p x

instance {α : Type} (filter : Option α) (p : α → Prop) [DecidablePred p] :
    Decidable (given filter p) := inferInstanceAs (Decidable (∀ x ∈ filter, p x))

/-- `column.in_(values)`, left out when there are no values. -/
def oneOf {α : Type} (values : List α) (x : α) : Prop := values = [] ∨ x ∈ values

instance {α : Type} [DecidableEq α] (values : List α) (x : α) : Decidable (oneOf values x) :=
  inferInstanceAs (Decidable (_ ∨ _))

/-- `_turn_search_query`. -/
def turnMatches (q : ConversationTurnSearchQuery) (t : TurnRow) : Prop :=
  given q.conversationId (t.conversationId = ·) ∧ oneOf q.turnIds t.turnId ∧
    oneOf q.turnStatuses (turnStatusValue t.status) ∧ q.created.contains t.createdAt ∧
    q.completed.containsSome t.completedAt

/-- `_chain_search_query`. -/
def chainMatches (q : ContextChainSearchQuery) (c : ChainRow) : Prop :=
  given q.conversationId (c.conversationId = ·) ∧ oneOf q.chainIds c.chainId ∧
    given q.archived (c.archived = ·) ∧ q.created.contains c.createdAt

/-- The join with the chains, and the filter on their conversation. -/
def chainInConversation (chains : Table ChainRow.id) (conversationId : Option ConversationId)
    (chainId : ChainId) : Prop :=
  given conversationId fun conversation =>
    ∃ c ∈ chains.rows, c.chainId = chainId ∧ c.conversationId = conversation

/-- `_node_search_query`. -/
def nodeMatches (chains : Table ChainRow.id) (q : ContextChainNodeSearchQuery) (n : NodeRow) : Prop :=
  chainInConversation chains q.conversationId n.chainId ∧
    given q.chainId (n.chainId = ·) ∧ oneOf q.chainIds n.chainId ∧
    given q.turnId (n.turnId = ·) ∧ oneOf q.turnIds n.turnId ∧ q.created.contains n.createdAt

/-- `_resource_search_query`. -/
def resourceMatches (chains : Table ChainRow.id) (q : ContextChainResourceSearchQuery)
    (r : ResourceRow) : Prop :=
  chainInConversation chains q.conversationId r.chainId ∧
    given q.chainId (r.chainId = ·) ∧ oneOf q.chainIds r.chainId ∧
    given q.resourceType (r.resourceType = ·) ∧ given q.resourceId (r.resourceId = ·) ∧
    given q.active (r.active = ·) ∧ q.lastSeen.contains r.lastSeenAt

instance (q : ConversationTurnSearchQuery) : DecidablePred (turnMatches q) :=
  fun _ => inferInstanceAs (Decidable (_ ∧ _))

instance (q : ContextChainSearchQuery) : DecidablePred (chainMatches q) :=
  fun _ => inferInstanceAs (Decidable (_ ∧ _))

instance (chains : Table ChainRow.id) (conversationId : Option ConversationId) (chainId : ChainId) :
    Decidable (chainInConversation chains conversationId chainId) :=
  inferInstanceAs (Decidable (given _ _))

instance (chains : Table ChainRow.id) (q : ContextChainNodeSearchQuery) :
    DecidablePred (nodeMatches chains q) := fun _ => inferInstanceAs (Decidable (_ ∧ _))

instance (chains : Table ChainRow.id) (q : ContextChainResourceSearchQuery) :
    DecidablePred (resourceMatches chains q) := fun _ => inferInstanceAs (Decidable (_ ∧ _))

/-- One page of a listing, with the number of all rows found. -/
structure ListResult (ρ : Type) where
  items : List ρ
  total : Nat
  limit : Nat
  offset : Nat
deriving DecidableEq, Repr

/-- `search_*` and `count_*`. -/
def PageRange.of {ρ : Type} (page : PageRange) (sorted : List ρ) (total : Nat) : ListResult ρ :=
  ⟨(sorted.drop page.offset).take page.limit, total, page.limit, page.offset⟩

namespace QueryTables

/-- `created_at.desc(), turn_id.desc()`. -/
def turnOrder (t : TurnRow) : Timeᵒᵈ ×ₗ TurnIdᵒᵈ :=
  toLex (OrderDual.toDual t.createdAt, OrderDual.toDual t.turnId)

/-- `last_active_at.desc(), chain_id.asc()`. -/
def chainOrder (c : ChainRow) : Timeᵒᵈ ×ₗ ChainId :=
  toLex (OrderDual.toDual c.lastActiveAt, c.chainId)

/-- `chain_id.asc(), sequence.asc(), node_id.asc()`. -/
def nodeOrder (n : NodeRow) : ChainId ×ₗ Nat ×ₗ Nat := toLex (n.chainId, toLex (n.sequence, n.nodeId))

/-- `last_seen_at.desc(), id.desc()`. -/
def resourceOrder (r : ResourceRow) : Timeᵒᵈ ×ₗ Natᵒᵈ :=
  toLex (OrderDual.toDual r.lastSeenAt, OrderDual.toDual r.id)

def listTurns (db : QueryTables) (q : ConversationTurnSearchQuery) : ListResult TurnRow :=
  q.page.of (sortedBy turnOrder (db.turns.select (turnMatches q)))
    (db.turns.select (turnMatches q)).length

def listChains (db : QueryTables) (q : ContextChainSearchQuery) : ListResult ChainRow :=
  q.page.of (sortedBy chainOrder (db.chains.select (chainMatches q)))
    (db.chains.select (chainMatches q)).length

def listNodes (db : QueryTables) (q : ContextChainNodeSearchQuery) : ListResult NodeRow :=
  q.page.of (sortedBy nodeOrder (db.nodes.select (nodeMatches db.chains q)))
    (db.nodes.select (nodeMatches db.chains q)).length

def listResources (db : QueryTables) (q : ContextChainResourceSearchQuery) :
    ListResult ResourceRow :=
  q.page.of (sortedBy resourceOrder (db.resources.select (resourceMatches db.chains q)))
    (db.resources.select (resourceMatches db.chains q)).length

end QueryTables

/-! ## The tools -/

/-- What is read of a turn. -/
structure ConversationTurnQueryResult where
  turnId : TurnId
  conversationId : ConversationId
  userInput : String
  assistantContent : Option String
  assistantCompact : Option String
  taskIds : List TaskId
  taskResultSummary : Option String
  status : ContextTurnStatus
  createdAt : Time
  completedAt : Option Time
deriving DecidableEq, Repr

def TurnRow.result (t : TurnRow) : ConversationTurnQueryResult :=
  ⟨t.turnId, t.conversationId, t.userInput, t.assistantContent, t.assistantCompact, t.taskIds,
    t.taskResultSummary, t.status, t.createdAt, t.completedAt⟩

/-- `ContextQueryError(404, detail)`. -/
def contextQueryNotFound (detail : String) : ToolException :=
  ⟨.other, some 404, some detail, some "context_resource_not_found", false⟩

/-- Which of the use cases and services have been injected. -/
structure ContextToolServices where
  queryService : Bool
  getConversationTurn : Bool
  listConversationTurns : Bool
  getContextChain : Bool
  listContextChains : Bool
  listContextChainNodes : Bool
  listContextChainResources : Bool
deriving DecidableEq, Repr

/-- The fields of `AgentToolContext` that the query tools read. -/
structure AgentToolContext where
  conversationId : Option ConversationId
  turnId : Option TurnId
  permissions : Finset String
  services : ContextToolServices
  allowedContextChainIds : Finset ChainId
  allowedContextTurnIds : Finset TurnId

/-- `_conversation_scope`. -/
def conversationScope (ctx : AgentToolContext) (requested : Option ConversationId) :
    Except ToolException ConversationId :=
  match ctx.conversationId with
  | none => .error agentToolScopeError
  | some conversationId =>
    if given requested (· = conversationId) then .ok conversationId else .error agentToolScopeError

/-- `_allowed_ids`. -/
def allowedIds (requested : List Nat) (allowed : Finset Nat) : Except ToolException (List Nat) :=
  let normalized := PyString.fromKeys requested
  if ∀ x ∈ normalized, x ∈ allowed then
    .ok (if normalized = [] then allowed.sort (· ≤ ·) else normalized)
  else .error agentToolScopeError

/-- `_require_allowed_id`. -/
def requireAllowedId (value : Nat) (allowed : Finset Nat) : Except ToolException Unit :=
  if value ∈ allowed then .ok () else .error agentToolScopeError

/-- The use case, or else the query service.  The use cases only call the service. -/
def requireService (services : ContextToolServices) (useCase : Bool) : Except ToolException Unit :=
  if useCase ∨ services.queryService then .ok () else .error toolNotAvailableError

/-- The result of a listing that is empty without a query. -/
def emptyList {ρ : Type} (page : PageRange) : ListResult ρ := ⟨[], 0, page.limit, page.offset⟩

section Tools

variable (ctx : AgentToolContext) (db : QueryTables)

/-- `_get_conversation_turn`. -/
def getConversationTurn (turnId : TurnId) : Except ToolException ConversationTurnQueryResult := do
  requireAllowedId turnId ctx.allowedContextTurnIds
  requireService ctx.services ctx.services.getConversationTurn
  match db.turns.get? turnId with
  | none => .error (contextQueryNotFound "Context Turn 不存在")
  | some t => .ok t.result

/-- `_list_conversation_turns`. -/
def listConversationTurns (query : ConversationTurnSearchQuery) :
    Except ToolException (ListResult ConversationTurnQueryResult) := do
  let conversationId ← conversationScope ctx query.conversationId
  let turnIds ← allowedIds query.turnIds ctx.allowedContextTurnIds
  requireService ctx.services ctx.services.listConversationTurns
  let found := db.listTurns { query with conversationId := some conversationId, turnIds := turnIds }
  return ⟨found.items.map TurnRow.result, found.total, found.limit, found.offset⟩

/-- `_get_context_chain`. -/
def getContextChain (chainId : ChainId) : Except ToolException ChainRow := do
  requireAllowedId chainId ctx.allowedContextChainIds
  requireService ctx.services ctx.services.getContextChain
  match db.chains.get? chainId with
  | none => .error (contextQueryNotFound "Context Chain 不存在")
  | some c => .ok c

/-- `_list_context_chains`. -/
def listContextChains (query : ContextChainSearchQuery) :
    Except ToolException (ListResult ChainRow) := do
  let conversationId ← conversationScope ctx query.conversationId
  let chainIds ← allowedIds query.chainIds ctx.allowedContextChainIds
  if chainIds = [] then return emptyList query.page
  requireService ctx.services ctx.services.listContextChains
  return db.listChains { query with conversationId := some conversationId, chainIds := chainIds }

/-- The allowed turns without the current one. -/
def historicalTurnIds : Finset TurnId := ctx.allowedContextTurnIds.filter fun t => some t ≠ ctx.turnId

/-- `_list_context_chain_nodes`: the nodes of the current turn are not history. -/
def listContextChainNodes (query : ContextChainNodeSearchQuery) :
    Except ToolException (ListResult NodeRow) := do
  let conversationId ← conversationScope ctx query.conversationId
  let chainIds ← allowedIds (query.chainIds ++ query.chainId.toList) ctx.allowedContextChainIds
  let turnIds ← allowedIds (query.turnIds ++ query.turnId.toList) (historicalTurnIds ctx)
  if chainIds = [] ∨ turnIds = [] then return emptyList query.page
  requireService ctx.services ctx.services.listContextChainNodes
  return db.listNodes { query with
    conversationId := some conversationId, chainId := none, chainIds := chainIds, turnId := none,
    turnIds := turnIds }

/-- `_list_context_chain_resources`. -/
def listContextChainResources (query : ContextChainResourceSearchQuery) :
    Except ToolException (ListResult ResourceRow) := do
  let conversationId ← conversationScope ctx query.conversationId
  let chainIds ← allowedIds (query.chainIds ++ query.chainId.toList) ctx.allowedContextChainIds
  if chainIds = [] then return emptyList query.page
  requireService ctx.services ctx.services.listContextChainResources
  return db.listResources { query with
    conversationId := some conversationId, chainId := none, chainIds := chainIds }

end Tools

/-! ## The handlers -/

/-- The envelope of a tool result; an outcome that is absent is `succeeded`. -/
structure ContextToolResult where
  outcome : Option ToolOutcome
  resultCode : String
  message : String
  retryable : Bool
  resourceRefs : List String
deriving DecidableEq, Repr

/-- The envelope of an error. -/
def ContextToolResult.ofError (error : ToolErrorDetails) : ContextToolResult :=
  ⟨some error.outcome, error.resultCode, error.message, error.retryable, error.resourceRefs⟩

/-- The answer of a tool that reads one row. -/
structure GetToolOutput (ρ : Type) extends ContextToolResult where
  value : Option ρ
deriving DecidableEq, Repr

/-- The answer of a tool that lists rows. -/
structure ListToolOutput (ρ : Type) extends ContextToolResult, ListResult ρ
deriving DecidableEq, Repr

def contextReadPermission : String := "context:read"

/-- A handler that reads one row. -/
def getHandler {ρ : Type} (ctx : AgentToolContext) (resourceRefs : List String)
    (resultCode message : String) (operation : Except ToolException ρ) : GetToolOutput ρ :=
  match executeAuditedToolCall ctx.permissions [contextReadPermission] resourceRefs operation with
  | .error error => ⟨.ofError error, none⟩
  | .ok value => ⟨⟨none, resultCode, message, false, resourceRefs⟩, some value⟩

/-- A handler that lists rows. -/
def listHandler {ρ : Type} (ctx : AgentToolContext) (resourceRefs : List String)
    (resultCode message : String) (page : PageRange) (operation : Except ToolException (ListResult ρ)) :
    ListToolOutput ρ :=
  match executeAuditedToolCall ctx.permissions [contextReadPermission] resourceRefs operation with
  | .error error => ⟨.ofError error, emptyList page⟩
  | .ok result => ⟨⟨none, resultCode, message, false, resourceRefs⟩, result⟩

/-- The resource that a request names, or all of its kind. -/
def toolResourceRefs (kind all : String) (id : Option Nat) : List String :=
  match id with
  | some id => [kind ++ ":" ++ toString id]
  | none => [all ++ ":*"]

/-- A request to one of the tools. -/
inductive ContextRequest
  | getConversationTurn (turnId : TurnId)
  | listConversationTurns (query : ConversationTurnSearchQuery)
  | getContextChain (chainId : ChainId)
  | listContextChains (query : ContextChainSearchQuery)
  | listContextChainNodes (query : ContextChainNodeSearchQuery)
  | listContextChainResources (query : ContextChainResourceSearchQuery)

/-- What the tool answers. -/
inductive ContextAnswer
  | turn (output : GetToolOutput ConversationTurnQueryResult)
  | turns (output : ListToolOutput ConversationTurnQueryResult)
  | chain (output : GetToolOutput ChainRow)
  | chains (output : ListToolOutput ChainRow)
  | nodes (output : ListToolOutput NodeRow)
  | resources (output : ListToolOutput ResourceRow)
deriving DecidableEq, Repr

/-- The six handlers. -/
def answer (ctx : AgentToolContext) (db : QueryTables) : ContextRequest → ContextAnswer
  | .getConversationTurn turnId =>
    .turn (getHandler ctx (toolResourceRefs "context_turn" "" (some turnId)) "conversation_turn_retrieved"
      "Conversation Turn 读取成功" (getConversationTurn ctx db turnId))
  | .listConversationTurns query =>
    .turns (listHandler ctx (toolResourceRefs "conversation" "context_turn" query.conversationId)
      "conversation_turns_listed" "Conversation Turn 查询成功" query.page
      (listConversationTurns ctx db query))
  | .getContextChain chainId =>
    .chain (getHandler ctx (toolResourceRefs "context_chain" "" (some chainId)) "context_chain_retrieved"
      "Context Chain 读取成功" (getContextChain ctx db chainId))
  | .listContextChains query =>
    .chains (listHandler ctx (toolResourceRefs "conversation" "context_chain" query.conversationId)
      "context_chains_listed" "Context Chain 查询成功" query.page (listContextChains ctx db query))
  | .listContextChainNodes query =>
    .nodes (listHandler ctx (toolResourceRefs "context_chain" "context_chain_node" query.chainId)
      "context_chain_nodes_listed" "Context Chain Node 查询成功" query.page
      (listContextChainNodes ctx db query))
  | .listContextChainResources query =>
    .resources (listHandler ctx (toolResourceRefs "context_chain" "context_chain_resource" query.chainId)
      "context_chain_resources_listed" "Context Chain Resource 查询成功" query.page
      (listContextChainResources ctx db query))

end DocFlow.Context
