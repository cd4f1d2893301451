import DocFlow.Domain

/-!
# Context chains and their resources

The rows of the context module.  A chain is a sequence of nodes, one for each turn that is
attributed to it; its resources are kept as a table of their current state beside the log of
the events that led to it.

The keys of resources are compared by their characters, in the unique keys of the tables as in the
order of a query.  The columns are declared without a collation: MySQL takes that of the schema, and
under one that does not tell letters apart keys would be equal here that are different there.

The log is a list in the order of the insertions.  Nothing reads `node_id` and `event_id`, so
a node is known by its chain and turn, which are unique together, and an event by its place.
-/

namespace DocFlow

abbrev ChainId := Nat
abbrev ResourceKey := String

inductive ContextResourceAction
  | seen | refreshed | removed | invalidated
deriving DecidableEq, Repr

structure ContextSelectionRecord where
  conversationId : ConversationId
  currentTurnId : TurnId
  relevantChainIds : List ChainId
deriving DecidableEq, Repr

structure ContextChain where
  chainId : ChainId
  conversationId : ConversationId
  resourceVersion : Nat
  lastActiveAt : Time
  archived : Bool
deriving DecidableEq, Repr

structure ContextChainNode where
  chainId : ChainId
  turnId : TurnId
  sequence : Nat
  relatedTaskIds : List TaskId
  relatedResourceRefs : List ResourceKey
deriving DecidableEq, Repr

/-- `(chain_id, turn_id)` is unique. -/
def ContextChainNode.place (n : ContextChainNode) : ChainId × TurnId := (n.chainId, n.turnId)

structure ContextChainResource where
  chainId : ChainId
  resourceKey : ResourceKey
  resourceType : String
  resourceId : String
  relation : Option String
  summary : Option String
  firstSeenTurnId : TurnId
  lastSeenTurnId : TurnId
  firstSeenAt : Time
  lastSeenAt : Time
  useCount : Nat
  active : Bool
  removedAt : Option Time
deriving DecidableEq, Repr

/-- `(chain_id, resource_key)` is unique. -/
def ContextChainResource.address (r : ContextChainResource) : ChainId × ResourceKey :=
  (r.chainId, r.resourceKey)

structure ContextChainResourceEvent where
  chainId : ChainId
  turnId : TurnId
  resourceKey : ResourceKey
  resourceType : String
  resourceId : String
  action : ContextResourceAction
  relation : Option String
  summary : Option String
  createdAt : Time
deriving DecidableEq, Repr

def ContextChainResourceEvent.address (ev : ContextChainResourceEvent) : ChainId × ResourceKey :=
  (ev.chainId, ev.resourceKey)

/-- The tables behind `uow.context`, the turns apart. -/
structure ContextTables where
  selections : Table ContextSelectionRecord.currentTurnId
  chains : Table ContextChain.chainId
  nodes : Table ContextChainNode.place
  resources : Table ContextChainResource.address
  resourceEvents : List ContextChainResourceEvent

def ContextTables.empty : ContextTables := ⟨.empty, .empty, .empty, .empty, []⟩

end DocFlow
