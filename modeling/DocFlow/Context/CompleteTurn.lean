import DocFlow.Database
import DocFlow.Lib.PyString

/-!
# Completing a turn

`ContextService.complete_turn`: the transaction that attributes a turn to its chains, one node
for each chain, and applies the resources of the turn to the resource table and the event log of
the chain.  `ContextRepository` and `ContextResourceService.apply_in_transaction` come first.

The conversation lock serialises the transactions; the refresh of the resource cache that follows
the commit is a value of the result.
-/

namespace DocFlow.Context

/-! ## Commands -/

structure ContextResourceInput where
  resourceType : String
  resourceId : String
  relation : Option String
  summary : Option String
deriving DecidableEq, Repr

/-- `f"{resource_type}:{resource_id}"`. -/
def ContextResourceInput.resourceKey (r : ContextResourceInput) : ResourceKey :=
  r.resourceType ++ ":" ++ r.resourceId

structure ChainTurnUpdate where
  chainId : ChainId
  relatedTaskIds : List TaskId
  relatedResources : List ContextResourceInput
  removedResourceKeys : List ResourceKey
deriving DecidableEq, Repr

structure TurnAttribution where
  existingChainIds : List ChainId
  createNewChain : Bool
  newChainId : Option ChainId
deriving DecidableEq, Repr

structure CompleteTurnCommand where
  assistantContent : Option String
  assistantCompact : Option String
  taskIds : List TaskId
  taskResultSummary : Option String
  attribution : TurnAttribution
  chainUpdates : List ChainTurnUpdate
deriving DecidableEq, Repr

structure CompleteTurnResult where
  turn : ConversationTurn
  linkedChainIds : List ChainId
deriving DecidableEq, Repr

structure ContextResourceRef where
  resourceKey : ResourceKey
  resourceType : String
  resourceId : String
  relation : Option String
  summary : Option String
  sourceTurnId : TurnId
  lastSeenAt : Time
deriving DecidableEq, Repr

/-- What the resource cache of a chain is told after the commit. -/
structure ContextResourceQueueRefresh where
  conversationId : ConversationId
  chainId : ChainId
  resources : List ContextResourceRef
  removedResourceKeys : List ResourceKey
  expectedPreviousVersion : Nat
  databaseVersion : Nat
deriving DecidableEq, Repr

structure CompleteTurnTransactionResult where
  response : CompleteTurnResult
  resourceRefreshes : List ContextResourceQueueRefresh
deriving DecidableEq, Repr

/-- `[a-z][a-z0-9_]*`, matched in full. -/
def isResourceType (s : String) : Bool :=
  match s.toList with
  | [] => false
  | c :: cs => c.isLower && cs.all fun c => c.isLower || c.isDigit || c = '_'

def splitResourceKey (resourceKey : ResourceKey) : Except Failure (String × String) :=
  let (resourceType, separator, resourceId) := PyString.partition resourceKey ':'
  if separator = none ∨ resourceType = "" ∨ resourceId = "" ∨ isResourceType resourceType = false ∨
      100 < resourceType.length ∨ 400 < resourceId.length then
    .error (.valueError ("Invalid Context resource key: " ++ resourceKey))
  else .ok (resourceType, resourceId)

end DocFlow.Context

/-! ## The repository -/

namespace DocFlow.ContextTables

open Context

def createChain (t : ContextTables) (chain : ContextChain) : Except Failure ContextTables := do
  let chains ← orRaise (t.chains.insert chain) .integrityError
  return { t with chains := chains }

/-- The nodes of a chain, oldest first. -/
def nodesOf (t : ContextTables) (chainId : ChainId) : List ContextChainNode :=
  t.nodes.rows.filter fun n => n.chainId = chainId

def getNextSequence (t : ContextTables) (chainId : ChainId) : Nat :=
  match ((t.nodesOf chainId).map ContextChainNode.sequence).max? with
  | none => 0
  | some current => current + 1

/-- Adds a node under `uq_context_chain_nodes_chain_turn` and
`uq_context_chain_nodes_chain_sequence`. -/
def createNode (t : ContextTables) (node : ContextChainNode) : Except Failure ContextTables :=
  if node.sequence ∈ (t.nodesOf node.chainId).map ContextChainNode.sequence then
    .error .integrityError
  else do
    let nodes ← orRaise (t.nodes.insert node) .integrityError
    return { t with nodes := nodes }

def listLinkedChainIds (t : ContextTables) (turnId : TurnId) : List ChainId :=
  ((t.nodes.rows.filter fun n => n.turnId = turnId).map ContextChainNode.chainId).insertionSort
    (· ≤ ·)

/-- The row of a resource that its chain sees for the first time. -/
def newResource (chainId : ChainId) (turnId : TurnId) (seenAt : Time)
    (input : ContextResourceInput) : ContextChainResource where
  chainId := chainId
  resourceKey := input.resourceKey
  resourceType := input.resourceType
  resourceId := input.resourceId
  relation := input.relation
  summary := input.summary
  firstSeenTurnId := turnId
  lastSeenTurnId := turnId
  firstSeenAt := seenAt
  lastSeenAt := seenAt
  useCount := 1
  active := true
  removedAt := none

/-- The row of a resource that is used again. -/
def refreshResource (turnId : TurnId) (seenAt : Time) (input : ContextResourceInput)
    (resource : ContextChainResource) : ContextChainResource :=
  { resource with
    resourceType := input.resourceType
    resourceId := input.resourceId
    relation := input.relation
    summary := input.summary
    lastSeenTurnId := turnId
    lastSeenAt := seenAt
    useCount := resource.useCount + 1
    active := true
    removedAt := none }

/-- The resource row afterwards, and whether it is new. -/
def upsertChainResource (t : ContextTables) (chainId : ChainId) (turnId : TurnId) (seenAt : Time)
    (input : ContextResourceInput) :
    Except Failure (ContextChainResource × Bool × ContextTables) :=
  match t.resources.get? (chainId, input.resourceKey) with
  | none => do
    let resource := newResource chainId turnId seenAt input
    let resources ← orRaise (t.resources.insert resource) .integrityError
    return (resource, true, { t with resources := resources })
  | some resource =>
    let resource := refreshResource turnId seenAt input resource
    .ok (resource, false, { t with resources := t.resources.save resource })

/-- The row of a resource that is removed. -/
def deactivateResource (removedAt : Time) (resource : ContextChainResource) :
    ContextChainResource :=
  { resource with active := false, removedAt := some removedAt }

/-- The resource row afterwards, when there is one. -/
def deactivateChainResource (t : ContextTables) (chainId : ChainId) (resourceKey : ResourceKey)
    (removedAt : Time) : Option ContextChainResource × ContextTables :=
  match t.resources.get? (chainId, resourceKey) with
  | none => (none, t)
  | some resource =>
    let resource := deactivateResource removedAt resource
    (some resource, { t with resources := t.resources.save resource })

def createResourceEvent (t : ContextTables) (ev : ContextChainResourceEvent) : ContextTables :=
  { t with resourceEvents := t.resourceEvents ++ [ev] }

def saveChain (t : ContextTables) (chain : ContextChain) : ContextTables :=
  { t with chains := t.chains.save chain }

end DocFlow.ContextTables

/-! ## The resources of a chain -/

namespace DocFlow.Context

/-- One turn of the first loop of `apply_in_transaction`. -/
def seeResource (chainId : ChainId) (turnId : TurnId) (now : Time) (input : ContextResourceInput)
    (t : ContextTables) : Except Failure (ContextResourceRef × ContextTables) := do
  let (resource, created, t) ← t.upsertChainResource chainId turnId now input
  let t := t.createResourceEvent
    { chainId := chainId
      turnId := turnId
      resourceKey := resource.resourceKey
      resourceType := resource.resourceType
      resourceId := resource.resourceId
      action := if created then .seen else .refreshed
      relation := resource.relation
      summary := resource.summary
      createdAt := now }
  return (⟨resource.resourceKey, resource.resourceType, resource.resourceId, resource.relation,
    resource.summary, turnId, now⟩, t)

def seeResources (chainId : ChainId) (turnId : TurnId) (now : Time) :
    List ContextResourceInput → ContextTables →
      Except Failure (List ContextResourceRef × ContextTables)
  | [], t => .ok ([], t)
  | input :: inputs, t => do
    let (ref, t) ← seeResource chainId turnId now input t
    let (refs, t) ← seeResources chainId turnId now inputs t
    return (ref :: refs, t)

/-- One turn of the second loop of `apply_in_transaction`. -/
def removeResource (chainId : ChainId) (turnId : TurnId) (now : Time) (resourceKey : ResourceKey)
    (t : ContextTables) : Except Failure ContextTables := do
  let (resourceType, resourceId) ← splitResourceKey resourceKey
  let (existing, t) := t.deactivateChainResource chainId resourceKey now
  return t.createResourceEvent
    { chainId := chainId
      turnId := turnId
      resourceKey := resourceKey
      resourceType := (existing.map ContextChainResource.resourceType).getD resourceType
      resourceId := (existing.map ContextChainResource.resourceId).getD resourceId
      action := .removed
      relation := existing.bind ContextChainResource.relation
      summary := existing.bind ContextChainResource.summary
      createdAt := now }

def removeResources (chainId : ChainId) (turnId : TurnId) (now : Time) :
    List ResourceKey → ContextTables → Except Failure ContextTables
  | [], t => .ok t
  | key :: keys, t => do
    let t ← removeResource chainId turnId now key t
    removeResources chainId turnId now keys t

/-- `apply_in_transaction`: the refresh for the cache, and the chain with its version. -/
def applyInTransaction (chain : ContextChain) (turnId : TurnId) (now : Time) :
    Option ChainTurnUpdate → ContextTables →
      Except Failure (Option ContextResourceQueueRefresh × ContextChain × ContextTables)
  | none, t => .ok (none, chain, t)
  | some update, t => do
    let (refreshed, t) ← seeResources chain.chainId turnId now update.relatedResources t
    let t ← removeResources chain.chainId turnId now update.removedResourceKeys t
    if refreshed = [] ∧ update.removedResourceKeys = [] then
      return (none, chain, t)
    else
      let databaseVersion := chain.resourceVersion + 1
      return (some ⟨chain.conversationId, chain.chainId, refreshed, update.removedResourceKeys,
        chain.resourceVersion, databaseVersion⟩, { chain with resourceVersion := databaseVersion }, t)

/-! ## The transaction -/

/-- The chains a turn is attributed to, the one to be created among them. -/
structure Targets where
  chainIds : List ChainId
  newChainId : Option ChainId
deriving DecidableEq, Repr

/-- `drawnChainId` is the identifier drawn when the command names none. -/
def resolveTargets (drawnChainId : ChainId) (attribution : TurnAttribution) (t : ContextTables) :
    Except Failure Targets := do
  let targetChainIds := PyString.fromKeys attribution.existingChainIds
  ensure (attribution.newChainId = none ∨ attribution.createNewChain = true)
    (.contextValidation "未请求创建新 Chain 时不能指定 new_chain_id")
  if attribution.createNewChain = true ∨ targetChainIds = [] then
    let newChainId := attribution.newChainId.getD drawnChainId
    ensure (newChainId ∉ targetChainIds)
      (.contextValidation "新 Chain ID 不能同时作为 existing attribution")
    ensure (t.chains.get? newChainId = none)
      (.contextConflict ("Context Chain 已存在，不能重复创建: " ++ toString newChainId))
    return ⟨targetChainIds ++ [newChainId], some newChainId⟩
  else
    return ⟨targetChainIds, none⟩

/-- The update of a chain in `update_map`. -/
def updateOf (updateMap : List ChainTurnUpdate) (chainId : ChainId) : Option ChainTurnUpdate :=
  updateMap.find? fun update => update.chainId = chainId

/-- The checks on one update. -/
def validateChainUpdate (targetChainIds : List ChainId) (turnTaskIds : List TaskId)
    (updateMap : List ChainTurnUpdate) (update : ChainTurnUpdate) : Except Failure Unit := do
  ensure (updateOf updateMap update.chainId = none)
    (.contextValidation ("重复的 Context Chain 更新: " ++ toString update.chainId))
  ensure (update.chainId ∈ targetChainIds)
    (.contextValidation ("Context Chain 不在本轮 Attribution 范围内: " ++ toString update.chainId))
  let unknown := (PyString.fromKeys update.relatedTaskIds).filter (· ∉ turnTaskIds)
  ensure (unknown = [])
    (.contextValidation ("链关联了 Turn 中不存在的 Task: " ++
      String.intercalate ", " ((unknown.insertionSort (· ≤ ·)).map toString)))
  let resourceKeys := update.relatedResources.map ContextResourceInput.resourceKey
  ensure resourceKeys.Nodup (.contextValidation ("链包含重复资源: " ++ toString update.chainId))
  ensure update.removedResourceKeys.Nodup
    (.contextValidation ("链包含重复移除资源: " ++ toString update.chainId))
  validateKeys update.removedResourceKeys
  let conflicts := resourceKeys.filter (· ∈ update.removedResourceKeys)
  ensure (conflicts = [])
    (.contextValidation ("资源不能在同一轮同时刷新和移除: " ++
      String.intercalate ", " (conflicts.insertionSort (· ≤ ·))))
where
  /-- A malformed key is reported as a validation error. -/
  validateKeys : List ResourceKey → Except Failure Unit
    | [] => .ok ()
    | key :: keys =>
      match splitResourceKey key with
      | .ok _ => validateKeys keys
      | .error (.valueError message) => .error (.contextValidation message)
      | .error f => .error f

/-- `_validate_chain_updates`, with the updates checked so far. -/
def validateChainUpdates (targetChainIds : List ChainId) (turnTaskIds : List TaskId) :
    List ChainTurnUpdate → List ChainTurnUpdate → Except Failure (List ChainTurnUpdate)
  | updateMap, [] => .ok updateMap
  | updateMap, update :: updates => do
    validateChainUpdate targetChainIds turnTaskIds updateMap update
    validateChainUpdates targetChainIds turnTaskIds (updateMap ++ [update]) updates

/-- The checks on the existing chains of an attribution. -/
def checkExistingChains (conversationId : ConversationId) (t : ContextTables) :
    List ChainId → Except Failure Unit
  | [] => .ok ()
  | chainId :: chainIds => do
    let chain ← orRaise (t.chains.get? chainId)
      (.contextConflict ("Context Chain 不存在: " ++ toString chainId))
    ensure (chain.conversationId = conversationId)
      (.contextConflict ("Context Chain 会话归属不一致: " ++ toString chainId))
    ensure (chain.archived = false)
      (.contextConflict ("Context Chain 已归档: " ++ toString chainId))
    checkExistingChains conversationId t chainIds

/-- The node of a turn in a chain. -/
def newNode (chainId : ChainId) (turnId : TurnId) (update : Option ChainTurnUpdate) (sequence : Nat) :
    ContextChainNode where
  chainId := chainId
  turnId := turnId
  sequence := sequence
  relatedTaskIds := PyString.fromKeys ((update.map ChainTurnUpdate.relatedTaskIds).getD [])
  relatedResourceRefs := PyString.fromKeys <|
    (update.map fun u =>
      u.relatedResources.map ContextResourceInput.resourceKey ++ u.removedResourceKeys).getD []

/-- One turn of the loop over the target chains. -/
def attributeChain (turnId : TurnId) (now : Time) (updateMap : List ChainTurnUpdate)
    (chainId : ChainId) (t : ContextTables) :
    Except Failure (Option ContextResourceQueueRefresh × ContextTables) := do
  let chain ← orRaise (t.chains.get? chainId) (.runtimeError "KeyError")
  let update := updateOf updateMap chainId
  let t ← t.createNode
    (newNode chainId turnId update (t.getNextSequence chainId))
  let (refresh, chain, t) ← applyInTransaction chain turnId now update t
  return (refresh, t.saveChain { chain with lastActiveAt := now, archived := false })

def attributeChains (turnId : TurnId) (now : Time) (updateMap : List ChainTurnUpdate) :
    List ChainId → ContextTables →
      Except Failure (List ContextResourceQueueRefresh × ContextTables)
  | [], t => .ok ([], t)
  | chainId :: chainIds, t => do
    let (refresh, t) ← attributeChain turnId now updateMap chainId t
    let (refreshes, t) ← attributeChains turnId now updateMap chainIds t
    return (refresh.toList ++ refreshes, t)

/-- The chain that the transaction creates. -/
def newChain (chainId : ChainId) (conversationId : ConversationId) (now : Time) : ContextChain where
  chainId := chainId
  conversationId := conversationId
  resourceVersion := 0
  lastActiveAt := now
  archived := false

def createNewChain (conversationId : ConversationId) (now : Time) :
    Option ChainId → ContextTables → Except Failure ContextTables
  | none, t => .ok t
  | some chainId, t => t.createChain (newChain chainId conversationId now)

/-- The row of a completed turn. -/
def completedTurn (now : Time) (command : CompleteTurnCommand) (turn : ConversationTurn) :
    ConversationTurn :=
  { turn with
    assistantContent := command.assistantContent
    assistantCompact := command.assistantCompact
    taskIds := PyString.fromKeys command.taskIds
    taskResultSummary := command.taskResultSummary
    completedAt := some now
    status := .completed }

/-- A turn that has been completed before answers with the chains it is linked to. -/
def answerCompleted (turn : ConversationTurn) (t : ContextTables) :
    Except Failure CompleteTurnTransactionResult := do
  let linkedChainIds := t.listLinkedChainIds turn.turnId
  ensure (linkedChainIds ≠ [])
    (.contextConflict "已完成的 Context Turn 缺少 Chain Attribution")
  return ⟨⟨turn, linkedChainIds⟩, []⟩

/-- `_complete_turn_in_transaction`. -/
def completeTurnInTransaction (drawnChainId : ChainId) (now : Time) (turnId : TurnId)
    (conversationId : ConversationId) (command : CompleteTurnCommand) (db : Db) :
    Except Failure (CompleteTurnTransactionResult × Db) := do
  let turn ← orRaise (db.conversationTurns.get? turnId)
    (.contextTurnNotFound "Context Turn 不存在")
  ensure (turn.conversationId = conversationId)
    (.contextConflict "Context Turn 会话归属已变化")
  if turn.status = .completed then
    let result ← answerCompleted turn db.context
    return (result, db)
  else
    ensure (turn.status = .contextReady ∨ turn.status = .processing)
      (.contextConflict "Context Turn 当前状态不允许完成")
    let selection ← orRaise (db.context.selections.get? turnId)
      (.contextConflict "Context Turn 缺少已校验的 Context Selection")
    ensure (selection.conversationId = conversationId)
      (.contextConflict "Context Selection 会话归属不一致")
    let targets ← resolveTargets drawnChainId command.attribution db.context
    let updateMap ← validateChainUpdates targets.chainIds command.taskIds [] command.chainUpdates
    checkExistingChains conversationId db.context
      (PyString.fromKeys command.attribution.existingChainIds)
    let t ← createNewChain conversationId now targets.newChainId db.context
    let (refreshes, t) ← attributeChains turnId now updateMap targets.chainIds t
    let turn := completedTurn now command turn
    return (⟨⟨turn, targets.chainIds⟩, refreshes⟩, (db.setContext t).saveTurn turn)

/-- `complete_turn`, under the lock of the conversation. -/
def completeTurn (drawnChainId : ChainId) (now : Time) (turnId : TurnId)
    (command : CompleteTurnCommand) (db : Db) :
    Except Failure (CompleteTurnTransactionResult × Db) := do
  let turn ← orRaise (db.conversationTurns.get? turnId)
    (.contextTurnNotFound "Context Turn 不存在")
  completeTurnInTransaction drawnChainId now turnId turn.conversationId command db

end DocFlow.Context
