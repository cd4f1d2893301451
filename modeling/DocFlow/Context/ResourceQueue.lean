import DocFlow.Context.CompleteTurn
import DocFlow.Lib.Recency
import Mathlib.Data.String.Basic
import Mathlib.Logic.Function.Basic

/-!
# The hot resources of a chain

`redis_resource_queue.py` keeps the hot resources of each chain under three keys of Redis, and
`resource_service.py` fills them from the database on a miss and refreshes them after a commit.

A value of the hash is the resource its JSON text stands for, and the version is the number.  A read
is three commands, which are separate definitions here, for other clients write in between.
-/

namespace DocFlow.Context

/-- The three keys of a chain: the list, the hash and the version. -/
structure CachedQueue where
  queue : List ResourceKey
  data : ResourceKey → Option ContextResourceRef
  version : Option Nat

namespace CachedQueue

/-- The keys do not exist. -/
def absent : CachedQueue := ⟨[], fun _ => none, none⟩

/-! ## Commands -/

def lrem (c : CachedQueue) (key : ResourceKey) : CachedQueue :=
  { c with queue := Recency.forget key c.queue }

def rpush (c : CachedQueue) (key : ResourceKey) : CachedQueue := { c with queue := c.queue ++ [key] }

def hset (c : CachedQueue) (key : ResourceKey) (item : ContextResourceRef) : CachedQueue :=
  { c with data := Function.update c.data key (some item) }

def hdel (c : CachedQueue) (key : ResourceKey) : CachedQueue :=
  { c with data := Function.update c.data key none }

def lpop (c : CachedQueue) : Option ResourceKey × CachedQueue :=
  match c.queue with
  | [] => (none, c)
  | key :: rest => (some key, { c with queue := rest })

def hmget (c : CachedQueue) (keys : List ResourceKey) : List (Option ContextResourceRef) :=
  keys.map c.data

/-! ## `REFRESH_QUEUE_LUA` -/

def versionMatches (c : CachedQueue) (expectedPreviousVersion : Nat) : Bool :=
  match c.version with
  | some version => version = expectedPreviousVersion
  | none => expectedPreviousVersion = 0

def refreshItem (c : CachedQueue) (item : ContextResourceRef) : CachedQueue :=
  ((c.lrem item.resourceKey).rpush item.resourceKey).hset item.resourceKey item

def removeItem (c : CachedQueue) (key : ResourceKey) : CachedQueue := (c.lrem key).hdel key

/-- One turn of the loop over the oldest. -/
def evictOldest (c : CachedQueue) : CachedQueue :=
  match c.lpop with
  | (none, c) => c
  | (some removed, c) => c.hdel removed

def evict : Nat → CachedQueue → CachedQueue
  | 0, c => c
  | n + 1, c => evict n c.evictOldest

def refreshQueue (capacity : Nat) (resources : List ContextResourceRef)
    (removedResourceKeys : List ResourceKey) (databaseVersion : Nat) (c : CachedQueue) :
    CachedQueue :=
  let c := removedResourceKeys.foldl removeItem (resources.foldl refreshItem c)
  { evict (c.queue.length - capacity) c with version := some databaseVersion }

/-! ## `REPLACE_QUEUE_LUA` -/

def pushItem (c : CachedQueue) (item : ContextResourceRef) : CachedQueue :=
  (c.rpush item.resourceKey).hset item.resourceKey item

def replaceQueue (resources : List ContextResourceRef) (databaseVersion : Nat) (c : CachedQueue) :
    CachedQueue :=
  { resources.foldl pushItem { c with queue := [], data := fun _ => none } with
    version := some databaseVersion }

/-- The queue lists its resources with their data. -/
def Holds (c : CachedQueue) (items : List ContextResourceRef) : Prop :=
  c.hmget c.queue = items.map some

instance (c : CachedQueue) (items : List ContextResourceRef) : Decidable (c.Holds items) :=
  inferInstanceAs (Decidable (_ = _))

end CachedQueue

/-! ## The queue repository -/

structure ContextResourceQueueRepository where
  capacity : Nat
  capacity_pos : 1 ≤ capacity

namespace ContextResourceQueueRepository

variable (repository : ContextResourceQueueRepository)

/-- What a read of the list leads to. -/
inductive ListRead
  | answer (items : Option (List ContextResourceRef))
  | keys (resourceKeys : List ResourceKey)
deriving DecidableEq, Repr

/-- `get`, its first command. -/
def readVersion (expectedVersion : Nat) (c : CachedQueue) : Bool := c.version = some expectedVersion

/-- `get`, its second command. -/
def readList (c : CachedQueue) : ListRead :=
  if c.queue = [] then .answer (some [])
  else if repository.capacity < c.queue.length then .answer none
  else .keys c.queue

/-- The items under the keys, when none is missing or under another key. -/
def collect : List ResourceKey → List (Option ContextResourceRef) → Option (List ContextResourceRef)
  | key :: keys, some item :: items =>
    if item.resourceKey = key then (collect keys items).map (item :: ·) else none
  | [], [] => some []
  | _, _ => none

/-- `get`, its third command. -/
def readItems (resourceKeys : List ResourceKey) (c : CachedQueue) :
    Option (List ContextResourceRef) :=
  collect resourceKeys (c.hmget resourceKeys)

/-- `get`, when nobody writes in between. -/
def get (expectedVersion : Nat) (c : CachedQueue) : Option (List ContextResourceRef) :=
  if readVersion expectedVersion c = true then
    match repository.readList c with
    | .answer items => items
    | .keys resourceKeys => readItems resourceKeys c
  else none

/-- Whether the refresh has been applied, and the queue. -/
def refresh (payload : ContextResourceQueueRefresh) (c : CachedQueue) : Bool × CachedQueue :=
  if c.versionMatches payload.expectedPreviousVersion = true then
    (true, c.refreshQueue repository.capacity payload.resources payload.removedResourceKeys
      payload.databaseVersion)
  else (false, c)

def replace (resources : List ContextResourceRef) (databaseVersion : Nat) (c : CachedQueue) :
    CachedQueue :=
  c.replaceQueue (Recency.last repository.capacity resources) databaseVersion

def invalidate (_ : CachedQueue) : CachedQueue := .absent

end ContextResourceQueueRepository

/-! ## Warming up -/

end DocFlow.Context

namespace DocFlow.ContextTables

open Context

/-- The order of `list_resources_for_warmup`.  `column` is what the database keeps of a time; keys are
compared by code point, as under a binary collation. -/
def Newer (column : Time → Time) (a b : ContextChainResource) : Prop :=
  column b.lastSeenAt < column a.lastSeenAt ∨
    column a.lastSeenAt = column b.lastSeenAt ∧ b.resourceKey ≤ a.resourceKey

instance (column : Time → Time) : DecidableRel (Newer column) :=
  fun _ _ => inferInstanceAs (Decidable (_ ∨ _))

def activeResources (t : ContextTables) (chainId : ChainId) : List ContextChainResource :=
  t.resources.rows.filter fun r => r.chainId = chainId ∧ r.active = true

def listResourcesForWarmup (column : Time → Time) (t : ContextTables) (chainId : ChainId)
    (limit : Nat) : List ContextChainResource :=
  ((t.activeResources chainId).insertionSort (Newer column)).take limit

end DocFlow.ContextTables

namespace DocFlow.Context

/-- A resource as its row says. -/
def resourceRef (column : Time → Time) (r : ContextChainResource) : ContextResourceRef :=
  ⟨r.resourceKey, r.resourceType, r.resourceId, r.relation, r.summary, r.lastSeenTurnId,
    column r.lastSeenAt⟩

/-- `_load_resources_for_warmup`, oldest first. -/
def loadResourcesForWarmup (repository : ContextResourceQueueRepository) (column : Time → Time)
    (conversationId : ConversationId) (chainId : ChainId) (resourceVersion : Nat)
    (t : ContextTables) : Except Failure (List ContextResourceRef) := do
  let chain ← orRaise (t.chains.get? chainId)
    (.runtimeError ("Context Chain 不存在: " ++ toString chainId))
  ensure (chain.conversationId = conversationId)
    (.runtimeError ("Context Chain 会话归属不一致: " ++ toString chainId))
  ensure (chain.resourceVersion = resourceVersion)
    (.runtimeError ("Context Chain 资源版本已变化: " ++ toString chainId))
  let newestFirst := t.listResourcesForWarmup column chainId repository.capacity
  return newestFirst.reverse.map (resourceRef column)

/-- `refresh_after_commit`, when Redis answers. -/
def refreshAfterCommit (repository : ContextResourceQueueRepository)
    (payload : ContextResourceQueueRefresh) (c : CachedQueue) : CachedQueue :=
  match repository.refresh payload c with
  | (true, c) => c
  | (false, c) => ContextResourceQueueRepository.invalidate c

/-- `get_queue`, when Redis answers: the queue and what the cache holds afterwards. -/
def getQueue (repository : ContextResourceQueueRepository) (column : Time → Time)
    (conversationId : ConversationId) (chainId : ChainId) (resourceVersion : Nat)
    (t : ContextTables) (c : CachedQueue) :
    Except Failure (List ContextResourceRef × CachedQueue) :=
  match repository.get resourceVersion c with
  | some cached => .ok (cached, c)
  | none => do
    let resources ← loadResourcesForWarmup repository column conversationId chainId
      resourceVersion t
    return (resources, repository.replace resources resourceVersion c)

end DocFlow.Context
