import DocFlow.Context.HotResources

/-!
# The same queue, cached or rebuilt

`CachedChain` is a chain of the database with its keys in Redis; a step commits one update of the
resources and refreshes the cache.  The cached queue is a bounded one: an update moves the
resources it uses to the end, takes out the removed ones, and what is left of the queue is its last
`capacity` elements.  So in every state it is an end of the resources in the order of their
uses, and it is the last `capacity` of them as long as no removal finds resources outside
(`KeepsFull`).  It is what `loadResourcesForWarmup` rebuilds as long as the updates are `Steady`.
-/

namespace DocFlow.Context

/-! ## The rows of a list -/

section Rows

variable {column : Time → Time} {t : ContextTables} {chainId : ChainId}
  {keys : List ResourceKey} {c : CachedQueue}

def rowsOf (t : ContextTables) (chainId : ChainId) (keys : List ResourceKey) :
    List ContextChainResource :=
  keys.filterMap fun key => t.resources.get? (chainId, key)

theorem resourceKey_of_get? {key : ResourceKey} {r : ContextChainResource}
    (h : t.resources.get? (chainId, key) = some r) : r.resourceKey = key := by
  have haddr : r.address = (chainId, key) := Table.key_of_get? h
  exact (Prod.mk.inj haddr).2

theorem mem_activeResources_of_get? {key : ResourceKey} {r : ContextChainResource}
    (h : t.resources.get? (chainId, key) = some r) (hactive : r.active = true) :
    r ∈ t.activeResources chainId := by
  obtain ⟨hrow, haddr⟩ := Table.get?_eq_some.mp h
  exact mem_activeResources.mpr ⟨hrow, (Prod.mk.inj haddr).1, hactive⟩

theorem get?_of_mem_rowsOf {r : ContextChainResource} (h : r ∈ rowsOf t chainId keys) :
    r.resourceKey ∈ keys ∧ t.resources.get? (chainId, r.resourceKey) = some r := by
  obtain ⟨key, hkey, hr⟩ := List.mem_filterMap.mp h
  rw [resourceKey_of_get? hr]
  exact ⟨hkey, hr⟩

theorem rowsOf_map (hkeys : ∀ key ∈ keys, ∃ r, t.resources.get? (chainId, key) = some r) :
    (rowsOf t chainId keys).map (·.resourceKey) = keys := by
  induction keys with
  | nil => rfl
  | cons key keys ih =>
    obtain ⟨r, hr⟩ := hkeys key List.mem_cons_self
    have hcons : rowsOf t chainId (key :: keys) = r :: rowsOf t chainId keys :=
      List.filterMap_cons_some hr
    rw [hcons, List.map_cons, resourceKey_of_get? hr,
      ih fun x hx => hkeys x (List.mem_cons_of_mem _ hx)]

theorem rowsOf_last {n : Nat}
    (hkeys : ∀ key ∈ keys, ∃ r, t.resources.get? (chainId, key) = some r) :
    rowsOf t chainId (Recency.last n keys) = Recency.last n (rowsOf t chainId keys) := by
  have hlast : ∀ key ∈ Recency.last n keys, ∃ r, t.resources.get? (chainId, key) = some r :=
    fun key hkey => hkeys key (Recency.last_suffix.subset hkey)
  have hlen := congrArg List.length (rowsOf_map hkeys)
  have hlen' := congrArg List.length (rowsOf_map hlast)
  rw [List.length_map] at hlen hlen'
  rw [Recency.length_last] at hlen'
  have hsuffix : rowsOf t chainId (Recency.last n keys) <:+ rowsOf t chainId keys :=
    Recency.last_suffix.filterMap _
  refine (List.suffix_iff_eq_drop.mp hsuffix).trans ?_
  rw [hlen', Recency.last, hlen]
  congr 1
  omega

theorem Listed.exists_row (hL : Listed t chainId) {key : ResourceKey}
    (h : key ∈ recency t chainId) : ∃ r, t.resources.get? (chainId, key) = some r := by
  obtain ⟨r, hr, -⟩ := (hL.mem key).mp h
  exact ⟨r, hr⟩

theorem Listed.rows_perm (hL : Listed t chainId) :
    (rowsOf t chainId (recency t chainId)).Perm (t.activeResources chainId) := by
  have hmap := rowsOf_map fun _ hkey => hL.exists_row hkey
  have hrows : (rowsOf t chainId (recency t chainId)).Nodup := by
    refine List.Nodup.of_map (·.resourceKey) ?_
    rw [hmap]
    exact hL.nodup
  have hnodup : (t.activeResources chainId).Nodup :=
    (List.Nodup.of_map _ t.resources.nodup).filter _
  refine (List.perm_ext_iff_of_nodup hrows hnodup).mpr ?_
  intro r
  rw [mem_activeResources]
  constructor
  · intro hr
    obtain ⟨hkey, hget⟩ := get?_of_mem_rowsOf hr
    obtain ⟨r', hr', hactive⟩ := (hL.mem r.resourceKey).mp hkey
    obtain rfl := Option.some.inj (hget.symm.trans hr')
    exact mem_activeResources.mp (mem_activeResources_of_get? hget hactive)
  · rintro ⟨hmem, rfl, hactive⟩
    have hget : t.resources.get? (r.chainId, r.resourceKey) = some r := Table.get?_of_mem hmem
    exact List.mem_filterMap.mpr ⟨r.resourceKey, (hL.mem _).mpr ⟨r, hget, hactive⟩, hget⟩

/-! ## The rebuild -/

theorem newer_antisymm {a b : ContextChainResource} (h : ContextTables.Newer column a b)
    (h' : ContextTables.Newer column b a) : a.resourceKey = b.resourceKey := by
  rcases h with h | ⟨h, hkey⟩
  · rcases h' with h' | ⟨h', -⟩
    · exact absurd h (lt_asymm h')
    · rw [h'] at h
      exact absurd h (lt_irrefl _)
  · rcases h' with h' | ⟨-, hkey'⟩
    · rw [h] at h'
      exact absurd h' (lt_irrefl _)
    · exact le_antisymm hkey' hkey

instance : Std.Total (ContextTables.Newer column) where
  total a b := by
    rcases lt_trichotomy (column a.lastSeenAt) (column b.lastSeenAt) with h | h | h
    · exact .inr (.inl h)
    · rcases le_total b.resourceKey a.resourceKey with hkey | hkey
      · exact .inl (.inr ⟨h, hkey⟩)
      · exact .inr (.inr ⟨h.symm, hkey⟩)
    · exact .inl (.inl h)

instance : IsTrans ContextChainResource (ContextTables.Newer column) where
  trans a b d := by
    rintro (h | ⟨h, hkey⟩) (h' | ⟨h', hkey'⟩)
    · exact .inl (h'.trans h)
    · exact .inl (h' ▸ h)
    · exact .inl (h ▸ h')
    · exact .inr ⟨h.trans h', hkey'.trans hkey⟩

/-- **The rebuild finds the resources used last**, when the list is in the order of the database. -/
theorem Listed.rebuilt (hL : Listed t chainId) (hS : Sorted column t chainId) (limit : Nat) :
    (t.listResourcesForWarmup column chainId limit).reverse =
      rowsOf t chainId (Recency.last limit (recency t chainId)) := by
  have hexists : ∀ key ∈ recency t chainId, ∃ r, t.resources.get? (chainId, key) = some r :=
    fun _ hkey => hL.exists_row hkey
  have hperm := hL.rows_perm
  have hrows : (rowsOf t chainId (recency t chainId)).Pairwise fun r r' =>
      ContextTables.Newer column r' r := by
    have hmap := hS
    rw [Sorted, ← rowsOf_map hexists, List.pairwise_map] at hmap
    refine hmap.imp_of_mem ?_
    intro r r' hr hr' holder
    rcases holder r r' (get?_of_mem_rowsOf hr).2 (get?_of_mem_rowsOf hr').2 with h | ⟨h, hkey⟩
    · exact .inl h
    · exact .inr ⟨h.symm, hkey.le⟩
  have hsort : (t.activeResources chainId).insertionSort (ContextTables.Newer column) =
      (rowsOf t chainId (recency t chainId)).reverse := by
    refine List.Perm.eq_of_pairwise ?_ (List.pairwise_insertionSort _ _)
      (List.pairwise_reverse.mpr hrows) ?_
    · intro a b ha hb hab hba
      have ha' := (List.perm_insertionSort _ _).subset ha
      have hb' := hperm.subset (List.mem_reverse.mp hb)
      obtain ⟨ha, hac, -⟩ := mem_activeResources.mp ha'
      obtain ⟨hb, hbc, -⟩ := mem_activeResources.mp hb'
      refine Table.eq_of_key ha hb ?_
      show (a.chainId, a.resourceKey) = (b.chainId, b.resourceKey)
      rw [hac, hbc, newer_antisymm hab hba]
    · exact (List.perm_insertionSort _ _).trans (hperm.symm.trans (List.reverse_perm _).symm)
  rw [ContextTables.listResourcesForWarmup, hsort, List.take_reverse, List.reverse_reverse,
    rowsOf_last hexists]
  rfl

/-! ## What the cache answers -/

theorem collect_of_keys {items : List ContextResourceRef} :
    ContextResourceQueueRepository.collect (items.map (·.resourceKey)) (items.map some) =
      some items := by
  induction items with
  | nil => rfl
  | cons item items ih =>
    rw [List.map_cons, List.map_cons, ContextResourceQueueRepository.collect, if_pos rfl, ih]
    rfl

theorem Mirrors.holds (hM : Mirrors t chainId c) :
    (rowsOf t chainId c.queue).map (·.resourceKey) = c.queue ∧
      c.hmget c.queue = ((rowsOf t chainId c.queue).map (resourceRef id)).map some := by
  have hexists : ∀ key ∈ c.queue, ∃ r, t.resources.get? (chainId, key) = some r := by
    intro key hkey
    obtain ⟨r, hr, -⟩ := hM.data key hkey
    exact ⟨r, hr⟩
  have hmap := rowsOf_map hexists
  refine ⟨hmap, ?_⟩
  rw [CachedQueue.hmget, List.map_map]
  nth_rewrite 1 [← hmap]
  rw [List.map_map]
  refine List.map_congr_left ?_
  intro r hr
  obtain ⟨hkey, hget⟩ := get?_of_mem_rowsOf hr
  obtain ⟨r', hget', hdata⟩ := hM.data _ hkey
  obtain rfl := Option.some.inj (hget.symm.trans hget')
  exact hdata

/-- **What a read answers**: the resources of the list, as their rows say. -/
theorem Mirrors.get (hM : Mirrors t chainId c) {repository : ContextResourceQueueRepository}
    {version : Nat} (hlen : c.queue.length ≤ repository.capacity)
    (hversion : c.version = some version) :
    repository.get version c = some ((rowsOf t chainId c.queue).map (resourceRef id)) := by
  obtain ⟨hmap, hdata⟩ := hM.holds
  have hread : ContextResourceQueueRepository.readVersion version c = true :=
    decide_eq_true hversion
  rw [ContextResourceQueueRepository.get, if_pos hread,
    ContextResourceQueueRepository.readList]
  by_cases hempty : c.queue = []
  · rw [if_pos hempty, hempty]
    rfl
  · rw [if_neg hempty, if_neg (not_lt.mpr hlen)]
    show ContextResourceQueueRepository.collect c.queue (c.hmget c.queue) = _
    have hkeys : ((rowsOf t chainId c.queue).map (resourceRef id)).map (·.resourceKey) =
        c.queue := by
      rw [List.map_map]
      exact hmap
    rw [hdata]
    nth_rewrite 1 [← hkeys]
    exact collect_of_keys

theorem version_of_get {repository : ContextResourceQueueRepository} {version : Nat}
    {items : List ContextResourceRef} (h : repository.get version c = some items) :
    c.version = some version := by
  rw [ContextResourceQueueRepository.get] at h
  split at h
  · next hread => exact of_decide_eq_true hread
  · cases h

end Rows

/-! ## The updates of a chain -/

structure CachedChain where
  tables : ContextTables
  cache : CachedQueue

structure ResourceUpdate where
  turnId : TurnId
  now : Time
  update : ChainTurnUpdate

/-- What an update does to a list of resources in the order of their uses. -/
def ResourceUpdate.operations (u : ResourceUpdate) : List (Recency.Op ResourceKey) :=
  u.update.relatedResources.map (fun input => .use input.resourceKey) ++
    u.update.removedResourceKeys.map .forget

namespace CachedChain

variable (repository : ContextResourceQueueRepository) (column : Time → Time)
  (conversationId : ConversationId) (chainId : ChainId)

/-- The cache after the commit. -/
def cacheAfter (payload : Option ContextResourceQueueRefresh) (c : CachedQueue) : CachedQueue :=
  match payload with
  | none => c
  | some payload => refreshAfterCommit repository payload c

def step (s : CachedChain) (u : ResourceUpdate) : Option CachedChain :=
  (s.tables.chains.get? chainId).bind fun chain =>
    match applyInTransaction chain u.turnId u.now (some u.update) s.tables with
    | .error _ => none
    | .ok (payload, chain, t) => some ⟨t.saveChain chain, cacheAfter repository payload s.cache⟩

/-- A chain without resources; its keys may be absent. -/
structure Fresh (s : CachedChain) : Prop where
  chain : ∃ chain, s.tables.chains.get? chainId = some chain ∧
    chain.conversationId = conversationId ∧ chain.resourceVersion = 0
  resources : ∀ r ∈ s.tables.resources, r.chainId ≠ chainId
  events : ∀ ev ∈ s.tables.resourceEvents, ev.chainId ≠ chainId
  cache : s.cache = .absent ∨ s.cache = { CachedQueue.absent with version := some 0 }

def machine : Machine CachedChain ResourceUpdate :=
  ⟨Fresh conversationId chainId, step repository chainId⟩

/-- The update takes no resource out of the queue while others in use are not in it. -/
def KeepsFull (s : CachedChain) (u : ResourceUpdate) : Prop :=
  ∀ key ∈ u.update.removedResourceKeys, key ∈ s.cache.queue →
    ∀ r ∈ s.tables.activeResources chainId, r.resourceKey ∈ s.cache.queue

instance (s : CachedChain) (u : ResourceUpdate) : Decidable (KeepsFull chainId s u) :=
  inferInstanceAs (Decidable (∀ key ∈ u.update.removedResourceKeys, key ∈ s.cache.queue →
    ∀ r ∈ s.tables.activeResources chainId, r.resourceKey ∈ s.cache.queue))

/-- An update that agrees with the order of the database, and leaves the queue full: it comes at a
later time than all before, with increasing keys. -/
structure Steady (s : CachedChain) (u : ResourceUpdate) : Prop where
  later : ∀ r ∈ s.tables.activeResources chainId, column r.lastSeenAt < column u.now
  increasing : (u.update.relatedResources.map (·.resourceKey)).Pairwise (· < ·)
  queued : KeepsFull chainId s u

instance (s : CachedChain) (u : ResourceUpdate) : Decidable (Steady column chainId s u) :=
  decidable_of_iff ((∀ r ∈ s.tables.activeResources chainId, column r.lastSeenAt < column u.now) ∧
    (u.update.relatedResources.map (·.resourceKey)).Pairwise (· < ·) ∧ KeepsFull chainId s u)
    ⟨fun h => ⟨h.1, h.2.1, h.2.2⟩, fun h => ⟨h.later, h.increasing, h.queued⟩⟩

/-! ### One update -/

/-- What holds of a chain and its cache. -/
structure Hot (s : CachedChain) : Prop where
  listed : Listed s.tables chainId
  mirrors : Mirrors s.tables chainId s.cache
  length : s.cache.queue.length ≤ repository.capacity
  chain : ∃ chain, s.tables.chains.get? chainId = some chain ∧
    chain.conversationId = conversationId ∧
    (s.cache.version = some chain.resourceVersion ∨
      s.cache.version = none ∧ chain.resourceVersion = 0)

section Update

variable {repository column conversationId chainId} {s s' : CachedChain} {u : ResourceUpdate}

/-- The queue before the eviction. -/
def overfull (c : CachedQueue) (u : ResourceUpdate) (refs : List ContextResourceRef) :
    CachedQueue :=
  u.update.removedResourceKeys.foldl CachedQueue.removeItem (refs.foldl CachedQueue.refreshItem c)

theorem applyInTransaction_loops {chain chain' : ContextChain}
    {payload : Option ContextResourceQueueRefresh} {t t' : ContextTables}
    (h : applyInTransaction chain u.turnId u.now (some u.update) t = .ok (payload, chain', t')) :
    ∃ refs m, seeResources chain.chainId u.turnId u.now u.update.relatedResources t =
        .ok (refs, m) ∧
      removeResources chain.chainId u.turnId u.now u.update.removedResourceKeys m = .ok t' ∧
      (payload = none ∧ refs = [] ∧ u.update.removedResourceKeys = [] ∧ chain' = chain ∨
        payload = some ⟨chain.conversationId, chain.chainId, refs, u.update.removedResourceKeys,
          chain.resourceVersion, chain.resourceVersion + 1⟩ ∧
        chain' = { chain with resourceVersion := chain.resourceVersion + 1 }) := by
  simp only [applyInTransaction, bind_eq_ok, Prod.exists] at h
  obtain ⟨refs, m, hsee, m', hremove, h⟩ := h
  split at h
  · next hnone =>
    simp only [pure_eq_ok, Prod.mk.injEq] at h
    obtain ⟨rfl, rfl, rfl⟩ := h
    exact ⟨refs, m, hsee, hremove, .inl ⟨rfl, hnone.1, hnone.2, rfl⟩⟩
  · simp only [pure_eq_ok, Prod.mk.injEq] at h
    obtain ⟨rfl, rfl, rfl⟩ := h
    exact ⟨refs, m, hsee, hremove, .inr ⟨rfl, rfl⟩⟩

/-- The loops of an update in the database, and the same loops in the cache. -/
structure Updated (repository : ContextResourceQueueRepository) (conversationId : ConversationId)
    (chainId : ChainId) (s : CachedChain) (u : ResourceUpdate) (s' : CachedChain)
    (refs : List ContextResourceRef) (m t : ContextTables) : Prop where
  see : seeResources chainId u.turnId u.now u.update.relatedResources s.tables = .ok (refs, m)
  remove : removeResources chainId u.turnId u.now u.update.removedResourceKeys m = .ok t
  resources : s'.tables.resources = t.resources
  events : s'.tables.resourceEvents = t.resourceEvents
  chain : ∃ chain, s'.tables.chains.get? chainId = some chain ∧
    chain.conversationId = conversationId ∧
    (s'.cache.version = some chain.resourceVersion ∨
      s'.cache.version = none ∧ chain.resourceVersion = 0)
  cache : ∃ version, s'.cache = { (overfull s.cache u refs).evict
    ((overfull s.cache u refs).queue.length - repository.capacity) with version := version }

theorem chains_of_loops {refs : List ContextResourceRef} {t m t' : ContextTables}
    (hsee : seeResources chainId u.turnId u.now u.update.relatedResources t = .ok (refs, m))
    (hremove : removeResources chainId u.turnId u.now u.update.removedResourceKeys m = .ok t') :
    t'.chains = t.chains := by
  obtain ⟨-, evs, hlogged, -, -⟩ := seeResources_logged hsee
  obtain ⟨evs', hlogged', -, -⟩ := removeResources_logged hremove
  rw [hlogged'.chains, hlogged.chains]

/-- A refresh that continues the version of the cache is applied. -/
theorem refreshAfterCommit_applied {payload : ContextResourceQueueRefresh} {c : CachedQueue}
    (hversion : c.version = some payload.expectedPreviousVersion ∨
      c.version = none ∧ payload.expectedPreviousVersion = 0) :
    refreshAfterCommit repository payload c = c.refreshQueue repository.capacity payload.resources
      payload.removedResourceKeys payload.databaseVersion := by
  have hmatches : c.versionMatches payload.expectedPreviousVersion = true := by
    rcases hversion with h | ⟨h, hzero⟩
    · simp [CachedQueue.versionMatches, h]
    · simp [CachedQueue.versionMatches, h, hzero]
  rw [refreshAfterCommit, ContextResourceQueueRepository.refresh, if_pos hmatches]

theorem Hot.updated (hH : Hot repository conversationId chainId s)
    (hstep : step repository chainId s u = some s') :
    ∃ refs m t, Updated repository conversationId chainId s u s' refs m t := by
  obtain ⟨chain, hchain, h⟩ := Option.bind_eq_some_iff.mp hstep
  obtain ⟨chain₀, hchain₀, hconversation, hversion⟩ := hH.chain
  obtain rfl := Option.some.inj (hchain.symm.trans hchain₀)
  obtain ⟨hmem, rfl⟩ := Table.get?_eq_some.mp hchain
  cases happly : applyInTransaction chain u.turnId u.now (some u.update) s.tables with
  | error e =>
    simp only [happly] at h
    cases h
  | ok result =>
    obtain ⟨payload, chain', t⟩ := result
    simp only [happly] at h
    obtain rfl := Option.some.inj h
    obtain ⟨refs, m, hsee, hremove, hcases⟩ := applyInTransaction_loops happly
    have hmem' : chain ∈ t.chains := by
      rw [chains_of_loops hsee hremove]
      exact hmem
    rcases hcases with ⟨rfl, hrefs, hkeys, rfl⟩ | ⟨rfl, rfl⟩
    · -- without any key there is no refresh, and the loops do nothing
      refine ⟨refs, m, t, hsee, hremove, rfl, rfl, ?_, s.cache.version, ?_⟩
      · exact ⟨chain', Table.get?_save_self hmem' rfl, hconversation, hversion⟩
      · have hsame : overfull s.cache u refs = s.cache := by
          rw [overfull, hrefs, hkeys]
          rfl
        rw [hsame, Nat.sub_eq_zero_of_le hH.length]
        rfl
    · refine ⟨refs, m, t, hsee, hremove, rfl, rfl, ?_, some (chain.resourceVersion + 1), ?_⟩
      · refine ⟨{ chain with resourceVersion := chain.resourceVersion + 1 },
          Table.get?_save_self hmem' (by rfl), hconversation, .inl ?_⟩
        exact congrArg CachedQueue.version (refreshAfterCommit_applied hversion)
      · exact refreshAfterCommit_applied hversion

theorem Updated.listed {refs : List ContextResourceRef} {m t : ContextTables}
    (hU : Updated repository conversationId chainId s u s' refs m t)
    (hL : Listed s.tables chainId) : Listed t chainId := (hL.seeAll hU.see).removeAll hU.remove

theorem Updated.mirrors {refs : List ContextResourceRef} {m t : ContextTables}
    (hU : Updated repository conversationId chainId s u s' refs m t)
    (hM : Mirrors s.tables chainId s.cache) : Mirrors t chainId (overfull s.cache u refs) :=
  (hM.seeAll hU.see).removeAll hU.remove

theorem Updated.queue {refs : List ContextResourceRef} {m t : ContextTables}
    (hU : Updated repository conversationId chainId s u s' refs m t) :
    s'.cache.queue = Recency.last repository.capacity (overfull s.cache u refs).queue := by
  obtain ⟨version, hcache⟩ := hU.cache
  rw [hcache]
  exact CachedQueue.queue_evict _

theorem recency_congr {t t' : ContextTables} (h : t'.resourceEvents = t.resourceEvents) :
    recency t' chainId = recency t chainId := by
  rw [recency, recency, h]

theorem Hot.step (hH : Hot repository conversationId chainId s)
    (hstep : CachedChain.step repository chainId s u = some s') :
    Hot repository conversationId chainId s' := by
  obtain ⟨refs, m, t, hU⟩ := hH.updated hstep
  have hL := hU.listed hH.listed
  have hM := hU.mirrors hH.mirrors
  have hnodup : (overfull s.cache u refs).queue.Nodup := hL.nodup.sublist hM.suffix.sublist
  have hE := hM.evict hnodup ((overfull s.cache u refs).queue.length - repository.capacity)
  have hrecency : recency s'.tables chainId = recency t chainId := recency_congr hU.events
  obtain ⟨version, hcache⟩ := hU.cache
  refine ⟨⟨?_, ?_⟩, ⟨?_, ?_⟩, ?_, hU.chain⟩
  · rw [hrecency]
    exact hL.nodup
  · rw [hrecency, hU.resources]
    exact hL.mem
  · rw [hrecency, hcache]
    exact hE.suffix
  · rw [hU.resources, hcache]
    exact hE.data
  · rw [hU.queue, Recency.length_last]
    exact min_le_left _ _

theorem Fresh.recency (h : Fresh conversationId chainId s) : recency s.tables chainId = [] := by
  have hnone : s.tables.resourceEvents.filter (fun ev => ev.chainId = chainId) = [] := by
    rw [List.filter_eq_nil_iff]
    intro ev hev hsame
    exact h.events ev hev (of_decide_eq_true hsame)
  rw [Context.recency, hnone]
  rfl

theorem Fresh.queue (h : Fresh conversationId chainId s) : s.cache.queue = [] := by
  rcases h.cache with hc | hc
  · rw [hc]
    rfl
  · rw [hc]
    rfl

theorem Hot.of_fresh (h : Fresh conversationId chainId s) :
    Hot repository conversationId chainId s := by
  obtain ⟨chain, hchain, hconversation, hzero⟩ := h.chain
  refine ⟨⟨?_, ?_⟩, ⟨?_, ?_⟩, ?_, chain, hchain, hconversation, ?_⟩
  · rw [h.recency]
    exact List.nodup_nil
  · intro key
    rw [h.recency]
    refine iff_of_false List.not_mem_nil ?_
    rintro ⟨r, hr, -⟩
    obtain ⟨hmem, haddr⟩ := Table.get?_eq_some.mp hr
    exact h.resources r hmem (Prod.mk.inj haddr).1
  · rw [h.queue, h.recency]
  · rw [h.queue]
    intro key hkey
    cases hkey
  · rw [h.queue]
    exact Nat.zero_le _
  · rw [hzero]
    rcases h.cache with hc | hc
    · exact .inr ⟨by rw [hc]; rfl, rfl⟩
    · exact .inl (by rw [hc])

/-- The queue and the list go through the same operations. -/
theorem Updated.replayed {refs : List ContextResourceRef} {m t : ContextTables}
    (hU : Updated repository conversationId chainId s u s' refs m t) :
    (overfull s.cache u refs).queue = Recency.replay u.operations s.cache.queue ∧
      recency t chainId = Recency.replay u.operations (recency s.tables chainId) := by
  obtain ⟨hkeys, hsee⟩ := recency_seeAll hU.see
  have huses : refs.map (fun item => Recency.Op.use item.resourceKey) =
      u.update.relatedResources.map fun input => Recency.Op.use input.resourceKey := by
    have hmap := congrArg (List.map Recency.Op.use) hkeys
    rw [List.map_map, List.map_map] at hmap
    exact hmap
  constructor
  · rw [overfull, CachedQueue.queue_removeItems, CachedQueue.queue_refreshItems, huses,
      ResourceUpdate.operations, Recency.replay_append]
  · rw [recency_removeAll hU.remove, hsee, ResourceUpdate.operations, Recency.replay_append]

theorem forget_mem_operations {key : ResourceKey} (h : Recency.Op.forget key ∈ u.operations) :
    key ∈ u.update.removedResourceKeys := by
  simpa [ResourceUpdate.operations] using h

/-- **The cached queue is a bounded one.** -/
theorem Hot.queue_step (hH : Hot repository conversationId chainId s)
    (hstep : CachedChain.step repository chainId s u = some s') :
    s'.cache.queue =
      Recency.last repository.capacity (Recency.replay u.operations s.cache.queue) := by
  obtain ⟨refs, m, t, hU⟩ := hH.updated hstep
  rw [hU.queue, hU.replayed.1]

theorem Hot.recency_step (hH : Hot repository conversationId chainId s)
    (hstep : CachedChain.step repository chainId s u = some s') :
    recency s'.tables chainId = Recency.replay u.operations (recency s.tables chainId) := by
  obtain ⟨refs, m, t, hU⟩ := hH.updated hstep
  rw [recency_congr hU.events, hU.replayed.2]

/-- The queue has as many of the resources used last as it can. -/
def Full (repository : ContextResourceQueueRepository) (chainId : ChainId) (s : CachedChain) :
    Prop :=
  s.cache.queue = Recency.last repository.capacity (recency s.tables chainId)

/-- Such an update either finds all resources in the queue or takes none out of it. -/
theorem KeepsFull.last (hkeeps : KeepsFull chainId s u) (hL : Listed s.tables chainId)
    (hfull : Full repository chainId s) :
    Recency.last repository.capacity (recency s.tables chainId) = recency s.tables chainId ∨
      ∀ key ∈ u.update.removedResourceKeys,
        key ∉ Recency.last repository.capacity (recency s.tables chainId) := by
  rw [Full] at hfull
  by_cases hremoved : ∃ key ∈ u.update.removedResourceKeys, key ∈ s.cache.queue
  · obtain ⟨key, hkey, hmem⟩ := hremoved
    have hall := hkeeps key hkey hmem
    have hsub : recency s.tables chainId ⊆ s.cache.queue := by
      intro x hx
      obtain ⟨r, hr, hactive⟩ := (hL.mem x).mp hx
      rw [← resourceKey_of_get? hr]
      exact hall r (mem_activeResources_of_get? hr hactive)
    rw [hfull] at hsub
    exact .inl (Recency.last_suffix.eq_of_length_le (hL.nodup.subperm hsub).length_le)
  · refine .inr fun key hkey hmem => hremoved ⟨key, hkey, ?_⟩
    rw [hfull]
    exact hmem

/-- **A full queue stays full**, unless a removal finds resources outside of it. -/
theorem Full.step (hfull : Full repository chainId s)
    (hH : Hot repository conversationId chainId s) (hkeeps : KeepsFull chainId s u)
    (hstep : CachedChain.step repository chainId s u = some s') : Full repository chainId s' := by
  have hops := hkeeps.last hH.listed hfull
  rw [Full] at hfull ⊢
  rw [hH.queue_step hstep, hH.recency_step hstep, hfull]
  refine Recency.last_replay hH.listed.nodup ?_
  exact hops.imp_right fun hnone key hkey => hnone key (forget_mem_operations hkey)

theorem Full.of_fresh (h : Fresh conversationId chainId s) : Full repository chainId s := by
  rw [Full, h.queue, h.recency, Recency.last, List.drop_nil]

/-- The queue is full, and the list is in the order of the database. -/
structure Tight (repository : ContextResourceQueueRepository) (column : Time → Time)
    (chainId : ChainId) (s : CachedChain) : Prop where
  queue : Full repository chainId s
  sorted : Sorted column s.tables chainId

theorem Tight.step (hT : Tight repository column chainId s)
    (hH : Hot repository conversationId chainId s) (hsteady : Steady column chainId s u)
    (hstep : CachedChain.step repository chainId s u = some s') :
    Tight repository column chainId s' := by
  obtain ⟨refs, m, t, hU⟩ := hH.updated hstep
  have hrecency : recency s'.tables chainId = recency t chainId := recency_congr hU.events
  constructor
  · exact hT.queue.step hH hsteady.queued hstep
  · have hbefore : ∀ x ∈ recency s.tables chainId, ∀ input ∈ u.update.relatedResources,
        Precedes column s.tables chainId u.now x input.resourceKey := by
      intro x hx input _ r hr
      obtain ⟨r', hr', hactive⟩ := (hH.listed.mem x).mp hx
      obtain rfl := Option.some.inj (hr.symm.trans hr')
      exact .inl (hsteady.later r (mem_activeResources_of_get? hr hactive))
    have hsorted : Sorted column t chainId :=
      (hT.sorted.seeAll hsteady.increasing hbefore hU.see).removeAll hU.remove
    rw [Sorted, hrecency]
    refine hsorted.imp ?_
    intro x y hxy r r' hr hr'
    rw [hU.resources] at hr hr'
    exact hxy r r' hr hr'

theorem Tight.of_fresh (h : Fresh conversationId chainId s) :
    Tight repository column chainId s := by
  refine ⟨.of_fresh h, ?_⟩
  rw [Sorted, h.recency]
  exact List.Pairwise.nil

/-! ### Runs -/

theorem reachable_hot (hs : (machine repository conversationId chainId).Reachable s) :
    Hot repository conversationId chainId s := by
  refine Machine.ReachableVia.invariant (P := Hot repository conversationId chainId) ?_ ?_ hs
  · intro s h
    exact Hot.of_fresh h
  · intro s u s' _ hH _ hstep
    exact hH.step hstep

theorem reachableVia_full
    (hs : (machine repository conversationId chainId).ReachableVia (KeepsFull chainId) s) :
    Full repository chainId s := by
  refine Machine.ReachableVia.invariant (P := Full repository chainId) ?_ ?_ hs
  · intro s h
    exact Full.of_fresh h
  · intro s u s' hr hfull hkeeps hstep
    exact hfull.step (reachable_hot hr.reachable) hkeeps hstep

theorem reachableVia_tight
    (hs : (machine repository conversationId chainId).ReachableVia (Steady column chainId) s) :
    Tight repository column chainId s := by
  refine Machine.ReachableVia.invariant (P := Tight repository column chainId) ?_ ?_ hs
  · intro s h
    exact Tight.of_fresh h
  · intro s u s' hr hT hsteady hstep
    exact hT.step (reachable_hot hr.reachable) hsteady hstep

/-- A resource of the cache, with its time as the database keeps it. -/
def asStored (column : Time → Time) (item : ContextResourceRef) : ContextResourceRef :=
  { item with lastSeenAt := column item.lastSeenAt }

/-- What the cache answers, when it does. -/
theorem Hot.items (hH : Hot repository conversationId chainId s) {version : Nat}
    {items : List ContextResourceRef} (h : repository.get version s.cache = some items) :
    items = (rowsOf s.tables chainId s.cache.queue).map (resourceRef id) := by
  have hget := hH.mirrors.get hH.length (version_of_get h)
  exact Option.some.inj (h.symm.trans hget)

theorem Tight.load (hT : Tight repository column chainId s)
    (hH : Hot repository conversationId chainId s) {chain : ContextChain}
    (hchain : s.tables.chains.get? chainId = some chain)
    (hconversation : chain.conversationId = conversationId) :
    loadResourcesForWarmup repository column conversationId chainId chain.resourceVersion s.tables =
      .ok ((rowsOf s.tables chainId s.cache.queue).map (resourceRef column)) := by
  have hrebuilt := hH.listed.rebuilt hT.sorted repository.capacity
  have hqueue : s.cache.queue = _ := hT.queue
  rw [← hqueue] at hrebuilt
  rw [← hrebuilt]
  simp only [loadResourcesForWarmup, bind_eq_ok, orRaise_eq_ok, ensure_eq_ok, pure_eq_ok]
  exact ⟨chain, hchain, (), hconversation, (), rfl, trivial⟩

/-- The keys that the cache answers are those of the queue. -/
theorem Hot.keys (hH : Hot repository conversationId chainId s) {version : Nat}
    {items : List ContextResourceRef} (h : repository.get version s.cache = some items) :
    items.map (·.resourceKey) = s.cache.queue := by
  rw [hH.items h, List.map_map]
  exact hH.mirrors.holds.1

/-- **The hot resources of a chain.**  The list has every resource in use once.  What the cache
answers is its queue, an end of that list, with the data of the rows; it answers whenever there
has been an update.  Every update leaves the last elements of the queue it has found, moved
and taken out as it says; the queue has the last elements of the list as long as no removal finds
resources outside of it.  As long as the updates are steady, a miss is answered in the same way. -/
theorem hot_queue (repository : ContextResourceQueueRepository) (column : Time → Time)
    (conversationId : ConversationId) (chainId : ChainId) :
    (∀ s, (machine repository conversationId chainId).Reachable s →
      Listed s.tables chainId ∧ (∀ chain, s.tables.chains.get? chainId = some chain →
        (0 < chain.resourceVersion →
          ∃ items, repository.get chain.resourceVersion s.cache = some items) ∧
        ∀ items, repository.get chain.resourceVersion s.cache = some items →
          items.map (·.resourceKey) = s.cache.queue ∧
          s.cache.queue <:+ recency s.tables chainId ∧
          items.length ≤ repository.capacity ∧
          ∀ item ∈ items, ∃ r ∈ s.tables.activeResources chainId, item = resourceRef id r) ∧
      ∀ u s', (machine repository conversationId chainId).step s u = some s' →
        recency s'.tables chainId = Recency.replay u.operations (recency s.tables chainId) ∧
        s'.cache.queue =
          Recency.last repository.capacity (Recency.replay u.operations s.cache.queue)) ∧
    (∀ s, (machine repository conversationId chainId).ReachableVia (KeepsFull chainId) s →
      s.cache.queue = Recency.last repository.capacity (recency s.tables chainId)) ∧
    ∀ s, (machine repository conversationId chainId).ReachableVia (Steady column chainId) s →
      ∀ chain, s.tables.chains.get? chainId = some chain →
        ∀ items, repository.get chain.resourceVersion s.cache = some items →
          loadResourcesForWarmup repository column conversationId chainId chain.resourceVersion
            s.tables = .ok (items.map (asStored column)) := by
  refine ⟨fun s hs => ?_, fun s hs => reachableVia_full hs, fun s hs chain hchain items hitems => ?_⟩
  · have hH := reachable_hot hs
    refine ⟨hH.listed, fun chain hchain => ⟨?_, ?_⟩, fun u s' hstep =>
      ⟨hH.recency_step hstep, hH.queue_step hstep⟩⟩
    · intro hpos
      obtain ⟨chain', hchain', -, hversion⟩ := hH.chain
      obtain rfl := Option.some.inj (hchain.symm.trans hchain')
      rcases hversion with hversion | ⟨-, hzero⟩
      · exact ⟨_, hH.mirrors.get hH.length hversion⟩
      · omega
    · intro items hitems
      have hkeys := hH.keys hitems
      refine ⟨hkeys, hH.mirrors.suffix, ?_, ?_⟩
      · rw [← List.length_map (f := (·.resourceKey)), hkeys]
        exact hH.length
      · rw [hH.items hitems]
        intro item hitem
        obtain ⟨r, hr, rfl⟩ := List.mem_map.mp hitem
        obtain ⟨hkey, hget⟩ := get?_of_mem_rowsOf hr
        obtain ⟨r', hr', hactive⟩ := (hH.listed.mem _).mp (hH.mirrors.suffix.subset hkey)
        obtain rfl := Option.some.inj (hget.symm.trans hr')
        exact ⟨r, mem_activeResources_of_get? hget hactive, rfl⟩
  · have hH := reachable_hot hs.reachable
    obtain ⟨chain', hchain', hconversation, -⟩ := hH.chain
    obtain rfl := Option.some.inj (hchain.symm.trans hchain')
    rw [hH.items hitems, (reachableVia_tight hs).load hH hchain hconversation, List.map_map]
    rfl

end Update

/-! ## Two runs in which they differ -/

def queueOfOne : ContextResourceQueueRepository := ⟨1, by decide⟩

def queueOfTwo : ContextResourceQueueRepository := ⟨2, Nat.zero_lt_two⟩

def newTables : ContextTables :=
  { ContextTables.empty with chains := ⟨[newChain 1 1 0], by decide⟩ }

def newCachedChain : CachedChain := ⟨newTables, .absent⟩

theorem newCachedChain_fresh : Fresh 1 1 newCachedChain where
  chain := ⟨_, rfl, rfl, rfl⟩
  resources := by
    intro r hr
    cases hr
  events := by
    intro ev hev
    cases hev
  cache := .inl rfl

def document (resourceId : String) : ContextResourceInput :=
  { resourceType := "document", resourceId := resourceId, relation := none, summary := none }

def update (related : List ContextResourceInput) (removed : List ResourceKey) : ChainTurnUpdate :=
  { chainId := 1, relatedTaskIds := [], relatedResources := related, removedResourceKeys := removed }

/-- One update, with its keys in decreasing order. -/
def twoAtOnce : CachedChain :=
  ((machine queueOfTwo 1 1).run newCachedChain
    [⟨1, 10, update [document "b", document "a"] []⟩]).getD newCachedChain

/-- A queue of one resource, which takes in another and loses it again. -/
def oneRemoved : CachedChain :=
  ((machine queueOfOne 1 1).run newCachedChain
    [⟨1, 10, update [document "a"] []⟩, ⟨2, 20, update [document "b"] []⟩,
      ⟨3, 30, update [] ["document:b"]⟩]).getD newCachedChain

theorem twoAtOnce_reachable : (machine queueOfTwo 1 1).Reachable twoAtOnce :=
  .run (.init newCachedChain_fresh) (show (machine queueOfTwo 1 1).run newCachedChain
    [⟨1, 10, update [document "b", document "a"] []⟩] = some twoAtOnce by rfl)

theorem oneRemoved_reachable : (machine queueOfOne 1 1).Reachable oneRemoved :=
  .run (.init newCachedChain_fresh) (show (machine queueOfOne 1 1).run newCachedChain
    [⟨1, 10, update [document "a"] []⟩, ⟨2, 20, update [document "b"] []⟩,
      ⟨3, 30, update [] ["document:b"]⟩] = some oneRemoved by rfl)

/-- **The rebuild is another queue**: it orders the keys of one update by themselves, and it finds a
resource that the queue has evicted. -/
theorem rebuild_differs :
    (∃ s, (machine queueOfTwo 1 1).Reachable s ∧
      (queueOfTwo.get 1 s.cache).map (·.map (·.resourceKey)) =
        some ["document:b", "document:a"] ∧
      (loadResourcesForWarmup queueOfTwo id 1 1 1 s.tables).toOption.map
        (·.map (·.resourceKey)) = some ["document:a", "document:b"]) ∧
    ∃ s, (machine queueOfOne 1 1).Reachable s ∧
      (queueOfOne.get 3 s.cache).map (·.map (·.resourceKey)) = some [] ∧
      (loadResourcesForWarmup queueOfOne id 1 1 3 s.tables).toOption.map
        (·.map (·.resourceKey)) = some ["document:a"] := by
  constructor
  · exact ⟨twoAtOnce, twoAtOnce_reachable, by rfl, by rfl⟩
  · exact ⟨oneRemoved, oneRemoved_reachable, by rfl, by rfl⟩

/-! ## A run in which they agree -/

/-- A queue of two takes in a third resource, and the one it has evicted is removed. -/
def steadyUpdates : List ResourceUpdate :=
  [⟨1, 10, update [document "a", document "b"] []⟩, ⟨2, 20, update [document "c"] []⟩,
    ⟨3, 30, update [] ["document:a"]⟩]

def afterSteady : CachedChain :=
  ((machine queueOfTwo 1 1).run newCachedChain steadyUpdates).getD newCachedChain

theorem steadyUpdates_run :
    (machine queueOfTwo 1 1).RunVia (Steady id 1) newCachedChain steadyUpdates afterSteady :=
  .of_runWhile rfl

theorem hot_queue_steady :
    ∃ items, queueOfTwo.get 3 afterSteady.cache = some items ∧
      items.map (·.resourceKey) = ["document:b", "document:c"] ∧
      afterSteady.cache.queue = Recency.last 2 (recency afterSteady.tables 1) ∧
      loadResourcesForWarmup queueOfTwo id 1 1 3 afterSteady.tables =
        .ok (items.map (asStored id)) := by
  obtain ⟨-, hfull, hload⟩ := hot_queue queueOfTwo id 1 1
  have hreach := steadyUpdates_run.reachableVia (.init newCachedChain_fresh)
  refine ⟨_, rfl, rfl, ?_, hload _ hreach _ rfl _ rfl⟩
  exact hfull _ (hreach.mono fun _ _ hsteady => hsteady.queued)

end CachedChain

end DocFlow.Context
