import DocFlow.Context.EventSourcing
import DocFlow.Context.ResourceQueue

/-!
# The cached queue and the rebuilt one

The updates of one chain, each followed by its refresh of the cache.  The log of the chain says in
which order its resources have been used last (`recency`).  The cached queue is an end of that list,
with the data of the rows (`Mirrors`).  The rebuild orders by time and key, and selects from all
active rows: it finds the same queue as long as these agree with the order of the uses and no update
takes a resource out of the queue while others have been evicted (`Steady`).
-/

namespace DocFlow.Context

/-! ## The order of the uses -/

def recencyOp (ev : ContextChainResourceEvent) : Recency.Op ResourceKey :=
  match ev.action with
  | .seen | .refreshed => .use ev.resourceKey
  | .removed | .invalidated => .forget ev.resourceKey

/-- The resources in use, in the order of their last uses. -/
def recency (t : ContextTables) (chainId : ChainId) : List ResourceKey :=
  Recency.replay ((t.resourceEvents.filter fun ev => ev.chainId = chainId).map recencyOp) []

theorem recencyOp_of_isUse {ev : ContextChainResourceEvent} (h : isUse ev = true) :
    recencyOp ev = .use ev.resourceKey := by
  unfold isUse at h
  unfold recencyOp
  cases haction : ev.action with
  | seen => rfl
  | refreshed => rfl
  | removed => simp [haction] at h
  | invalidated => simp [haction] at h

theorem recencyOp_of_removed {ev : ContextChainResourceEvent} (h : ev.action = .removed) :
    recencyOp ev = .forget ev.resourceKey := by
  rw [recencyOp, h]

section Recency

variable {t t' : ContextTables} {chainId : ChainId} {turnId : TurnId}
  {ev : ContextChainResourceEvent}

theorem recency_logs (h : Logs t ev t') (hc : ev.chainId = chainId) :
    recency t' chainId = (recencyOp ev).apply (recency t chainId) := by
  have hlast : [ev].filter (fun ev => ev.chainId = chainId) = [ev] := by simp [hc]
  rw [recency, h.events, List.filter_append, hlast, List.map_append, Recency.replay_append]
  rfl

theorem recency_use (h : Logs t ev t') (hc : ev.chainId = chainId) (huse : isUse ev = true) :
    recency t' chainId = Recency.use ev.resourceKey (recency t chainId) := by
  rw [recency_logs h hc, recencyOp_of_isUse huse]
  rfl

theorem recency_forget (h : Logs t ev t') (hc : ev.chainId = chainId)
    (haction : ev.action = .removed) :
    recency t' chainId = Recency.forget ev.resourceKey (recency t chainId) := by
  rw [recency_logs h hc, recencyOp_of_removed haction]
  rfl

theorem mem_activeResources {r : ContextChainResource} :
    r ∈ t.activeResources chainId ↔ r ∈ t.resources ∧ r.chainId = chainId ∧ r.active = true := by
  unfold ContextTables.activeResources
  rw [List.mem_filter, decide_eq_true_iff, Table.mem_iff]

/-- The list has each resource in use once. -/
structure Listed (t : ContextTables) (chainId : ChainId) : Prop where
  nodup : (recency t chainId).Nodup
  mem : ∀ key, key ∈ recency t chainId ↔
    ∃ r, t.resources.get? (chainId, key) = some r ∧ r.active = true

theorem active_of_use (h : Logs t ev t') (huse : isUse ev = true) :
    ∃ r, t'.resources.get? ev.address = some r ∧ r.active = true := by
  rw [h.own]
  unfold applyEvent
  cases haction : ev.action with
  | seen => exact ⟨_, rfl, rfl⟩
  | refreshed =>
    obtain ⟨r, hr⟩ := Option.ne_none_iff_exists'.mp (h.fits.refreshed haction)
    rw [hr]
    exact ⟨_, rfl, rfl⟩
  | removed => simp [isUse, haction] at huse
  | invalidated => simp [isUse, haction] at huse

theorem inactive_of_removed (h : Logs t ev t') (haction : ev.action = .removed)
    {r : ContextChainResource} (hr : t'.resources.get? ev.address = some r) : r.active = false := by
  rw [h.own, applyEvent, haction] at hr
  obtain ⟨r₀, -, rfl⟩ := Option.map_eq_some_iff.mp hr
  rfl

theorem Listed.use (hL : Listed t chainId) (h : Logs t ev t') (hc : ev.chainId = chainId)
    (huse : isUse ev = true) : Listed t' chainId := by
  subst hc
  constructor
  · rw [recency_use h rfl huse]
    exact Recency.nodup_use hL.nodup
  · intro key
    rw [recency_use h rfl huse, Recency.mem_use]
    by_cases hkey : key = ev.resourceKey
    · subst hkey
      exact iff_of_true (.inr rfl) (active_of_use h huse)
    · rw [hL.mem, h.other (ev.chainId, key) fun he => hkey (Prod.mk.inj he).2.symm]
      simp [hkey]

theorem Listed.forget (hL : Listed t chainId) (h : Logs t ev t') (hc : ev.chainId = chainId)
    (haction : ev.action = .removed) : Listed t' chainId := by
  subst hc
  constructor
  · rw [recency_forget h rfl haction]
    exact Recency.nodup_forget hL.nodup
  · intro key
    rw [recency_forget h rfl haction, Recency.mem_forget]
    by_cases hkey : key = ev.resourceKey
    · subst hkey
      refine iff_of_false (fun hmem => hmem.2 rfl) ?_
      rintro ⟨r, hr, hactive⟩
      rw [inactive_of_removed h haction hr] at hactive
      cases hactive
    · rw [hL.mem, h.other (ev.chainId, key) fun he => hkey (Prod.mk.inj he).2.symm]
      simp [hkey]

end Recency

/-! ## The scripts -/

namespace CachedQueue

variable {c : CachedQueue}

@[simp] theorem queue_refreshItem (item : ContextResourceRef) :
    (c.refreshItem item).queue = Recency.use item.resourceKey c.queue := rfl

@[simp] theorem data_refreshItem (item : ContextResourceRef) :
    (c.refreshItem item).data = Function.update c.data item.resourceKey (some item) := rfl

@[simp] theorem queue_removeItem (key : ResourceKey) :
    (c.removeItem key).queue = Recency.forget key c.queue := rfl

@[simp] theorem data_removeItem (key : ResourceKey) :
    (c.removeItem key).data = Function.update c.data key none := rfl

theorem evictOldest_cons {key : ResourceKey} {rest : List ResourceKey} (h : c.queue = key :: rest) :
    c.evictOldest.queue = rest ∧ c.evictOldest.data = Function.update c.data key none := by
  simp [evictOldest, lpop, h, hdel]

theorem queue_evict (n : Nat) : (c.evict n).queue = c.queue.drop n := by
  induction n generalizing c with
  | zero => rfl
  | succ n ih =>
    rw [evict, ih]
    cases hqueue : c.queue with
    | nil => simp [evictOldest, lpop, hqueue]
    | cons key rest => rw [(evictOldest_cons hqueue).1, List.drop_succ_cons]

/-- What is left keeps its data. -/
theorem data_evict (hnodup : c.queue.Nodup) (n : Nat) {key : ResourceKey}
    (hkey : key ∈ (c.evict n).queue) : (c.evict n).data key = c.data key := by
  induction n generalizing c with
  | zero => rfl
  | succ n ih =>
    rw [evict] at hkey ⊢
    cases hqueue : c.queue with
    | nil =>
      rw [queue_evict] at hkey
      simp [evictOldest, lpop, hqueue] at hkey
    | cons oldest rest =>
      obtain ⟨hrest, hdata⟩ := evictOldest_cons hqueue
      rw [hqueue] at hnodup
      rw [ih (hrest ▸ hnodup.of_cons) hkey, hdata]
      have hmem : key ∈ rest := by
        rw [queue_evict, hrest] at hkey
        exact List.mem_of_mem_drop hkey
      have hne : key ≠ oldest := by
        rintro rfl
        exact (List.nodup_cons.mp hnodup).1 hmem
      rw [Function.update_of_ne hne]

theorem queue_refreshItems (resources : List ContextResourceRef) :
    (resources.foldl refreshItem c).queue =
      Recency.replay (resources.map fun item => .use item.resourceKey) c.queue := by
  induction resources generalizing c with
  | nil => rfl
  | cons item resources ih => exact ih

theorem queue_removeItems (keys : List ResourceKey) :
    (keys.foldl removeItem c).queue = Recency.replay (keys.map .forget) c.queue := by
  induction keys generalizing c with
  | nil => rfl
  | cons key keys ih => exact ih

end CachedQueue

/-! ## The cache mirrors the database -/

section Mirrors

variable {t t' : ContextTables} {chainId : ChainId} {turnId : TurnId} {now : Time}
  {c : CachedQueue}

/-- The cached queue is an end of the list, with the data of the rows. -/
structure Mirrors (t : ContextTables) (chainId : ChainId) (c : CachedQueue) : Prop where
  suffix : c.queue <:+ recency t chainId
  data : ∀ key ∈ c.queue, ∃ r, t.resources.get? (chainId, key) = some r ∧
    c.data key = some (resourceRef id r)

/-- The row that `seeResource` leaves is the one of the refresh. -/
theorem seeResource_row {input : ContextResourceInput} {ref : ContextResourceRef}
    (h : seeResource chainId turnId now input t = .ok (ref, t')) :
    ref.resourceKey = input.resourceKey ∧
      ∃ r, t'.resources.get? (chainId, input.resourceKey) = some r ∧ ref = resourceRef id r ∧
        r.lastSeenAt = now := by
  unfold seeResource ContextTables.upsertChainResource at h
  cases hget : t.resources.get? (chainId, input.resourceKey) with
  | none =>
    simp only [hget, bind_eq_ok, orRaise_eq_ok, pure_eq_ok, Prod.exists, Prod.mk.injEq] at h
    obtain ⟨_, _, _, ⟨table, htable, rfl, rfl, rfl⟩, rfl, rfl⟩ := h
    have hown : table.get? (chainId, input.resourceKey) =
        some (ContextTables.newResource chainId turnId now input) :=
      Table.get?_eq_some.mpr ⟨(Table.mem_insert htable).mpr (.inr rfl), rfl⟩
    exact ⟨rfl, _, hown, rfl, rfl⟩
  | some row =>
    simp only [hget, bind_eq_ok, pure_eq_ok, Except.ok.injEq, Prod.exists, Prod.mk.injEq] at h
    obtain ⟨_, _, _, ⟨rfl, rfl, rfl⟩, rfl, rfl⟩ := h
    obtain ⟨hrow, hkey⟩ := Table.get?_eq_some.mp hget
    have haddr : (ContextTables.refreshResource turnId now input row).address = row.address := rfl
    have hown : (t.resources.save (ContextTables.refreshResource turnId now input row)).get?
        (chainId, input.resourceKey) =
        some (ContextTables.refreshResource turnId now input row) := by
      rw [← hkey, ← haddr]
      exact Table.get?_save_self hrow haddr
    exact ⟨(Prod.mk.inj hkey).2, _, hown, rfl, rfl⟩

theorem Mirrors.see (hM : Mirrors t chainId c) {input : ContextResourceInput}
    {ref : ContextResourceRef} (h : seeResource chainId turnId now input t = .ok (ref, t')) :
    Mirrors t' chainId (c.refreshItem ref) := by
  obtain ⟨ev, hc, -, hkey, huse, hlogs⟩ := seeResource_logs h
  obtain ⟨href, r, hr, hrow, -⟩ := seeResource_row h
  constructor
  · rw [recency_use hlogs hc huse, CachedQueue.queue_refreshItem, hkey, href]
    exact Recency.use_suffix hM.suffix
  · intro key hmem
    rw [CachedQueue.queue_refreshItem, Recency.mem_use] at hmem
    rw [CachedQueue.data_refreshItem]
    by_cases hsame : key = ref.resourceKey
    · subst hsame
      rw [Function.update_self, href]
      exact ⟨r, hr, by rw [hrow]⟩
    · have hother : ev.address ≠ (chainId, key) := by
        intro he
        exact hsame (by rw [href, ← hkey, ← (Prod.mk.inj he).2])
      rw [Function.update_of_ne hsame, hlogs.other _ hother]
      exact hM.data key (hmem.resolve_right hsame)

theorem Mirrors.remove (hM : Mirrors t chainId c) {key : ResourceKey}
    (h : removeResource chainId turnId now key t = .ok t') :
    Mirrors t' chainId (c.removeItem key) := by
  obtain ⟨ev, hc, -, hkey, haction, hlogs⟩ := removeResource_logs h
  constructor
  · rw [recency_forget hlogs hc haction, CachedQueue.queue_removeItem, hkey]
    exact Recency.forget_suffix hM.suffix
  · intro x hmem
    rw [CachedQueue.queue_removeItem, Recency.mem_forget] at hmem
    have hother : ev.address ≠ (chainId, x) := by
      intro he
      exact hmem.2 (by rw [← hkey, ← (Prod.mk.inj he).2])
    rw [CachedQueue.data_removeItem, Function.update_of_ne hmem.2, hlogs.other _ hother]
    exact hM.data x hmem.1

theorem Mirrors.seeAll (hM : Mirrors t chainId c) {inputs : List ContextResourceInput}
    {refs : List ContextResourceRef}
    (h : seeResources chainId turnId now inputs t = .ok (refs, t')) :
    Mirrors t' chainId (refs.foldl CachedQueue.refreshItem c) := by
  induction inputs generalizing t refs c with
  | nil =>
    obtain ⟨rfl, rfl⟩ := Prod.mk.inj (Except.ok.inj h)
    exact hM
  | cons input inputs ih =>
    simp only [seeResources, bind_eq_ok, Prod.exists, pure_eq_ok, Prod.mk.injEq] at h
    obtain ⟨ref, m, hfirst, refs', m', hrest, rfl, rfl⟩ := h
    exact ih (hM.see hfirst) hrest

theorem Mirrors.removeAll (hM : Mirrors t chainId c) {keys : List ResourceKey}
    (h : removeResources chainId turnId now keys t = .ok t') :
    Mirrors t' chainId (keys.foldl CachedQueue.removeItem c) := by
  induction keys generalizing t c with
  | nil =>
    obtain rfl := Except.ok.inj h
    exact hM
  | cons key keys ih =>
    simp only [removeResources, bind_eq_ok] at h
    obtain ⟨m, hfirst, hrest⟩ := h
    exact ih (hM.remove hfirst) hrest

theorem Mirrors.evict (hM : Mirrors t chainId c) (hnodup : c.queue.Nodup) (n : Nat) :
    Mirrors t chainId (c.evict n) := by
  constructor
  · rw [CachedQueue.queue_evict]
    exact (List.drop_suffix n c.queue).trans hM.suffix
  · intro key hkey
    rw [CachedQueue.data_evict hnodup n hkey]
    refine hM.data key ?_
    rw [CachedQueue.queue_evict] at hkey
    exact List.mem_of_mem_drop hkey

end Mirrors

/-! ## The loops of an update -/

section Loops

variable {t t' : ContextTables} {chainId : ChainId} {turnId : TurnId} {now : Time}

theorem Listed.logged {evs : List ContextChainResourceEvent} (hL : Listed t chainId)
    (h : Logged chainId turnId t evs t')
    (hevs : ∀ ev ∈ evs, isUse ev = true ∨ ev.action = .removed) : Listed t' chainId := by
  induction h with
  | nil => exact hL
  | @cons t m t' ev evs hc _ hlogs _ ih =>
    refine ih ?_ fun x hx => hevs x (List.mem_cons_of_mem _ hx)
    rcases hevs ev List.mem_cons_self with huse | haction
    · exact hL.use hlogs hc huse
    · exact hL.forget hlogs hc haction

theorem Listed.seeAll (hL : Listed t chainId) {inputs : List ContextResourceInput}
    {refs : List ContextResourceRef}
    (h : seeResources chainId turnId now inputs t = .ok (refs, t')) : Listed t' chainId := by
  obtain ⟨-, evs, hlogged, -, huses⟩ := seeResources_logged h
  exact hL.logged hlogged fun ev hev => .inl (huses ev hev)

theorem Listed.removeAll (hL : Listed t chainId) {keys : List ResourceKey}
    (h : removeResources chainId turnId now keys t = .ok t') : Listed t' chainId := by
  obtain ⟨evs, hlogged, -, hremovals⟩ := removeResources_logged h
  exact hL.logged hlogged fun ev hev => .inr (hremovals ev hev)

theorem recency_see {input : ContextResourceInput} {ref : ContextResourceRef}
    (h : seeResource chainId turnId now input t = .ok (ref, t')) :
    recency t' chainId = Recency.use input.resourceKey (recency t chainId) := by
  obtain ⟨ev, hc, -, hkey, huse, hlogs⟩ := seeResource_logs h
  rw [recency_use hlogs hc huse, hkey]

theorem recency_seeAll {inputs : List ContextResourceInput} {refs : List ContextResourceRef}
    (h : seeResources chainId turnId now inputs t = .ok (refs, t')) :
    refs.map (·.resourceKey) = inputs.map (·.resourceKey) ∧
      recency t' chainId =
        Recency.replay (inputs.map fun input => .use input.resourceKey) (recency t chainId) := by
  induction inputs generalizing t refs with
  | nil =>
    obtain ⟨rfl, rfl⟩ := Prod.mk.inj (Except.ok.inj h)
    exact ⟨rfl, rfl⟩
  | cons input inputs ih =>
    simp only [seeResources, bind_eq_ok, Prod.exists, pure_eq_ok, Prod.mk.injEq] at h
    obtain ⟨ref, m, hfirst, refs', m', hrest, rfl, rfl⟩ := h
    obtain ⟨hkeys, hrecency⟩ := ih hrest
    refine ⟨by simp [(seeResource_row hfirst).1, hkeys], ?_⟩
    rw [hrecency, recency_see hfirst]
    rfl

theorem recency_removeAll {keys : List ResourceKey}
    (h : removeResources chainId turnId now keys t = .ok t') :
    recency t' chainId = Recency.replay (keys.map .forget) (recency t chainId) := by
  induction keys generalizing t with
  | nil =>
    obtain rfl := Except.ok.inj h
    rfl
  | cons key keys ih =>
    simp only [removeResources, bind_eq_ok] at h
    obtain ⟨m, hfirst, hrest⟩ := h
    obtain ⟨ev, hc, -, hkey, haction, hlogs⟩ := removeResource_logs hfirst
    rw [ih hrest, recency_forget hlogs hc haction, hkey]
    rfl

end Loops

/-! ## The order of the database -/

section Order

variable {column : Time → Time} {t t' : ContextTables} {chainId : ChainId} {turnId : TurnId}
  {now : Time}

/-- The database finds the first resource older than the second. -/
def Older (column : Time → Time) (t : ContextTables) (chainId : ChainId) (key key' : ResourceKey) :
    Prop :=
  ∀ r r', t.resources.get? (chainId, key) = some r → t.resources.get? (chainId, key') = some r' →
    column r.lastSeenAt < column r'.lastSeenAt ∨
      column r.lastSeenAt = column r'.lastSeenAt ∧ key < key'

/-- The list is in the order of the database. -/
def Sorted (column : Time → Time) (t : ContextTables) (chainId : ChainId) : Prop :=
  (recency t chainId).Pairwise (Older column t chainId)

/-- The database finds a use of `key` now newer than the last use of `x`. -/
def Precedes (column : Time → Time) (t : ContextTables) (chainId : ChainId) (now : Time)
    (x key : ResourceKey) : Prop :=
  ∀ r, t.resources.get? (chainId, x) = some r →
    column r.lastSeenAt < column now ∨ column r.lastSeenAt = column now ∧ x < key

/-- Rows that a step leaves alone keep their order. -/
theorem Sorted.forget {key : ResourceKey}
    (hS : Sorted column t chainId) (hother : ∀ x, x ≠ key →
      t'.resources.get? (chainId, x) = t.resources.get? (chainId, x)) :
    (Recency.forget key (recency t chainId)).Pairwise (Older column t' chainId) := by
  refine (Recency.pairwise_forget hS).imp_of_mem ?_
  intro x y hx hy hxy r r' hr hr'
  rw [hother x (Recency.mem_forget.mp hx).2] at hr
  rw [hother y (Recency.mem_forget.mp hy).2] at hr'
  exact hxy r r' hr hr'

theorem Sorted.see {input : ContextResourceInput} {ref : ContextResourceRef}
    (hS : Sorted column t chainId)
    (h : seeResource chainId turnId now input t = .ok (ref, t'))
    (hbefore : ∀ x ∈ recency t chainId, Precedes column t chainId now x input.resourceKey) :
    Sorted column t' chainId := by
  obtain ⟨ev, hc, -, hkey, -, hlogs⟩ := seeResource_logs h
  obtain ⟨-, row, hrow, -, hnow⟩ := seeResource_row h
  have hother : ∀ x, x ≠ input.resourceKey →
      t'.resources.get? (chainId, x) = t.resources.get? (chainId, x) := by
    intro x hx
    refine hlogs.other _ fun he => hx ?_
    rw [← hkey]
    exact (Prod.mk.inj he).2.symm
  rw [Sorted, recency_see h]
  refine Recency.pairwise_use (hS.forget hother) ?_
  intro x hx hne r r' hr hr'
  rw [hother x hne] at hr
  obtain rfl := Option.some.inj (hrow.symm.trans hr')
  rw [hnow]
  exact hbefore x hx r hr

theorem Sorted.remove {key : ResourceKey} (hS : Sorted column t chainId)
    (h : removeResource chainId turnId now key t = .ok t') : Sorted column t' chainId := by
  obtain ⟨ev, hc, -, hkey, haction, hlogs⟩ := removeResource_logs h
  rw [Sorted, recency_forget hlogs hc haction, hkey]
  refine hS.forget ?_
  intro x hx
  refine hlogs.other _ fun he => hx ?_
  rw [← hkey]
  exact (Prod.mk.inj he).2.symm

/-- The keys of an update come in their order, after all that is there. -/
theorem Sorted.seeAll {inputs : List ContextResourceInput} {refs : List ContextResourceRef}
    (hS : Sorted column t chainId)
    (hincreasing : (inputs.map (·.resourceKey)).Pairwise (· < ·))
    (hbefore : ∀ x ∈ recency t chainId, ∀ input ∈ inputs,
      Precedes column t chainId now x input.resourceKey)
    (h : seeResources chainId turnId now inputs t = .ok (refs, t')) : Sorted column t' chainId := by
  induction inputs generalizing t refs with
  | nil =>
    obtain ⟨-, rfl⟩ := Prod.mk.inj (Except.ok.inj h)
    exact hS
  | cons input inputs ih =>
    simp only [seeResources, bind_eq_ok, Prod.exists, pure_eq_ok, Prod.mk.injEq] at h
    obtain ⟨ref, m, hfirst, refs', m', hrest, rfl, rfl⟩ := h
    obtain ⟨hfirstKey, hrestKeys⟩ := List.pairwise_cons.mp hincreasing
    have hsorted := hS.see hfirst fun x hx => hbefore x hx input List.mem_cons_self
    refine ih hsorted hrestKeys ?_ hrest
    intro x hx other hother r hr
    rw [recency_see hfirst, Recency.mem_use] at hx
    by_cases hsame : x = input.resourceKey
    · obtain ⟨-, row, hrow, -, hnow⟩ := seeResource_row hfirst
      rw [hsame] at hr ⊢
      obtain rfl := Option.some.inj (hrow.symm.trans hr)
      exact .inr ⟨by rw [hnow], hfirstKey _ (List.mem_map_of_mem hother)⟩
    · obtain ⟨ev, -, -, hkey, -, hlogs⟩ := seeResource_logs hfirst
      have hne : ev.address ≠ (chainId, x) := by
        intro he
        exact hsame (by rw [← hkey, ← (Prod.mk.inj he).2])
      rw [hlogs.other _ hne] at hr
      exact hbefore x (hx.resolve_right hsame) other (List.mem_cons_of_mem _ hother) r hr

theorem Sorted.removeAll {keys : List ResourceKey} (hS : Sorted column t chainId)
    (h : removeResources chainId turnId now keys t = .ok t') : Sorted column t' chainId := by
  induction keys generalizing t with
  | nil =>
    obtain rfl := Except.ok.inj h
    exact hS
  | cons key keys ih =>
    simp only [removeResources, bind_eq_ok] at h
    obtain ⟨m, hfirst, hrest⟩ := h
    exact ih (hS.remove hfirst) hrest

end Order

end DocFlow.Context
