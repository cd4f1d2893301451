import DocFlow.Context.CompleteTurn
import DocFlow.Lib.EventLog
import DocFlow.Lib.Machine
import Mathlib.Data.Finset.Card
import Mathlib.Data.Finset.Dedup

/-!
# The resources of a chain are the fold of its events

`resourceLog` says what an event does to the row of its resource, so that the log determines a
table; `EventSourced` says that this is the table of the database, that the nodes of a chain
are numbered from zero, and that the version of a chain counts the turns that touched a resource
of it.

A transaction appends events one at a time (`Logs`, `Logged`); the row facts are proved
once for one event and carried along the list.
-/

namespace DocFlow.Context

/-! ## The log -/

def isUse (ev : ContextChainResourceEvent) : Bool := ev.action = .seen || ev.action = .refreshed

/-- The row that the first event of a resource leaves. -/
def seenRow (ev : ContextChainResourceEvent) : ContextChainResource where
  chainId := ev.chainId
  resourceKey := ev.resourceKey
  resourceType := ev.resourceType
  resourceId := ev.resourceId
  relation := ev.relation
  summary := ev.summary
  firstSeenTurnId := ev.turnId
  lastSeenTurnId := ev.turnId
  firstSeenAt := ev.createdAt
  lastSeenAt := ev.createdAt
  useCount := 1
  active := true
  removedAt := none

/-- The row after one more use. -/
def refreshedRow (ev : ContextChainResourceEvent) (row : ContextChainResource) :
    ContextChainResource :=
  { row with
    resourceType := ev.resourceType
    resourceId := ev.resourceId
    relation := ev.relation
    summary := ev.summary
    lastSeenTurnId := ev.turnId
    lastSeenAt := ev.createdAt
    useCount := row.useCount + 1
    active := true
    removedAt := none }

def removedRow (ev : ContextChainResourceEvent) (row : ContextChainResource) :
    ContextChainResource :=
  { row with active := false, removedAt := some ev.createdAt }

def applyEvent (row : Option ContextChainResource) (ev : ContextChainResourceEvent) :
    Option ContextChainResource :=
  match ev.action with
  | .seen => some (seenRow ev)
  | .refreshed => row.map (refreshedRow ev)
  | .removed => row.map (removedRow ev)
  | .invalidated => row

/-- The table that a log of resource events determines. -/
def resourceLog :
    Projection ContextChainResourceEvent (ChainId × ResourceKey) ContextChainResource where
  key := ContextChainResourceEvent.address
  apply := applyEvent

/-- An event that fits the row it is applied to. -/
structure Fits (row : Option ContextChainResource) (ev : ContextChainResourceEvent) : Prop where
  seen : ev.action = .seen → row = none
  refreshed : ev.action = .refreshed → row ≠ none
  invalidated : ev.action ≠ .invalidated

theorem Fits.of_removed {row : Option ContextChainResource} {ev : ContextChainResourceEvent}
    (h : ev.action = .removed) : Fits row ev := by
  constructor
  · intro haction
    rw [h] at haction
    cases haction
  · intro haction
    rw [h] at haction
    cases haction
  · rw [h]
    simp

/-- What the events of one resource say about its row. -/
structure RowAgrees (events : List ContextChainResourceEvent) (row : Option ContextChainResource) :
    Prop where
  exists_iff : row.isSome = true ↔ ∃ ev ∈ events, ev.action = .seen
  active : ∀ r, row = some r →
    (r.active = true ↔ ∃ ev, events.getLast? = some ev ∧ ev.action ≠ .removed)
  useCount : ∀ r, row = some r → r.useCount = events.countP isUse
  life : FirstThen (fun ev => ev.action = .seen) (fun ev => ev.action = .refreshed)
    (events.filter isUse)

theorem RowAgrees.nil : RowAgrees [] none where
  exists_iff := by simp
  active := by simp
  useCount := by simp
  life := .nil

theorem RowAgrees.uses_eq_nil {events : List ContextChainResourceEvent}
    {row : Option ContextChainResource} (h : RowAgrees events row) :
    events.filter isUse = [] ↔ row = none := by
  have hnone : row = none ↔ ¬ row.isSome = true := by
    cases row <;> simp
  rw [hnone, h.exists_iff]
  constructor
  · rintro hnil ⟨ev, hev, hseen⟩
    have : ev ∈ events.filter isUse := List.mem_filter.mpr ⟨hev, by simp [isUse, hseen]⟩
    rw [hnil] at this
    cases this
  · intro hnot
    cases hlife : events.filter isUse with
    | nil => rfl
    | cons ev rest =>
      have hcase := h.life
      rw [hlife] at hcase
      cases hcase with
      | cons hseen =>
        have hev : ev ∈ events.filter isUse := by
          rw [hlife]
          exact List.mem_cons_self
        exact absurd ⟨ev, (List.mem_filter.mp hev).1, hseen⟩ hnot

/-- **One more event of the resource.** -/
theorem RowAgrees.concat {events : List ContextChainResourceEvent}
    {row : Option ContextChainResource} {ev : ContextChainResourceEvent} (h : RowAgrees events row)
    (hfits : Fits row ev) : RowAgrees (events ++ [ev]) (applyEvent row ev) := by
  have hlast : (events ++ [ev]).getLast? = some ev := by simp
  have hnil := h.uses_eq_nil
  cases haction : ev.action with
  | seen =>
    have hrow := hfits.seen haction
    have huse : isUse ev = true := by simp [isUse, haction]
    have happly : applyEvent row ev = some (seenRow ev) := by simp [applyEvent, haction]
    rw [happly]
    refine ⟨⟨fun _ => ⟨ev, by simp, haction⟩, fun _ => rfl⟩, ?_, ?_, ?_⟩
    · rintro r hr
      obtain rfl := Option.some.inj hr
      exact ⟨fun _ => ⟨ev, hlast, by simp [haction]⟩, fun _ => rfl⟩
    · rintro r hr
      obtain rfl := Option.some.inj hr
      have hzero : events.countP isUse = 0 := by
        rw [List.countP_eq_length_filter, hnil.mpr hrow]
        rfl
      rw [List.countP_append, hzero, List.countP_singleton, if_pos huse]
      rfl
    · rw [List.filter_append, hnil.mpr hrow]
      simp only [List.nil_append, List.filter_cons, huse, if_true, List.filter_nil]
      exact .cons haction (by simp)
  | refreshed =>
    have hrow := hfits.refreshed haction
    have huse : isUse ev = true := by simp [isUse, haction]
    obtain ⟨r₀, hr₀⟩ := Option.ne_none_iff_exists'.mp hrow
    have happly : applyEvent row ev = some (refreshedRow ev r₀) := by
      simp [applyEvent, haction, hr₀]
    rw [happly]
    refine ⟨⟨fun _ => ?_, fun _ => rfl⟩, ?_, ?_, ?_⟩
    · obtain ⟨x, hx, hseen⟩ := h.exists_iff.mp (by rw [hr₀]; rfl)
      exact ⟨x, List.mem_append_left _ hx, hseen⟩
    · rintro r hr
      obtain rfl := Option.some.inj hr
      exact ⟨fun _ => ⟨ev, hlast, by simp [haction]⟩, fun _ => rfl⟩
    · rintro r hr
      obtain rfl := Option.some.inj hr
      rw [List.countP_append, ← h.useCount r₀ hr₀, List.countP_singleton, if_pos huse]
      rfl
    · rw [List.filter_append]
      simp only [List.filter_cons, huse, if_true, List.filter_nil]
      exact h.life.concat (fun he => absurd (hnil.mp he) hrow) fun _ => haction
  | removed =>
    have huse : isUse ev = false := by simp [isUse, haction]
    have happly : applyEvent row ev = row.map (removedRow ev) := by simp [applyEvent, haction]
    rw [happly]
    refine ⟨?_, ?_, ?_, ?_⟩
    · rw [Option.isSome_map, h.exists_iff]
      constructor
      · rintro ⟨x, hx, hseen⟩
        exact ⟨x, List.mem_append_left _ hx, hseen⟩
      · rintro ⟨x, hx, hseen⟩
        rcases List.mem_append.mp hx with hx | hx
        · exact ⟨x, hx, hseen⟩
        · rw [List.mem_singleton.mp hx, haction] at hseen
          cases hseen
    · intro r hr
      obtain ⟨r₀, -, rfl⟩ := Option.map_eq_some_iff.mp hr
      refine iff_of_false (by simp [removedRow]) ?_
      rintro ⟨x, hx, hne⟩
      rw [hlast] at hx
      obtain rfl := Option.some.inj hx
      exact hne haction
    · intro r hr
      obtain ⟨r₀, hr₀, rfl⟩ := Option.map_eq_some_iff.mp hr
      rw [List.countP_append, ← h.useCount r₀ hr₀, List.countP_singleton]
      simp [huse, removedRow]
    · rw [List.filter_append]
      simp only [List.filter_cons, huse, List.filter_nil, List.append_nil, Bool.false_eq_true,
        if_false]
      exact h.life
  | invalidated => exact absurd haction hfits.invalidated

/-! ## Appending events -/

/-- One event is appended and applied to the row of its resource. -/
structure Logs (t : ContextTables) (ev : ContextChainResourceEvent) (t' : ContextTables) : Prop where
  events : t'.resourceEvents = t.resourceEvents ++ [ev]
  own : t'.resources.get? ev.address = applyEvent (t.resources.get? ev.address) ev
  other : ∀ a, ev.address ≠ a → t'.resources.get? a = t.resources.get? a
  fits : Fits (t.resources.get? ev.address) ev
  nodes : t'.nodes = t.nodes
  chains : t'.chains = t.chains
  selections : t'.selections = t.selections

/-- The events of one turn are appended to the log of one chain. -/
inductive Logged (chainId : ChainId) (turnId : TurnId) :
    ContextTables → List ContextChainResourceEvent → ContextTables → Prop
  | nil (t : ContextTables) : Logged chainId turnId t [] t
  | cons {t m t' : ContextTables} {ev : ContextChainResourceEvent}
      {evs : List ContextChainResourceEvent} : ev.chainId = chainId → ev.turnId = turnId →
      Logs t ev m → Logged chainId turnId m evs t' → Logged chainId turnId t (ev :: evs) t'

namespace Logged

variable {chainId : ChainId} {turnId : TurnId} {t m t' : ContextTables}
  {evs evs' : List ContextChainResourceEvent}

theorem append (h : Logged chainId turnId t evs m) (g : Logged chainId turnId m evs' t') :
    Logged chainId turnId t (evs ++ evs') t' := by
  induction h with
  | nil => exact g
  | cons hc ht hlogs _ ih => exact .cons hc ht hlogs (ih g)

theorem events (h : Logged chainId turnId t evs t') :
    t'.resourceEvents = t.resourceEvents ++ evs := by
  induction h with
  | nil => simp
  | cons _ _ hlogs _ ih => rw [ih, hlogs.events, List.append_assoc, List.singleton_append]

theorem nodes (h : Logged chainId turnId t evs t') : t'.nodes = t.nodes := by
  induction h with
  | nil => rfl
  | cons _ _ hlogs _ ih => rw [ih, hlogs.nodes]

theorem chains (h : Logged chainId turnId t evs t') : t'.chains = t.chains := by
  induction h with
  | nil => rfl
  | cons _ _ hlogs _ ih => rw [ih, hlogs.chains]

theorem selections (h : Logged chainId turnId t evs t') : t'.selections = t.selections := by
  induction h with
  | nil => rfl
  | cons _ _ hlogs _ ih => rw [ih, hlogs.selections]

theorem mem (h : Logged chainId turnId t evs t') {ev : ContextChainResourceEvent} (hev : ev ∈ evs) :
    ev.chainId = chainId ∧ ev.turnId = turnId := by
  induction h with
  | nil => cases hev
  | cons hc ht _ _ ih =>
    rcases List.mem_cons.mp hev with rfl | hev
    · exact ⟨hc, ht⟩
    · exact ih hev

end Logged

/-- The table is the fold of the log, and the events of each resource fit its row. -/
structure Folded (t : ContextTables) : Prop where
  value : ∀ a, t.resources.get? a = resourceLog.value t.resourceEvents a
  agrees : ∀ a, RowAgrees (resourceLog.eventsAt t.resourceEvents a) (t.resources.get? a)

theorem Folded.logs {t t' : ContextTables} {ev : ContextChainResourceEvent} (h : Folded t)
    (hlogs : Logs t ev t') : Folded t' := by
  have hcase : ∀ a, ev.address = a ∨ ev.address ≠ a := fun a => em _
  constructor
  · intro a
    rcases hcase a with rfl | hne
    · have hkey : resourceLog.key ev = ev.address := rfl
      rw [hlogs.own, hlogs.events, Projection.value_concat_self hkey, h.value]
      rfl
    · rw [hlogs.other a hne, hlogs.events, Projection.value_concat_ne hne, h.value]
  · intro a
    rcases hcase a with rfl | hne
    · have hkey : resourceLog.key ev = ev.address := rfl
      rw [hlogs.own, hlogs.events, Projection.eventsAt_concat_self hkey]
      exact (h.agrees _).concat hlogs.fits
    · rw [hlogs.other a hne, hlogs.events, Projection.eventsAt_concat_ne hne]
      exact h.agrees a

theorem Folded.logged {chainId : ChainId} {turnId : TurnId} {t t' : ContextTables}
    {evs : List ContextChainResourceEvent} (h : Folded t) (hlogged : Logged chainId turnId t evs t') :
    Folded t' := by
  induction hlogged with
  | nil => exact h
  | cons _ _ hlogs _ ih => exact ih (h.logs hlogs)

/-! ## What the resource service appends -/

section Service

variable {chainId : ChainId} {turnId : TurnId} {now : Time} {t t' : ContextTables}

theorem seeResource_logs {input : ContextResourceInput} {ref : ContextResourceRef}
    (h : seeResource chainId turnId now input t = .ok (ref, t')) :
    ∃ ev, ev.chainId = chainId ∧ ev.turnId = turnId ∧ ev.resourceKey = input.resourceKey ∧
      isUse ev = true ∧ Logs t ev t' := by
  unfold seeResource ContextTables.upsertChainResource at h
  cases hget : t.resources.get? (chainId, input.resourceKey) with
  | none =>
    simp only [hget, bind_eq_ok, orRaise_eq_ok, pure_eq_ok, Prod.exists, Prod.mk.injEq] at h
    obtain ⟨_, _, _, ⟨table, htable, rfl, rfl, rfl⟩, -, rfl⟩ := h
    have hown : table.get? (chainId, input.resourceKey) =
        some (ContextTables.newResource chainId turnId now input) :=
      Table.get?_eq_some.mpr ⟨(Table.mem_insert htable).mpr (.inr rfl), rfl⟩
    refine ⟨_, rfl, rfl, rfl, rfl, ⟨rfl, hown, ?_, ⟨fun _ => hget, nofun, nofun⟩, rfl, rfl, rfl⟩⟩
    intro a hne
    exact Table.get?_insert_ne htable hne
  | some row =>
    simp only [hget, bind_eq_ok, pure_eq_ok, Except.ok.injEq, Prod.exists, Prod.mk.injEq] at h
    obtain ⟨_, _, _, ⟨rfl, rfl, rfl⟩, -, rfl⟩ := h
    obtain ⟨hrow, hkey⟩ := Table.get?_eq_some.mp hget
    obtain ⟨rfl, hres⟩ := Prod.mk.inj hkey
    have haddr : (ContextTables.refreshResource turnId now input row).address = row.address := rfl
    refine ⟨_, rfl, rfl, hres, rfl, ⟨rfl, ?_, ?_, ⟨nofun, fun _ => ?_, nofun⟩, rfl, rfl, rfl⟩⟩
    · show (t.resources.save _).get? row.address = applyEvent (t.resources.get? row.address) _
      rw [← haddr, Table.get?_save_self hrow haddr, haddr, Table.get?_of_mem hrow]
      rfl
    · intro a hne
      exact Table.get?_save_ne hne
    · show t.resources.get? row.address ≠ none
      rw [Table.get?_of_mem hrow]
      simp

theorem removeResource_logs {key : ResourceKey}
    (h : removeResource chainId turnId now key t = .ok t') :
    ∃ ev, ev.chainId = chainId ∧ ev.turnId = turnId ∧ ev.resourceKey = key ∧
      ev.action = .removed ∧ Logs t ev t' := by
  unfold removeResource ContextTables.deactivateChainResource at h
  simp only [bind_eq_ok, Prod.exists, pure_eq_ok] at h
  obtain ⟨resourceType, resourceId, -, h⟩ := h
  cases hget : t.resources.get? (chainId, key) with
  | none =>
    simp only [hget] at h
    subst h
    refine ⟨_, rfl, rfl, rfl, rfl, ⟨rfl, ?_, fun _ _ => rfl, .of_removed rfl, rfl, rfl, rfl⟩⟩
    show t.resources.get? (chainId, key) = applyEvent (t.resources.get? (chainId, key)) _
    rw [hget]
    rfl
  | some row =>
    simp only [hget] at h
    subst h
    obtain ⟨hrow, hkey⟩ := Table.get?_eq_some.mp hget
    obtain ⟨hchain, hres⟩ := Prod.mk.inj hkey
    have haddr : (ContextTables.deactivateResource now row).address = (chainId, key) := hkey
    refine ⟨_, rfl, rfl, rfl, rfl, ⟨rfl, ?_, ?_, .of_removed rfl, rfl, rfl, rfl⟩⟩
    · show (t.resources.save _).get? (chainId, key) = applyEvent (t.resources.get? (chainId, key)) _
      rw [hget, ← haddr, Table.get?_save_self hrow (haddr.trans hkey.symm)]
      rfl
    · intro a hne
      exact Table.get?_save_ne (haddr.symm ▸ hne)

theorem seeResources_logged {inputs : List ContextResourceInput} {refs : List ContextResourceRef}
    (h : seeResources chainId turnId now inputs t = .ok (refs, t')) :
    refs.length = inputs.length ∧ ∃ evs, Logged chainId turnId t evs t' ∧
      evs.map ContextChainResourceEvent.resourceKey = inputs.map ContextResourceInput.resourceKey ∧
      ∀ ev ∈ evs, isUse ev = true := by
  induction inputs generalizing t refs with
  | nil =>
    obtain ⟨rfl, rfl⟩ := Prod.mk.inj (Except.ok.inj h)
    exact ⟨rfl, [], .nil _, rfl, by simp⟩
  | cons input inputs ih =>
    simp only [seeResources, bind_eq_ok, Prod.exists, pure_eq_ok, Prod.mk.injEq] at h
    obtain ⟨ref, m, hfirst, refs', m', hrest, rfl, rfl⟩ := h
    obtain ⟨ev, hc, ht, hkey, huse, hlogs⟩ := seeResource_logs hfirst
    obtain ⟨hlen, evs, hlogged, hkeys, huses⟩ := ih hrest
    refine ⟨by simp [hlen], ev :: evs, .cons hc ht hlogs hlogged, by simp [hkey, hkeys], ?_⟩
    intro x hx
    rcases List.mem_cons.mp hx with rfl | hx
    · exact huse
    · exact huses x hx

theorem removeResources_logged {keys : List ResourceKey}
    (h : removeResources chainId turnId now keys t = .ok t') :
    ∃ evs, Logged chainId turnId t evs t' ∧
      evs.map ContextChainResourceEvent.resourceKey = keys ∧
      ∀ ev ∈ evs, ev.action = .removed := by
  induction keys generalizing t with
  | nil =>
    obtain rfl := Except.ok.inj h
    exact ⟨[], .nil _, rfl, by simp⟩
  | cons key keys ih =>
    simp only [removeResources, bind_eq_ok] at h
    obtain ⟨m, hfirst, hrest⟩ := h
    obtain ⟨ev, hc, ht, hkey, haction, hlogs⟩ := removeResource_logs hfirst
    obtain ⟨evs, hlogged, hkeys, hactions⟩ := ih hrest
    refine ⟨ev :: evs, .cons hc ht hlogs hlogged, by simp [hkey, hkeys], ?_⟩
    intro x hx
    rcases List.mem_cons.mp hx with rfl | hx
    · exact haction
    · exact hactions x hx

/-- The keys that an update uses and removes, in the order of the events. -/
def usedKeys (update : Option ChainTurnUpdate) : List ResourceKey :=
  (update.map fun u => u.relatedResources.map ContextResourceInput.resourceKey).getD []

def removedKeys (update : Option ChainTurnUpdate) : List ResourceKey :=
  (update.map ChainTurnUpdate.removedResourceKeys).getD []

/-- **The update of a chain** is one event for each key, and one version step when there is any. -/
theorem applyInTransaction_logged {chain chain' : ContextChain} {update : Option ChainTurnUpdate}
    {refresh : Option ContextResourceQueueRefresh}
    (h : applyInTransaction chain turnId now update t = .ok (refresh, chain', t')) :
    ∃ uses removals, Logged chain.chainId turnId t (uses ++ removals) t' ∧
      uses.map ContextChainResourceEvent.resourceKey = usedKeys update ∧
      (∀ ev ∈ uses, isUse ev = true) ∧
      removals.map ContextChainResourceEvent.resourceKey = removedKeys update ∧
      (∀ ev ∈ removals, ev.action = .removed) ∧
      chain' = { chain with
        resourceVersion := chain.resourceVersion + if uses ++ removals = [] then 0 else 1 } := by
  cases update with
  | none =>
    obtain ⟨-, h⟩ := Prod.mk.inj (Except.ok.inj h)
    obtain ⟨rfl, rfl⟩ := Prod.mk.inj h
    exact ⟨[], [], .nil _, rfl, by simp, rfl, by simp, rfl⟩
  | some update =>
    simp only [applyInTransaction, bind_eq_ok, Prod.exists] at h
    obtain ⟨refs, m, hseen, m', hremoved, h⟩ := h
    obtain ⟨hlen, uses, hlogged, hkeys, huses⟩ := seeResources_logged hseen
    obtain ⟨removals, hlogged', hkeys', hremovals⟩ := removeResources_logged hremoved
    have hrefs : refs = [] ↔ uses = [] := by
      rw [← List.length_eq_zero_iff, hlen, ← List.length_map (f := ContextResourceInput.resourceKey),
        ← hkeys, List.length_map, List.length_eq_zero_iff]
    have hkeysNil : update.removedResourceKeys = [] ↔ removals = [] := by
      rw [← hkeys', List.map_eq_nil_iff]
    have hnil : (refs = [] ∧ update.removedResourceKeys = []) ↔ uses ++ removals = [] := by
      rw [hrefs, hkeysNil, List.append_eq_nil_iff]
    split at h
    · next hempty =>
      simp only [pure_eq_ok, Prod.mk.injEq] at h
      obtain ⟨-, rfl, rfl⟩ := h
      refine ⟨uses, removals, hlogged.append hlogged', hkeys, huses, hkeys', hremovals, ?_⟩
      rw [if_pos (hnil.mp hempty)]
      rfl
    · next hempty =>
      simp only [pure_eq_ok, Prod.mk.injEq] at h
      obtain ⟨-, rfl, rfl⟩ := h
      refine ⟨uses, removals, hlogged.append hlogged', hkeys, huses, hkeys', hremovals, ?_⟩
      rw [if_neg (mt hnil.mpr hempty)]

end Service

/-! ## The nodes of a chain -/

section Nodes

variable {t t' : ContextTables}

theorem createNode_eq_ok {node : ContextChainNode} (h : t.createNode node = .ok t') :
    ∃ nodes, t.nodes.insert node = some nodes ∧ t' = { t with nodes := nodes } := by
  unfold ContextTables.createNode at h
  split at h
  · cases h
  · simp only [bind_eq_ok, orRaise_eq_ok, pure_eq_ok] at h
    exact h

theorem createChain_eq_ok {chain : ContextChain} (h : t.createChain chain = .ok t') :
    ∃ chains, t.chains.insert chain = some chains ∧ t' = { t with chains := chains } := by
  simp only [ContextTables.createChain, bind_eq_ok, orRaise_eq_ok, pure_eq_ok] at h
  exact h

/-- A chain whose nodes are numbered from zero continues with their number. -/
theorem getNextSequence_of_numbered {chainId : ChainId}
    (h : (t.nodesOf chainId).map ContextChainNode.sequence =
      List.range (t.nodesOf chainId).length) :
    t.getNextSequence chainId = (t.nodesOf chainId).length := by
  rw [ContextTables.getNextSequence, h]
  cases hlen : (t.nodesOf chainId).length with
  | zero => rfl
  | succ n =>
    have hmax : (List.range (n + 1)).max? = some n := by
      rw [List.max?_eq_some_iff]
      constructor
      · simp
      · intro k hk
        have := List.mem_range.mp hk
        omega
    rw [hmax]

/-- The nodes of a chain after one more node in it. -/
theorem nodesOf_insert_self {node : ContextChainNode} {nodes : Table ContextChainNode.place}
    (h : t.nodes.insert node = some nodes) (ht : t'.nodes = nodes) :
    t'.nodesOf node.chainId = t.nodesOf node.chainId ++ [node] := by
  rw [ContextTables.nodesOf, ht, Table.rows_insert h, List.filter_append, ContextTables.nodesOf]
  simp

theorem nodesOf_insert_ne {node : ContextChainNode} {nodes : Table ContextChainNode.place}
    (h : t.nodes.insert node = some nodes) (ht : t'.nodes = nodes) {chainId : ChainId}
    (hne : node.chainId ≠ chainId) : t'.nodesOf chainId = t.nodesOf chainId := by
  rw [ContextTables.nodesOf, ht, Table.rows_insert h, List.filter_append, ContextTables.nodesOf]
  simp [hne]

end Nodes

/-! ## One target chain -/

/-- The chain row after the events of a turn. -/
def steppedChain (now : Time) (events : List ContextChainResourceEvent) (chain : ContextChain) :
    ContextChain :=
  { chain with
    resourceVersion := chain.resourceVersion + if events = [] then 0 else 1
    lastActiveAt := now
    archived := false }

/-- What one turn of the loop over the target chains does: a node, the events of its update, and
the chain row. -/
inductive Attributed (turnId : TurnId) (now : Time) (updateMap : List ChainTurnUpdate)
    (chainId : ChainId) (t t' : ContextTables) : Prop
  | intro (chain : ContextChain) (nodes : Table ContextChainNode.place) (m : ContextTables)
      (uses removals : List ContextChainResourceEvent) :
      chain ∈ t.chains → chain.chainId = chainId →
      t.nodes.insert (newNode chainId turnId (updateOf updateMap chainId)
        (t.getNextSequence chainId)) = some nodes →
      Logged chainId turnId { t with nodes := nodes } (uses ++ removals) m →
      uses.map ContextChainResourceEvent.resourceKey = usedKeys (updateOf updateMap chainId) →
      (∀ ev ∈ uses, isUse ev = true) →
      removals.map ContextChainResourceEvent.resourceKey =
        removedKeys (updateOf updateMap chainId) →
      (∀ ev ∈ removals, ev.action = .removed) →
      t' = m.saveChain (steppedChain now (uses ++ removals) chain) →
      Attributed turnId now updateMap chainId t t'

theorem attributeChain_attributed {turnId : TurnId} {now : Time} {updateMap : List ChainTurnUpdate}
    {chainId : ChainId} {t t' : ContextTables} {refresh : Option ContextResourceQueueRefresh}
    (h : attributeChain turnId now updateMap chainId t = .ok (refresh, t')) :
    Attributed turnId now updateMap chainId t t' := by
  simp only [attributeChain, bind_eq_ok, orRaise_eq_ok, Prod.exists, pure_eq_ok,
    Prod.mk.injEq] at h
  obtain ⟨chain, hchain, t₁, hnode, _, chain', m, happly, -, rfl⟩ := h
  obtain ⟨hmem, rfl⟩ := Table.get?_eq_some.mp hchain
  obtain ⟨nodes, hnodes, rfl⟩ := createNode_eq_ok hnode
  obtain ⟨uses, removals, hlogged, hkeys, huses, hkeys', hremovals, rfl⟩ :=
    applyInTransaction_logged happly
  exact .intro chain nodes m uses removals hmem rfl hnodes hlogged hkeys huses hkeys' hremovals rfl

/-- The turns with an event of the chain. -/
def touchingTurns (t : ContextTables) (chainId : ChainId) : Finset TurnId :=
  ((t.resourceEvents.filter fun ev => ev.chainId = chainId).map
    ContextChainResourceEvent.turnId).toFinset

theorem mem_touchingTurns {t : ContextTables} {chainId : ChainId} {turnId : TurnId} :
    turnId ∈ touchingTurns t chainId ↔
      ∃ ev ∈ t.resourceEvents, ev.chainId = chainId ∧ ev.turnId = turnId := by
  simp [touchingTurns, and_assoc]

/-- **The context tables are event-sourced.** -/
structure EventSourced (t : ContextTables) : Prop where
  folded : Folded t
  numbered : ∀ c, (t.nodesOf c).map ContextChainNode.sequence = List.range (t.nodesOf c).length
  chainOfNode : ∀ n ∈ t.nodes, ∃ c ∈ t.chains, c.chainId = n.chainId
  nodeOfEvent : ∀ ev ∈ t.resourceEvents, ∃ n ∈ t.nodes, n.place = (ev.chainId, ev.turnId)
  versions : ∀ c ∈ t.chains, c.resourceVersion = (touchingTurns t c.chainId).card

section Steps

variable {turnId : TurnId} {now : Time} {updateMap : List ChainTurnUpdate} {chainId : ChainId}
  {t t' : ContextTables}

/-- The events of a turn are the first of that turn in the chain. -/
theorem touchingTurns_logged {nodes : Table ContextChainNode.place} {m : ContextTables}
    {evs : List ContextChainResourceEvent}
    (hlogged : Logged chainId turnId { t with nodes := nodes } evs m)
    (hfresh : ∀ ev ∈ t.resourceEvents, ¬ (ev.chainId = chainId ∧ ev.turnId = turnId))
    (c : ChainId) : (touchingTurns m c).card =
      (touchingTurns t c).card + if c = chainId ∧ evs ≠ [] then 1 else 0 := by
  have hevents : m.resourceEvents = t.resourceEvents ++ evs := hlogged.events
  by_cases hc : c = chainId
  · subst hc
    have hall : evs.filter (fun ev => ev.chainId = c) = evs := by
      rw [List.filter_eq_self]
      intro ev hev
      exact decide_eq_true (hlogged.mem hev).1
    have hunion : touchingTurns m c = touchingTurns t c ∪
        (evs.map ContextChainResourceEvent.turnId).toFinset := by
      rw [touchingTurns, hevents, List.filter_append, List.map_append, List.toFinset_append, hall]
      rfl
    cases hevs : evs with
    | nil => rw [hunion, hevs]; simp
    | cons ev rest =>
      have hsingle : (evs.map ContextChainResourceEvent.turnId).toFinset = {turnId} := by
        ext x
        simp only [List.mem_toFinset, List.mem_map, Finset.mem_singleton]
        constructor
        · rintro ⟨y, hy, rfl⟩
          exact (hlogged.mem hy).2
        · rintro rfl
          have hev : ev ∈ evs := by
            rw [hevs]
            exact List.mem_cons_self
          exact ⟨ev, hev, (hlogged.mem hev).2⟩
      have hnew : turnId ∉ touchingTurns t c := by
        intro hmem
        obtain ⟨x, hx, hxc⟩ := mem_touchingTurns.mp hmem
        exact hfresh x hx hxc
      rw [hunion, hsingle, Finset.union_comm, ← Finset.insert_eq, Finset.card_insert_of_notMem hnew]
      simp
  · have hnone : evs.filter (fun ev => ev.chainId = c) = [] := by
      rw [List.filter_eq_nil_iff]
      intro ev hev heq
      exact hc ((of_decide_eq_true heq).symm.trans (hlogged.mem hev).1)
    rw [if_neg (fun hin => hc hin.1), touchingTurns, hevents, List.filter_append, hnone,
      List.append_nil]
    rfl

/-- **One target chain keeps the tables event-sourced.** -/
theorem EventSourced.attributed (h : EventSourced t)
    (hstep : Attributed turnId now updateMap chainId t t') : EventSourced t' := by
  obtain ⟨chain, nodes, m, uses, removals, hchain, rfl, hnodes, hlogged, -, -, -, -, rfl⟩ := hstep
  have hnodesEq : m.nodes = nodes := hlogged.nodes
  have hchainsEq : m.chains = t.chains := hlogged.chains
  have hplace : ∀ n ∈ t.nodes, n.place ≠ (chain.chainId, turnId) :=
    fun n hn => Table.key_not_mem_of_insert hnodes hn
  have hfresh : ∀ ev ∈ t.resourceEvents, ¬ (ev.chainId = chain.chainId ∧ ev.turnId = turnId) := by
    rintro ev hev ⟨hc, ht⟩
    obtain ⟨n, hn, hnp⟩ := h.nodeOfEvent ev hev
    exact hplace n hn (by rw [hnp, hc, ht])
  have hmemChain : ∀ c, c ∈ (m.saveChain (steppedChain now (uses ++ removals) chain)).chains ↔
      c = steppedChain now (uses ++ removals) chain ∨ (c ∈ t.chains ∧ c ≠ chain) := by
    intro c
    show c ∈ m.chains.save _ ↔ _
    rw [hchainsEq]
    exact Table.mem_save_of_mem hchain rfl
  constructor
  case folded =>
    have hfolded : Folded { t with nodes := nodes } := ⟨h.folded.value, h.folded.agrees⟩
    have hm := hfolded.logged hlogged
    exact ⟨hm.value, hm.agrees⟩
  case numbered =>
    intro c
    show (m.nodesOf c).map _ = List.range (m.nodesOf c).length
    by_cases hc : chain.chainId = c
    · subst hc
      have hself : m.nodesOf chain.chainId = t.nodesOf chain.chainId ++ [_] :=
        nodesOf_insert_self hnodes hnodesEq
      rw [hself, List.map_append, List.map_singleton, h.numbered, List.length_append,
        List.length_singleton, List.range_succ, ← getNextSequence_of_numbered (h.numbered _)]
      rfl
    · rw [nodesOf_insert_ne hnodes hnodesEq hc]
      exact h.numbered c
  case chainOfNode =>
    intro n hn
    have hn' : n ∈ nodes := hnodesEq ▸ hn
    have hold : ∃ c ∈ t.chains, c.chainId = n.chainId := by
      rcases (Table.mem_insert hnodes).mp hn' with hn | rfl
      · exact h.chainOfNode n hn
      · exact ⟨chain, hchain, rfl⟩
    obtain ⟨c, hc, hcn⟩ := hold
    by_cases hcc : c = chain
    · exact ⟨_, (hmemChain _).mpr (.inl rfl), hcc ▸ hcn⟩
    · exact ⟨c, (hmemChain c).mpr (.inr ⟨hc, hcc⟩), hcn⟩
  case nodeOfEvent =>
    intro ev hev
    show ∃ n ∈ m.nodes, _
    have hev' : ev ∈ t.resourceEvents ++ (uses ++ removals) := hlogged.events ▸ hev
    rw [hnodesEq]
    rcases List.mem_append.mp hev' with hev | hev
    · obtain ⟨n, hn, hnp⟩ := h.nodeOfEvent ev hev
      exact ⟨n, (Table.mem_insert hnodes).mpr (.inl hn), hnp⟩
    · obtain ⟨hc, ht⟩ := hlogged.mem hev
      exact ⟨_, (Table.mem_insert hnodes).mpr (.inr rfl), by rw [hc, ht]; rfl⟩
  case versions =>
    intro c hc
    have hcard := touchingTurns_logged hlogged hfresh c.chainId
    show c.resourceVersion = (touchingTurns m c.chainId).card
    rw [hcard]
    rcases (hmemChain c).mp hc with rfl | ⟨hc, hne⟩
    · show chain.resourceVersion + _ = (touchingTurns t chain.chainId).card + _
      rw [← h.versions chain hchain]
      by_cases hnil : uses ++ removals = []
      · rw [if_pos hnil, if_neg (fun hin => hin.2 hnil)]
      · rw [if_neg hnil, if_pos ⟨rfl, hnil⟩]
    · have hid : c.chainId ≠ chain.chainId := fun hid => hne (Table.eq_of_key hc hchain hid)
      rw [if_neg (fun hin => hid hin.1)]
      exact h.versions c hc

end Steps

/-! ## The transaction -/

/-- What the loop over the target chains does. -/
inductive AttributedAll (turnId : TurnId) (now : Time) (updateMap : List ChainTurnUpdate) :
    List ChainId → ContextTables → ContextTables → Prop
  | nil (t : ContextTables) : AttributedAll turnId now updateMap [] t t
  | cons {chainId : ChainId} {chainIds : List ChainId} {t m t' : ContextTables} :
      Attributed turnId now updateMap chainId t m →
      AttributedAll turnId now updateMap chainIds m t' →
      AttributedAll turnId now updateMap (chainId :: chainIds) t t'

theorem attributeChains_attributed {turnId : TurnId} {now : Time}
    {updateMap : List ChainTurnUpdate} {chainIds : List ChainId} {t t' : ContextTables}
    {refreshes : List ContextResourceQueueRefresh}
    (h : attributeChains turnId now updateMap chainIds t = .ok (refreshes, t')) :
    AttributedAll turnId now updateMap chainIds t t' := by
  induction chainIds generalizing t refreshes with
  | nil =>
    obtain ⟨-, rfl⟩ := Prod.mk.inj (Except.ok.inj h)
    exact .nil _
  | cons chainId chainIds ih =>
    simp only [attributeChains, bind_eq_ok, Prod.exists, pure_eq_ok, Prod.mk.injEq] at h
    obtain ⟨_, m, hfirst, _, _, hrest, -, rfl⟩ := h
    exact .cons (attributeChain_attributed hfirst) (ih hrest)

theorem EventSourced.attributedAll {turnId : TurnId} {now : Time}
    {updateMap : List ChainTurnUpdate} {chainIds : List ChainId} {t t' : ContextTables}
    (h : EventSourced t) (hall : AttributedAll turnId now updateMap chainIds t t') :
    EventSourced t' := by
  induction hall with
  | nil => exact h
  | cons hstep _ ih => exact ih (h.attributed hstep)

/-- **The ways `complete_turn` goes**: the turn was completed before, or it is completed now. -/
inductive CompleteStep (drawnChainId : ChainId) (now : Time) (turnId : TurnId)
    (command : CompleteTurnCommand) (db : Db) (result : CompleteTurnTransactionResult) (db' : Db) :
    Prop
  | before (turn : ConversationTurn) : db.conversationTurns.get? turnId = some turn →
      turn.status = .completed → db.context.listLinkedChainIds turnId ≠ [] →
      result = ⟨⟨turn, db.context.listLinkedChainIds turnId⟩, []⟩ → db' = db →
      CompleteStep drawnChainId now turnId command db result db'
  | now (turn : ConversationTurn) (targets : Targets) (updateMap : List ChainTurnUpdate)
      (t t' : ContextTables) (refreshes : List ContextResourceQueueRefresh) :
      db.conversationTurns.get? turnId = some turn →
      turn.status = .contextReady ∨ turn.status = .processing →
      resolveTargets drawnChainId command.attribution db.context = .ok targets →
      validateChainUpdates targets.chainIds command.taskIds [] command.chainUpdates =
        .ok updateMap →
      createNewChain turn.conversationId now targets.newChainId db.context = .ok t →
      AttributedAll turnId now updateMap targets.chainIds t t' →
      result = ⟨⟨completedTurn now command turn, targets.chainIds⟩, refreshes⟩ →
      db' = (db.setContext t').saveTurn (completedTurn now command turn) →
      CompleteStep drawnChainId now turnId command db result db'

theorem completeTurn_cases {drawnChainId : ChainId} {now : Time} {turnId : TurnId}
    {command : CompleteTurnCommand} {db db' : Db} {result : CompleteTurnTransactionResult}
    (h : completeTurn drawnChainId now turnId command db = .ok (result, db')) :
    CompleteStep drawnChainId now turnId command db result db' := by
  simp only [completeTurn, completeTurnInTransaction, bind_eq_ok, orRaise_eq_ok,
    ensure_eq_ok] at h
  obtain ⟨turn, hturn, turn', hturn', -, -, h⟩ := h
  obtain rfl := Option.some.inj (hturn.symm.trans hturn')
  have hid : turn.turnId = turnId := Table.key_of_get? hturn
  split at h
  · next hst =>
    simp only [answerCompleted, bind_eq_ok, ensure_eq_ok, pure_eq_ok, Prod.mk.injEq] at h
    obtain ⟨_, ⟨_, hne, rfl⟩, rfl, rfl⟩ := h
    rw [hid] at hne
    exact .before turn hturn hst hne (by rw [hid]) rfl
  · simp only [bind_eq_ok, orRaise_eq_ok, ensure_eq_ok, Prod.exists, pure_eq_ok,
      Prod.mk.injEq] at h
    obtain ⟨_, hst, _, -, _, -, targets, htargets, updateMap, hmap, _, -, t, ht, refreshes, t',
      hall, rfl, rfl⟩ := h
    exact .now turn targets updateMap t t' refreshes hturn hst htargets hmap ht
      (attributeChains_attributed hall) rfl rfl

/-- A chain that is created has no node and no event yet. -/
theorem EventSourced.createNewChain {conversationId : ConversationId} {now : Time}
    {newChainId : Option ChainId} {t t' : ContextTables} (h : EventSourced t)
    (hcreate : Context.createNewChain conversationId now newChainId t = .ok t') :
    EventSourced t' := by
  cases newChainId with
  | none =>
    obtain rfl := Except.ok.inj hcreate
    exact h
  | some chainId =>
    obtain ⟨chains, hchains, rfl⟩ := createChain_eq_ok hcreate
    refine ⟨⟨h.folded.value, h.folded.agrees⟩, h.numbered, ?_, h.nodeOfEvent, ?_⟩
    · intro n hn
      obtain ⟨c, hc, hcn⟩ := h.chainOfNode n hn
      exact ⟨c, (Table.mem_insert hchains).mpr (.inl hc), hcn⟩
    · intro c hc
      rcases (Table.mem_insert hchains).mp hc with hc | rfl
      · exact h.versions c hc
      · have hnone : touchingTurns { t with chains := chains } chainId = ∅ := by
          rw [Finset.eq_empty_iff_forall_notMem]
          intro x hx
          obtain ⟨ev, hev, hevc, -⟩ := mem_touchingTurns.mp hx
          obtain ⟨n, hn, hnp⟩ := h.nodeOfEvent ev hev
          obtain ⟨c, hc, hcn⟩ := h.chainOfNode n hn
          have hnc : n.chainId = ev.chainId := (Prod.mk.inj hnp).1
          exact Table.key_not_mem_of_insert hchains hc (hcn.trans (hnc.trans hevc))
        show 0 = (touchingTurns { t with chains := chains } chainId).card
        rw [hnone, Finset.card_empty]

theorem EventSourced.completeTurn {drawnChainId : ChainId} {now : Time} {turnId : TurnId}
    {command : CompleteTurnCommand} {db db' : Db} {result : CompleteTurnTransactionResult}
    (h : EventSourced db.context)
    (hcomplete : Context.completeTurn drawnChainId now turnId command db = .ok (result, db')) :
    EventSourced db'.context := by
  cases completeTurn_cases hcomplete with
  | before _ _ _ _ _ hdb =>
    rw [hdb]
    exact h
  | now turn targets updateMap t t' refreshes _ _ _ _ hcreate hall _ hdb =>
    rw [hdb]
    exact (h.createNewChain hcreate).attributedAll hall

/-! ## Every sequence of commands -/

inductive ContextAction
  | completeTurn (drawnChainId : ChainId) (now : Time) (turnId : TurnId)
      (command : CompleteTurnCommand)
  /-- The other modules write turns and selections, and chains are archived. -/
  | elsewhere (turns : Table ConversationTurn.turnId)
      (selections : Table ContextSelectionRecord.currentTurnId) (archived : ChainId → Bool)

def withArchived (archived : ChainId → Bool) (chain : ContextChain) : ContextChain :=
  { chain with archived := archived chain.chainId }

theorem withArchived_chainId (archived : ChainId → Bool) (chain : ContextChain) :
    (withArchived archived chain).chainId = chain.chainId := rfl

/-- The commands of all conversations, each under its lock, with anything else between them. -/
def contextService : Machine Db ContextAction where
  init db := db.context.nodes.rows = [] ∧ db.context.resources.rows = [] ∧
    db.context.resourceEvents = [] ∧ ∀ c ∈ db.context.chains, c.resourceVersion = 0
  step db
    | .completeTurn drawnChainId now turnId command =>
      match completeTurn drawnChainId now turnId command db with
      | .ok (_, db') => some db'
      | .error _ => some db
    | .elsewhere turns selections archived =>
      some { db with
        conversationTurns := turns
        context :=
          { db.context with
            selections := selections
            chains := db.context.chains.mapRows (withArchived archived)
              (withArchived_chainId archived) } }

/-- The events of one resource of a chain, oldest first. -/
def eventsOf (t : ContextTables) (chainId : ChainId) (key : ResourceKey) :
    List ContextChainResourceEvent :=
  t.resourceEvents.filter fun ev => ev.address = (chainId, key)

def readyTurn (turnId : TurnId) : ConversationTurn :=
  ⟨turnId, 1, .contextReady, [], none, none, none, none, none⟩

/-- Three turns of a conversation whose context has been selected. -/
def threeTurns : Db where
  conversationTurns := ⟨[readyTurn 1, readyTurn 2, readyTurn 3], by decide⟩
  plans := .empty
  tasks := .empty
  taskDependencies := .empty
  taskExecutions := .empty
  outbox := .empty
  inbox := .empty
  clarifications := .empty
  context :=
    { selections := ⟨[⟨1, 1, []⟩, ⟨1, 2, [9]⟩, ⟨1, 3, [9]⟩], by decide⟩
      chains := .empty
      nodes := .empty
      resources := .empty
      resourceEvents := [] }

def documentResource (resourceId : String) : ContextResourceInput :=
  ⟨"document", resourceId, some "task_output", none⟩

/-- A completion of one chain. -/
def completion (attribution : TurnAttribution) (related : List ContextResourceInput)
    (removed : List ResourceKey) : CompleteTurnCommand where
  assistantContent := none
  assistantCompact := none
  taskIds := []
  taskResultSummary := none
  attribution := attribution
  chainUpdates := [⟨9, [], related, removed⟩]

/-- The first turn creates the chain, the second removes a resource it has never seen, and the third
uses both. -/
def completeThreeTurns : List ContextAction :=
  [ .completeTurn 9 0 1 (completion ⟨[], true, none⟩ [documentResource "7"] []),
    .completeTurn 10 1 2 (completion ⟨[9, 9], false, none⟩ [] ["document:7", "document:8"]),
    .completeTurn 11 2 3
      (completion ⟨[9], false, none⟩ [documentResource "8", documentResource "7"] []) ]

end DocFlow.Context
