import DocFlow.Context.CompleteTurn

/-!
# The backfill of the resource tables

The migration that gives a chain its resource table fills the table from the JSON column that held
the resources before: one row and one event for each pair of a type and an id, seen in the turn of
the last node of the chain.

A pair is flattened into the key `type:id`.  A type has no colon, so the key gives the pair back
(`resourceKey_injective`), and what `split_resource_key` asks of a key holds of every migrated one
but for one thing: the id may be empty.  The backfill checks the upper bounds of a key only
(`backfill_faithful_iff`).
-/

namespace DocFlow.Context.ResourceBackfill

/-! ## Legacy resources -/

/-- A decoded JSON value; numbers, booleans and `null` are known by their literal. -/
inductive LegacyJson
  | scalar (literal : String)
  | text (s : String)
  | list (items : List LegacyJson)
  | dict (members : List (String × LegacyJson))

/-- `str` and `json.loads`.  A text is its own `str`, and no other value has the empty one. -/
structure Python where
  str : LegacyJson → String
  loads : String → Option LegacyJson
  str_text : ∀ s, str (.text s) = s
  text_of_str_empty : ∀ v, str v = "" → v = .text ""

/-- A row of `context_chains`. -/
structure LegacyChain where
  chainId : ChainId
  resources : LegacyJson
  lastActiveAt : Time
  resourceVersion : Nat

structure LegacyNode where
  chainId : ChainId
  turnId : TurnId
  sequence : Nat
deriving DecidableEq, Repr

/-- `(chain_id, sequence)` is unique. -/
def LegacyNode.place (n : LegacyNode) : ChainId × Nat := (n.chainId, n.sequence)

structure LegacyDb where
  chains : Table LegacyChain.chainId
  nodes : Table LegacyNode.place

/-- The chains beside the new tables. -/
structure Migrated where
  chains : Table LegacyChain.chainId
  resources : Table ContextChainResource.address
  resourceEvents : List ContextChainResourceEvent

/-! ## The migration -/

section Migration

variable (py : Python)

def decode : LegacyJson → Option LegacyJson
  | .text s => py.loads s
  | resources => some resources

def fieldTypes : List (String × String) :=
  [("document_ids", "document"), ("document_codes", "document_code"),
    ("knowledge_base_ids", "knowledge_base"), ("plan_ids", "plan"), ("task_ids", "task"),
    ("result_refs", "result")]

/-- The items of a list; anything else is passed over. -/
def items : Option LegacyJson → List LegacyJson
  | some (.list values) => values
  | _ => []

/-- `other.items()`, where `other` is a `dict`. -/
def otherItems : Option LegacyJson → List (String × LegacyJson)
  | some (.dict members) => members
  | _ => []

def isLegacyType (rawType : String) : Bool := isResourceType rawType && rawType.length ≤ 100

def fieldPairs (resources : List (String × LegacyJson)) : List (String × String) :=
  fieldTypes.flatMap fun (field, resourceType) =>
    (items (resources.lookup field)).map fun value => (resourceType, py.str value)

def otherPairs (rawType : String) (values : LegacyJson) : List (String × String) :=
  if isLegacyType rawType = true then
    (items (some values)).map fun value => (rawType, py.str value)
  else (items (some values)).map fun value => ("other", rawType ++ ":" ++ py.str value)

def legacyResourcePairs (resources : LegacyJson) : Except Failure (List (String × String)) := do
  let resources ← orRaise (decode py resources) (.valueError "Expecting value")
  match resources with
  | .dict members => return PyString.fromKeys (fieldPairs py members ++
      (otherItems (members.lookup "other")).flatMap fun (rawType, values) =>
        otherPairs py rawType values)
  | _ => return []

/-- The turn of the node with the highest sequence. -/
def latestTurn (nodes : Table LegacyNode.place) (chainId : ChainId) : Option TurnId :=
  ((nodes.rows.filter fun n => n.chainId = chainId).insertionSort
    (fun a b => b.sequence ≤ a.sequence)).head?.map LegacyNode.turnId

def resourceKey (pair : String × String) : ResourceKey := pair.1 ++ ":" ++ pair.2

def tooLong (pair : String × String) : Bool :=
  400 < pair.2.length || 512 < (resourceKey pair).length

def stateValues (chain : LegacyChain) (turnId : TurnId) (pair : String × String) :
    ContextChainResource where
  chainId := chain.chainId
  resourceKey := resourceKey pair
  resourceType := pair.1
  resourceId := pair.2
  relation := none
  summary := none
  firstSeenTurnId := turnId
  lastSeenTurnId := turnId
  firstSeenAt := chain.lastActiveAt
  lastSeenAt := chain.lastActiveAt
  useCount := 1
  active := true
  removedAt := none

def eventValues (chain : LegacyChain) (turnId : TurnId) (pair : String × String) :
    ContextChainResourceEvent where
  chainId := chain.chainId
  turnId := turnId
  resourceKey := resourceKey pair
  resourceType := pair.1
  resourceId := pair.2
  action := .seen
  relation := none
  summary := none
  createdAt := chain.lastActiveAt

/-- One pass of the loop over the pairs; the number counts what was inserted. -/
def backfillPair (chain : LegacyChain) (turnId : TurnId) (acc : Migrated × Nat)
    (pair : String × String) : Except Failure (Migrated × Nat) :=
  if tooLong pair = true then .ok acc
  else do
    let resources ← orRaise (acc.1.resources.insert (stateValues chain turnId pair)) .integrityError
    return ({ acc.1 with
      resources
      resourceEvents := acc.1.resourceEvents ++ [eventValues chain turnId pair] }, acc.2 + 1)

def setVersion (chainId : ChainId) (c : LegacyChain) : LegacyChain :=
  if c.chainId = chainId then { c with resourceVersion := 1 } else c

@[simp] theorem setVersion_chainId (chainId : ChainId) (c : LegacyChain) :
    (setVersion chainId c).chainId = c.chainId := by
  unfold setVersion
  split <;> rfl

def backfillChain (nodes : Table LegacyNode.place) (t : Migrated) (chain : LegacyChain) :
    Except Failure Migrated := do
  let pairs ← legacyResourcePairs py chain.resources
  if pairs = [] then return t
  match latestTurn nodes chain.chainId with
  | none => return t
  | some turnId => do
    let (t', inserted) ← pairs.foldlM (backfillPair chain turnId) (t, 0)
    if inserted = 0 then return t'
    return { t' with
      chains := t'.chains.mapRows (setVersion chain.chainId) (setVersion_chainId chain.chainId) }

def backfillLegacyResources (db : LegacyDb) : Except Failure Migrated :=
  db.chains.rows.foldlM (backfillChain py db.nodes) ⟨db.chains, .empty, []⟩

end Migration

/-! ## What the backfill is for -/

/-- The pairs that the resources of a chain stand for. -/
inductive LegacyPair (py : Python) (members : List (String × LegacyJson)) : String × String → Prop
  | field {field resourceType : String} {value : LegacyJson}
      (known : (field, resourceType) ∈ fieldTypes) (listed : value ∈ items (members.lookup field)) :
      LegacyPair py members (resourceType, py.str value)
  | other {rawType : String} {values value : LegacyJson}
      (member : (rawType, values) ∈ otherItems (members.lookup "other"))
      (named : isLegacyType rawType = true) (listed : value ∈ items (some values)) :
      LegacyPair py members (rawType, py.str value)
  | renamed {rawType : String} {values value : LegacyJson}
      (member : (rawType, values) ∈ otherItems (members.lookup "other"))
      (odd : isLegacyType rawType = false) (listed : value ∈ items (some values)) :
      LegacyPair py members ("other", rawType ++ ":" ++ py.str value)

/-- The pairs of a chain that has a node, within the limits, beside the turn of its last node. -/
structure Migrates (py : Python) (db : LegacyDb) (chain : LegacyChain) (turnId : TurnId)
    (pair : String × String) : Prop where
  stands : ∃ members, decode py chain.resources = some (.dict members) ∧ LegacyPair py members pair
  last : ∃ n ∈ db.nodes, n.chainId = chain.chainId ∧ n.turnId = turnId ∧
    ∀ m ∈ db.nodes, m.chainId = chain.chainId → m.sequence ≤ n.sequence
  idLimit : pair.2.length ≤ 400
  keyLimit : (resourceKey pair).length ≤ 512

/-- The tables hold one active row and one event for each pair, and nothing else; the version of a
chain is set when it got a row; and the new code reads every key back. -/
structure FaithfulTo (py : Python) (db : LegacyDb) (t : Migrated) : Prop where
  row : ∀ chain ∈ db.chains, ∀ turnId pair, Migrates py db chain turnId pair →
    ∃ r, (t.resources.rows.filter fun r => r.chainId = chain.chainId ∧
        (r.resourceType, r.resourceId) = pair) = [r] ∧
      r.active = true ∧ r.resourceKey = resourceKey pair ∧
        r.firstSeenTurnId = turnId ∧ r.lastSeenTurnId = turnId
  event : ∀ chain ∈ db.chains, ∀ turnId pair, Migrates py db chain turnId pair →
    ∃ ev, (t.resourceEvents.filter fun ev => ev.chainId = chain.chainId ∧
        (ev.resourceType, ev.resourceId) = pair) = [ev] ∧
      ev.action = .seen ∧ ev.resourceKey = resourceKey pair ∧ ev.turnId = turnId
  rowOf : ∀ r ∈ t.resources, ∃ chain ∈ db.chains, chain.chainId = r.chainId ∧
    ∃ turnId, Migrates py db chain turnId (r.resourceType, r.resourceId)
  eventOf : ∀ ev ∈ t.resourceEvents, ∃ chain ∈ db.chains, chain.chainId = ev.chainId ∧
    ∃ turnId, Migrates py db chain turnId (ev.resourceType, ev.resourceId)
  raised : ∀ chain ∈ db.chains, (∃ r ∈ t.resources, r.chainId = chain.chainId) →
    { chain with resourceVersion := 1 } ∈ t.chains
  kept : ∀ chain ∈ db.chains, (¬ ∃ r ∈ t.resources, r.chainId = chain.chainId) → chain ∈ t.chains
  split : ∀ r ∈ t.resources, splitResourceKey r.resourceKey = .ok (r.resourceType, r.resourceId)

/-- The backfill comes to its end, without an error on the way, and what it leaves is faithful. -/
def Faithful (py : Python) (db : LegacyDb) : Prop :=
  ∃ t, backfillLegacyResources py db = .ok t ∧ FaithfulTo py db t

/-- The empty text is listed under a known field, or in `other` under a name that stays a type. -/
def ListsEmptyText (members : List (String × LegacyJson)) : Prop :=
  (∃ f ∈ fieldTypes, .text "" ∈ items (members.lookup f.1)) ∨
    ∃ m ∈ otherItems (members.lookup "other"), isLegacyType m.1 = true ∧
      .text "" ∈ items (some m.2)

/-! ## Pairs and keys -/

section Pairs

variable {py : Python} {members : List (String × LegacyJson)} {pair : String × String}

theorem mem_fieldPairs : pair ∈ fieldPairs py members ↔ ∃ f ∈ fieldTypes,
    ∃ value ∈ items (members.lookup f.1), (f.2, py.str value) = pair := by
  simp only [fieldPairs, List.mem_flatMap, List.mem_map]

theorem mem_otherPairs {rawType : String} {values : LegacyJson} :
    pair ∈ otherPairs py rawType values ↔ ∃ value ∈ items (some values),
      (isLegacyType rawType = true ∧ (rawType, py.str value) = pair) ∨
        (isLegacyType rawType = false ∧ ("other", rawType ++ ":" ++ py.str value) = pair) := by
  unfold otherPairs
  by_cases ht : isLegacyType rawType = true
  · simp [ht]
  · simp [ht]

theorem legacyResourcePairs_ok {resources v : LegacyJson} (h : decode py resources = some v) :
    ∃ pairs, legacyResourcePairs py resources = .ok pairs ∧ pairs.Nodup ∧
      ∀ pair, pair ∈ pairs ↔ ∃ members, v = .dict members ∧ LegacyPair py members pair := by
  cases v with
  | scalar _ | text _ | list _ =>
    refine ⟨[], by simp [legacyResourcePairs, h, orRaise, bind, Except.bind, pure, Except.pure],
      List.nodup_nil, fun pair => ⟨fun hp => absurd hp List.not_mem_nil, ?_⟩⟩
    rintro ⟨members, hv, -⟩
    cases hv
  | dict members =>
    have hpairs : legacyResourcePairs py resources = .ok (PyString.fromKeys (fieldPairs py members ++
        (otherItems (members.lookup "other")).flatMap fun (rawType, values) =>
          otherPairs py rawType values)) := by
      simp [legacyResourcePairs, h, orRaise, bind, Except.bind, pure, Except.pure]
    refine ⟨_, hpairs, PyString.nodup_fromKeys _, fun pair => ?_⟩
    rw [PyString.mem_fromKeys, List.mem_append, mem_fieldPairs, List.mem_flatMap]
    constructor
    · rintro (⟨f, hf, value, hvalue, rfl⟩ | ⟨m, hm, hpair⟩)
      · exact ⟨members, rfl, .field hf hvalue⟩
      · obtain ⟨value, hvalue, ⟨ht, rfl⟩ | ⟨ht, rfl⟩⟩ := mem_otherPairs.mp hpair
        · exact ⟨members, rfl, .other hm ht hvalue⟩
        · exact ⟨members, rfl, .renamed hm ht hvalue⟩
    · rintro ⟨_, hv, hpair⟩
      obtain rfl := LegacyJson.dict.inj hv
      cases hpair with
      | field hf hvalue => exact .inl ⟨_, hf, _, hvalue, rfl⟩
      | other hm ht hvalue => exact .inr ⟨_, hm, mem_otherPairs.mpr ⟨_, hvalue, .inl ⟨ht, rfl⟩⟩⟩
      | renamed hm ht hvalue => exact .inr ⟨_, hm, mem_otherPairs.mpr ⟨_, hvalue, .inr ⟨ht, rfl⟩⟩⟩

/-- Every type keeps to the grammar of the keys. -/
theorem isLegacyType_of_pair (h : LegacyPair py members pair) : isLegacyType pair.1 = true := by
  cases h with
  | field hf _ =>
    have hall : ∀ f ∈ fieldTypes, isLegacyType f.2 = true := by decide
    exact hall _ hf
  | other _ ht _ => exact ht
  | renamed =>
    show isLegacyType "other" = true
    decide

/-- Only the empty text has an empty id. -/
theorem empty_id_iff : (∃ p, LegacyPair py members p ∧ p.2 = "") ↔ ListsEmptyText members := by
  constructor
  · rintro ⟨p, hp, hempty⟩
    cases hp with
    | field hf hvalue => exact .inl ⟨_, hf, py.text_of_str_empty _ hempty ▸ hvalue⟩
    | other hm ht hvalue => exact .inr ⟨_, hm, ht, py.text_of_str_empty _ hempty ▸ hvalue⟩
    | renamed hm ht hvalue =>
      have hlen := congrArg String.length hempty
      simp only [String.length_append] at hlen
      exact absurd hlen (by simp)
  · rintro (⟨f, hf, hvalue⟩ | ⟨m, hm, ht, hvalue⟩)
    · exact ⟨_, .field hf hvalue, py.str_text ""⟩
    · exact ⟨_, .other hm ht hvalue, py.str_text ""⟩

end Pairs

theorem colon_not_mem {resourceType : String} (h : isLegacyType resourceType = true) :
    ':' ∉ resourceType.toList := by
  rw [isLegacyType, Bool.and_eq_true, isResourceType] at h
  cases hs : resourceType.toList with
  | nil => exact List.not_mem_nil
  | cons c cs =>
    rw [hs] at h
    obtain ⟨hfirst, hrest⟩ := Bool.and_eq_true_iff.mp h.1
    intro hmem
    rcases List.mem_cons.mp hmem with rfl | hmem
    · revert hfirst
      decide
    · have hcolon := List.all_eq_true.mp hrest ':' hmem
      revert hcolon
      decide

theorem partition_resourceKey {pair : String × String} (h : isLegacyType pair.1 = true) :
    PyString.partition (resourceKey pair) ':' = (pair.1, some ':', pair.2) :=
  PyString.partition_append (colon_not_mem h) pair.2

/-- **The key gives the pair back.** -/
theorem resourceKey_injective {p q : String × String} (hp : isLegacyType p.1 = true)
    (hq : isLegacyType q.1 = true) (h : resourceKey p = resourceKey q) : p = q := by
  have hparts := partition_resourceKey hp
  rw [h, partition_resourceKey hq] at hparts
  simp only [Prod.mk.injEq, true_and] at hparts
  exact Prod.ext hparts.1.symm hparts.2.symm

/-- `split_resource_key` reads a key back unless the id is empty. -/
theorem splitResourceKey_resourceKey {pair : String × String} (h : isLegacyType pair.1 = true)
    (hid : pair.2.length ≤ 400) :
    splitResourceKey (resourceKey pair) = .ok pair ↔ pair.2 ≠ "" := by
  have hgrammar := Bool.and_eq_true_iff.mp h
  have hne : pair.1 ≠ "" := by
    intro hempty
    rw [hempty] at h
    revert h
    decide
  have hlong : pair.1.length ≤ 100 := by simpa using hgrammar.2
  rw [splitResourceKey, partition_resourceKey h]
  by_cases hempty : pair.2 = ""
  · simp [hempty]
  · simp [hempty, hne, hgrammar.1, Nat.not_lt.mpr hlong, Nat.not_lt.mpr hid]

/-! ## One chain -/

theorem latestTurn_eq_some {nodes : Table LegacyNode.place} {chainId : ChainId} {turnId : TurnId} :
    latestTurn nodes chainId = some turnId ↔ ∃ n ∈ nodes, n.chainId = chainId ∧ n.turnId = turnId ∧
      ∀ m ∈ nodes, m.chainId = chainId → m.sequence ≤ n.sequence := by
  have hmem : ∀ n, n ∈ (nodes.rows.filter fun n => n.chainId = chainId).insertionSort
      (fun a b => b.sequence ≤ a.sequence) ↔ n ∈ nodes ∧ n.chainId = chainId := by
    intro n
    rw [List.mem_insertionSort, List.mem_filter, decide_eq_true_iff, Table.mem_iff]
  have hsorted := List.pairwise_insertionSort (fun a b : LegacyNode => b.sequence ≤ a.sequence)
    (nodes.rows.filter fun n => n.chainId = chainId)
  rw [latestTurn]
  cases hs : (nodes.rows.filter fun n => n.chainId = chainId).insertionSort
      (fun a b => b.sequence ≤ a.sequence) with
  | nil =>
    rw [hs] at hmem
    constructor
    · intro h
      cases h
    · rintro ⟨n, hn, hchain, -⟩
      exact absurd ((hmem n).mpr ⟨hn, hchain⟩) List.not_mem_nil
  | cons n ns =>
    rw [hs] at hmem hsorted
    have hn := (hmem n).mp List.mem_cons_self
    have hmax : ∀ m ∈ nodes, m.chainId = chainId → m.sequence ≤ n.sequence := by
      intro m hm hchain
      rcases List.mem_cons.mp ((hmem m).mpr ⟨hm, hchain⟩) with rfl | hin
      · exact le_rfl
      · exact (List.pairwise_cons.mp hsorted).1 m hin
    constructor
    · intro h
      exact ⟨n, hn.1, hn.2, Option.some.inj h, hmax⟩
    · rintro ⟨m, hm, hchain, rfl, hlast⟩
      -- two nodes of one chain with the highest sequence are one node
      have hseq := le_antisymm (hmax m hm hchain) (hlast n hn.1 hn.2)
      have hplace : n.place = m.place := Prod.ext (hn.2.trans hchain.symm) hseq.symm
      rw [Table.eq_of_key hn.1 hm hplace]
      rfl

theorem tooLong_eq_false {pair : String × String} :
    tooLong pair = false ↔ pair.2.length ≤ 400 ∧ (resourceKey pair).length ≤ 512 := by
  simp [tooLong]

/-- What is inserted for a chain: the pairs within the limits, with the turn of the last node. -/
def newPairs (py : Python) (nodes : Table LegacyNode.place) (chain : LegacyChain) :
    List (TurnId × String × String) :=
  match latestTurn nodes chain.chainId, legacyResourcePairs py chain.resources with
  | some turnId, .ok pairs => (pairs.filter fun p => !tooLong p).map fun p => (turnId, p)
  | _, _ => []

/-- The tables after the rows and events of `new` have been added. -/
structure Adds (chain : LegacyChain) (new : List (TurnId × String × String)) (t t' : Migrated) :
    Prop where
  rows : t'.resources.rows = t.resources.rows ++ new.map fun x => stateValues chain x.1 x.2
  events : t'.resourceEvents = t.resourceEvents ++ new.map fun x => eventValues chain x.1 x.2

section Chain

variable {py : Python} (nodes : Table LegacyNode.place) {chain : LegacyChain}

theorem backfillPair_of_fits (turnId : TurnId) {t : Migrated} {pair : String × String} (n : Nat)
    (hfits : tooLong pair = false)
    (hfresh : ∀ r ∈ t.resources, r.chainId = chain.chainId → r.resourceKey ≠ resourceKey pair) :
    ∃ t', backfillPair chain turnId (t, n) pair = .ok (t', n + 1) ∧ t'.chains = t.chains ∧
      Adds chain [(turnId, pair)] t t' := by
  have hnew : ∀ r ∈ t.resources, r.address ≠ (stateValues chain turnId pair).address :=
    fun r hr h => hfresh r hr (Prod.mk.inj h).1 (Prod.mk.inj h).2
  obtain ⟨resources, hins⟩ := Table.exists_insert hnew
  refine ⟨{ t with
      resources
      resourceEvents := t.resourceEvents ++ [eventValues chain turnId pair] }, ?_, rfl,
    Table.rows_insert hins, rfl⟩
  simp [backfillPair, hfits, hins, orRaise, bind, Except.bind, pure, Except.pure]

/-- The loop over the pairs of a chain inserts those that fit and never meets a taken key. -/
theorem foldlM_backfillPair (turnId : TurnId) (pairs : List (String × String)) (t : Migrated) (n : Nat)
    (hgrammar : ∀ p ∈ pairs, isLegacyType p.1 = true) (hnodup : pairs.Nodup)
    (hfresh : ∀ r ∈ t.resources, r.chainId = chain.chainId →
      ∀ p ∈ pairs, r.resourceKey ≠ resourceKey p) :
    ∃ t', pairs.foldlM (backfillPair chain turnId) (t, n) =
        .ok (t', n + (pairs.filter fun p => !tooLong p).length) ∧ t'.chains = t.chains ∧
      Adds chain ((pairs.filter fun p => !tooLong p).map fun p => (turnId, p)) t t' := by
  induction pairs generalizing t n with
  | nil => exact ⟨t, rfl, rfl, by simp, by simp⟩
  | cons pair pairs ih =>
    obtain ⟨hnot, hnodup⟩ := List.nodup_cons.mp hnodup
    have hgrammar' := fun p hp => hgrammar p (List.mem_cons_of_mem _ hp)
    rw [List.foldlM_cons]
    by_cases hlong : tooLong pair = true
    · obtain ⟨t', hrun, hchains, hadds⟩ := ih t n hgrammar' hnodup
        fun r hr hchain p hp => hfresh r hr hchain p (List.mem_cons_of_mem _ hp)
      refine ⟨t', ?_, hchains, ?_⟩
      · simpa [backfillPair, hlong, bind, Except.bind] using hrun
      · simpa [hlong] using hadds
    · rw [Bool.not_eq_true] at hlong
      obtain ⟨t₁, hfirst, hchains₁, hadds₁⟩ := backfillPair_of_fits turnId n hlong
        fun r hr hchain => hfresh r hr hchain pair List.mem_cons_self
      have hfresh₁ : ∀ r ∈ t₁.resources, r.chainId = chain.chainId →
          ∀ p ∈ pairs, r.resourceKey ≠ resourceKey p := by
        intro r hr hchain p hp hkey
        rw [Table.mem_iff, hadds₁.rows, List.mem_append] at hr
        rcases hr with hr | hr
        · exact hfresh r hr hchain p (List.mem_cons_of_mem _ hp) hkey
        · obtain rfl := List.mem_singleton.mp hr
          have heq : pair = p :=
            resourceKey_injective (hgrammar pair List.mem_cons_self) (hgrammar' p hp) hkey
          exact hnot (heq ▸ hp)
      obtain ⟨t', hrun, hchains, hadds⟩ := ih t₁ (n + 1) hgrammar' hnodup hfresh₁
      refine ⟨t', ?_, hchains.trans hchains₁, ?_, ?_⟩
      · rw [hfirst]
        refine hrun.trans ?_
        rw [List.filter_cons_of_pos (by simp [hlong]), List.length_cons,
          Nat.add_right_comm, Nat.add_assoc n]
      · simp [hadds.rows, hadds₁.rows, hlong]
      · simp [hadds.events, hadds₁.events, hlong]

/-- The pairs of a chain all keep to the grammar and are met once. -/
theorem newPairs_spec {db : LegacyDb} {v : LegacyJson} (h : decode py chain.resources = some v) :
    ((newPairs py db.nodes chain).map Prod.snd).Nodup ∧
      ∀ x, x ∈ newPairs py db.nodes chain ↔ Migrates py db chain x.1 x.2 := by
  obtain ⟨pairs, hpairs, hnodup, hmem⟩ := legacyResourcePairs_ok h
  cases hturn : latestTurn db.nodes chain.chainId with
  | none =>
    have hnil : newPairs py db.nodes chain = [] := by rw [newPairs, hturn]
    rw [hnil]
    refine ⟨List.nodup_nil, fun x => ⟨fun hx => absurd hx List.not_mem_nil, fun hx => ?_⟩⟩
    rw [latestTurn_eq_some.mpr hx.last] at hturn
    cases hturn
  | some turnId =>
    have hnew : newPairs py db.nodes chain =
        (pairs.filter fun p => !tooLong p).map fun p => (turnId, p) := by
      rw [newPairs, hturn, hpairs]
    rw [hnew, List.map_map]
    refine ⟨by simpa using hnodup.filter _, fun x => ?_⟩
    simp only [List.mem_map, List.mem_filter, hmem, Bool.not_eq_true', tooLong_eq_false]
    constructor
    · rintro ⟨p, ⟨⟨members, rfl, hp⟩, hid, hkey⟩, rfl⟩
      exact ⟨⟨members, h, hp⟩, latestTurn_eq_some.mp hturn, hid, hkey⟩
    · rintro ⟨⟨members, hv, hp⟩, hlast, hid, hkey⟩
      have heq : turnId = x.1 :=
        Option.some.inj (hturn.symm.trans (latestTurn_eq_some.mpr hlast))
      exact ⟨x.2, ⟨⟨members, Option.some.inj (h.symm.trans hv), hp⟩, hid, hkey⟩, by rw [heq]⟩

/-- What a chain does to the versions. -/
def raise (py : Python) (nodes : Table LegacyNode.place) (chain c : LegacyChain) : LegacyChain :=
  if newPairs py nodes chain = [] then c else setVersion chain.chainId c

theorem map_raise_of_nil (h : newPairs py nodes chain = []) (cs : List LegacyChain) :
    cs.map (raise py nodes chain) = cs := by
  have hraise : raise py nodes chain = id := by
    funext c
    rw [raise, if_pos h]
    rfl
  rw [hraise, List.map_id]

theorem backfillChain_ok {v : LegacyJson} (h : decode py chain.resources = some v) {t : Migrated}
    (hfresh : ∀ r ∈ t.resources, r.chainId ≠ chain.chainId) :
    ∃ t', backfillChain py nodes t chain = .ok t' ∧ Adds chain (newPairs py nodes chain) t t' ∧
      t'.chains.rows = t.chains.rows.map (raise py nodes chain) := by
  obtain ⟨pairs, hpairs, hnodup, hmem⟩ := legacyResourcePairs_ok h
  have hgrammar : ∀ p ∈ pairs, isLegacyType p.1 = true := by
    intro p hp
    obtain ⟨members, -, hpair⟩ := (hmem p).mp hp
    exact isLegacyType_of_pair hpair
  have hstays : newPairs py nodes chain = [] → Adds chain (newPairs py nodes chain) t t ∧
      t.chains.rows = t.chains.rows.map (raise py nodes chain) := by
    intro hnil
    exact ⟨⟨by simp [hnil], by simp [hnil]⟩, (map_raise_of_nil nodes hnil _).symm⟩
  by_cases hempty : pairs = []
  · refine ⟨t, ?_, hstays ?_⟩
    · simp [backfillChain, hpairs, hempty, bind, Except.bind, pure, Except.pure]
    · unfold newPairs
      rw [hpairs, hempty]
      cases latestTurn nodes chain.chainId <;> rfl
  · cases hturn : latestTurn nodes chain.chainId with
    | none =>
      refine ⟨t, ?_, hstays ?_⟩
      · simp [backfillChain, hpairs, hempty, hturn, bind, Except.bind, pure, Except.pure]
      · rw [newPairs, hturn]
    | some turnId =>
      obtain ⟨t', hrun, hchains, hadds⟩ := foldlM_backfillPair turnId pairs t 0 hgrammar
        hnodup fun r hr hchain => absurd hchain (hfresh r hr)
      have hnew : newPairs py nodes chain =
          (pairs.filter fun p => !tooLong p).map fun p => (turnId, p) := by
        rw [newPairs, hturn, hpairs]
      rw [← hnew] at hadds
      rw [Nat.zero_add] at hrun
      by_cases hnone : pairs.filter (fun p => !tooLong p) = []
      · refine ⟨t', ?_, hadds, ?_⟩
        · simp [backfillChain, hpairs, hempty, hturn, hrun, hnone, bind, Except.bind, pure,
            Except.pure]
        · rw [hchains, map_raise_of_nil nodes (by simp [hnew, hnone])]
      · refine ⟨{ t' with
          chains := t'.chains.mapRows (setVersion chain.chainId) (setVersion_chainId chain.chainId) },
          ?_, ⟨hadds.rows, hadds.events⟩, ?_⟩
        · simp [backfillChain, hpairs, hempty, hturn, hrun, hnone, bind, Except.bind, pure,
            Except.pure]
        · show t'.chains.rows.map (setVersion chain.chainId) = _
          rw [hchains]
          refine List.map_congr_left fun c _ => ?_
          rw [raise, if_neg (by simpa [hnew] using hnone)]

end Chain

/-! ## All chains -/

section Run

variable {py : Python}

theorem raise_of_ne {nodes : Table LegacyNode.place} {chain c : LegacyChain}
    (h : c.chainId ≠ chain.chainId) : raise py nodes chain c = c := by
  rw [raise, setVersion, if_neg h, ite_self]

theorem foldl_raise_of_not_mem {nodes : Table LegacyNode.place} (chains : List LegacyChain)
    {c : LegacyChain} (h : c.chainId ∉ chains.map LegacyChain.chainId) :
    chains.foldl (fun c chain => raise py nodes chain c) c = c := by
  induction chains with
  | nil => rfl
  | cons d chains ih =>
    rw [List.map_cons, List.mem_cons, not_or] at h
    rw [List.foldl_cons, raise_of_ne h.1, ih h.2]

/-- A chain is raised by its own pass and by no other. -/
theorem foldl_raise {nodes : Table LegacyNode.place} (chains : List LegacyChain)
    (hids : (chains.map LegacyChain.chainId).Nodup) {c : LegacyChain} (hc : c ∈ chains) :
    chains.foldl (fun c chain => raise py nodes chain c) c =
      if newPairs py nodes c = [] then c else { c with resourceVersion := 1 } := by
  induction chains with
  | nil => exact absurd hc List.not_mem_nil
  | cons d chains ih =>
    obtain ⟨hnot, hids⟩ := List.nodup_cons.mp hids
    rw [List.foldl_cons]
    rcases List.mem_cons.mp hc with rfl | hin
    · have hown : raise py nodes c c =
          if newPairs py nodes c = [] then c else { c with resourceVersion := 1 } := by
        rw [raise, setVersion, if_pos rfl]
      have hid : (raise py nodes c c).chainId = c.chainId := by
        rw [hown]
        split <;> rfl
      rw [foldl_raise_of_not_mem chains (by rwa [hid]), hown]
    · have hne : c.chainId ≠ d.chainId := fun h => hnot (h ▸ List.mem_map_of_mem hin)
      rw [raise_of_ne hne, ih hids hin]

theorem foldlM_backfillChain (nodes : Table LegacyNode.place) (chains : List LegacyChain)
    (t : Migrated) (hlegible : ∀ c ∈ chains, ∃ v, decode py c.resources = some v)
    (hids : (chains.map LegacyChain.chainId).Nodup)
    (hfresh : ∀ r ∈ t.resources, r.chainId ∉ chains.map LegacyChain.chainId) :
    ∃ t', chains.foldlM (backfillChain py nodes) t = .ok t' ∧
      t'.resources.rows = t.resources.rows ++ chains.flatMap (fun chain =>
        (newPairs py nodes chain).map fun x => stateValues chain x.1 x.2) ∧
      t'.resourceEvents = t.resourceEvents ++ chains.flatMap (fun chain =>
        (newPairs py nodes chain).map fun x => eventValues chain x.1 x.2) ∧
      t'.chains.rows = t.chains.rows.map fun c =>
        chains.foldl (fun c chain => raise py nodes chain c) c := by
  induction chains generalizing t with
  | nil => exact ⟨t, rfl, by simp, by simp, by simp⟩
  | cons chain chains ih =>
    obtain ⟨hnot, hids⟩ := List.nodup_cons.mp hids
    obtain ⟨v, hv⟩ := hlegible chain List.mem_cons_self
    obtain ⟨t₁, hfirst, hadds, hchains₁⟩ := backfillChain_ok nodes hv
      fun r hr h => hfresh r hr (h ▸ List.mem_cons_self)
    have hfresh₁ : ∀ r ∈ t₁.resources, r.chainId ∉ chains.map LegacyChain.chainId := by
      intro r hr hin
      rw [Table.mem_iff, hadds.rows, List.mem_append] at hr
      rcases hr with hr | hr
      · exact hfresh r hr (List.mem_cons_of_mem _ hin)
      · obtain ⟨x, -, rfl⟩ := List.mem_map.mp hr
        exact hnot hin
    obtain ⟨t', hrun, hrows, hevents, hchains⟩ := ih t₁
      (fun c hc => hlegible c (List.mem_cons_of_mem _ hc)) hids hfresh₁
    refine ⟨t', ?_, ?_, ?_, ?_⟩
    · rw [List.foldlM_cons, hfirst]
      exact hrun
    · rw [hrows, hadds.rows, List.flatMap_cons, List.append_assoc]
    · rw [hevents, hadds.events, List.flatMap_cons, List.append_assoc]
    · rw [hchains, hchains₁, List.map_map]
      rfl

/-- The turn that the pairs of a chain are attributed to is unique. -/
theorem Migrates.turn_unique {db : LegacyDb} {chain : LegacyChain} {turnId turnId' : TurnId}
    {pair pair' : String × String} (h : Migrates py db chain turnId pair)
    (h' : Migrates py db chain turnId' pair') : turnId = turnId' :=
  Option.some.inj ((latestTurn_eq_some.mpr h.last).symm.trans (latestTurn_eq_some.mpr h'.last))

theorem Migrates.grammar {db : LegacyDb} {chain : LegacyChain} {turnId : TurnId}
    {pair : String × String} (h : Migrates py db chain turnId pair) :
    isLegacyType pair.1 = true := by
  obtain ⟨members, -, hpair⟩ := h.stands
  exact isLegacyType_of_pair hpair

/-- The tables after the backfill, by their members. -/
structure Backfilled (py : Python) (db : LegacyDb) (t : Migrated) : Prop where
  mem_resources : ∀ r, r ∈ t.resources ↔ ∃ chain ∈ db.chains, ∃ turnId pair,
    Migrates py db chain turnId pair ∧ stateValues chain turnId pair = r
  mem_events : ∀ ev, ev ∈ t.resourceEvents ↔ ∃ chain ∈ db.chains, ∃ turnId pair,
    Migrates py db chain turnId pair ∧ eventValues chain turnId pair = ev
  nodup_events : (t.resourceEvents.map ContextChainResourceEvent.address).Nodup
  mem_chains : ∀ chain ∈ db.chains, (if newPairs py db.nodes chain = [] then chain
    else { chain with resourceVersion := 1 }) ∈ t.chains

/-- **The backfill always comes to its end**, whatever the resources are. -/
theorem backfillLegacyResources_ok (py : Python) (db : LegacyDb)
    (hlegible : ∀ chain ∈ db.chains, ∃ v, decode py chain.resources = some v) :
    ∃ t, backfillLegacyResources py db = .ok t ∧ Backfilled py db t := by
  obtain ⟨t, hrun, hrows, hevents, hchains⟩ := foldlM_backfillChain db.nodes
    db.chains.rows ⟨db.chains, .empty, []⟩ hlegible db.chains.nodup
    fun r hr => absurd hr (Table.not_mem_empty r)
  have hnew : ∀ chain ∈ db.chains, ∀ x, x ∈ newPairs py db.nodes chain ↔
      Migrates py db chain x.1 x.2 := by
    intro chain hchain
    obtain ⟨v, hv⟩ := hlegible chain hchain
    exact (newPairs_spec hv).2
  change t.resources.rows = [] ++ _ at hrows
  change t.resourceEvents = [] ++ _ at hevents
  rw [List.nil_append] at hrows hevents
  refine ⟨t, hrun, fun r => ?_, fun ev => ?_, ?_, fun chain hchain => ?_⟩
  · rw [Table.mem_iff, hrows, List.mem_flatMap]
    constructor
    · rintro ⟨chain, hchain, hr⟩
      obtain ⟨x, hx, rfl⟩ := List.mem_map.mp hr
      exact ⟨chain, hchain, x.1, x.2, (hnew chain hchain x).mp hx, rfl⟩
    · rintro ⟨chain, hchain, turnId, pair, hmig, rfl⟩
      exact ⟨chain, hchain, List.mem_map.mpr ⟨(turnId, pair), (hnew chain hchain _).mpr hmig, rfl⟩⟩
  · rw [hevents, List.mem_flatMap]
    constructor
    · rintro ⟨chain, hchain, hr⟩
      obtain ⟨x, hx, rfl⟩ := List.mem_map.mp hr
      exact ⟨chain, hchain, x.1, x.2, (hnew chain hchain x).mp hx, rfl⟩
    · rintro ⟨chain, hchain, turnId, pair, hmig, rfl⟩
      exact ⟨chain, hchain, List.mem_map.mpr ⟨(turnId, pair), (hnew chain hchain _).mpr hmig, rfl⟩⟩
  · -- an event is added with each row, under the same key
    have hsame : t.resourceEvents.map ContextChainResourceEvent.address =
        t.resources.rows.map ContextChainResource.address := by
      rw [hrows, hevents, List.map_flatMap, List.map_flatMap]
      simp only [List.map_map]
      rfl
    rw [hsame]
    exact t.resources.nodup
  · rw [Table.mem_iff, hchains, List.mem_map]
    exact ⟨chain, hchain, foldl_raise db.chains.rows db.chains.nodup hchain⟩

end Run

/-! ## When the backfill is faithful -/

theorem filter_eq_singleton {α : Type} {p : α → Bool} {l : List α} {a : α} (hl : l.Nodup)
    (ha : a ∈ l) (hp : p a = true) (honly : ∀ b ∈ l, p b = true → b = a) : l.filter p = [a] := by
  have hmem : ∀ b, b ∈ l.filter p ↔ b ∈ [a] := by
    intro b
    rw [List.mem_filter, List.mem_singleton]
    constructor
    · rintro ⟨hb, hpb⟩
      exact honly b hb hpb
    · rintro rfl
      exact ⟨ha, hp⟩
  exact List.perm_singleton.mp
    ((List.perm_ext_iff_of_nodup (hl.filter p) (List.nodup_singleton a)).mpr hmem)

section Faithfulness

variable {py : Python} {db : LegacyDb} {t : Migrated}

theorem Backfilled.row (h : Backfilled py db t) {chain : LegacyChain} (hchain : chain ∈ db.chains)
    {turnId : TurnId} {pair : String × String} (hmig : Migrates py db chain turnId pair) :
    (t.resources.rows.filter fun r => r.chainId = chain.chainId ∧
      (r.resourceType, r.resourceId) = pair) = [stateValues chain turnId pair] := by
  refine filter_eq_singleton t.resources.nodup.of_map
    ((h.mem_resources _).mpr ⟨chain, hchain, turnId, pair, hmig, rfl⟩)
    (decide_eq_true ⟨rfl, rfl⟩) fun r hr hp => ?_
  obtain ⟨chain', hchain', turnId', pair', hmig', rfl⟩ := (h.mem_resources r).mp hr
  obtain ⟨hid, hpair⟩ := of_decide_eq_true hp
  obtain rfl := Table.eq_of_key hchain' hchain hid
  obtain rfl : pair' = pair := hpair
  rw [hmig.turn_unique hmig']

theorem Backfilled.event (h : Backfilled py db t) {chain : LegacyChain} (hchain : chain ∈ db.chains)
    {turnId : TurnId} {pair : String × String} (hmig : Migrates py db chain turnId pair) :
    (t.resourceEvents.filter fun ev => ev.chainId = chain.chainId ∧
      (ev.resourceType, ev.resourceId) = pair) = [eventValues chain turnId pair] := by
  refine filter_eq_singleton h.nodup_events.of_map
    ((h.mem_events _).mpr ⟨chain, hchain, turnId, pair, hmig, rfl⟩)
    (decide_eq_true ⟨rfl, rfl⟩) fun ev hev hp => ?_
  obtain ⟨chain', hchain', turnId', pair', hmig', rfl⟩ := (h.mem_events ev).mp hev
  obtain ⟨hid, hpair⟩ := of_decide_eq_true hp
  obtain rfl := Table.eq_of_key hchain' hchain hid
  obtain rfl : pair' = pair := hpair
  rw [hmig.turn_unique hmig']

theorem Backfilled.inserts_iff (h : Backfilled py db t) {chain : LegacyChain}
    (hchain : chain ∈ db.chains) {v : LegacyJson} (hv : decode py chain.resources = some v) :
    (∃ r ∈ t.resources, r.chainId = chain.chainId) ↔ newPairs py db.nodes chain ≠ [] := by
  constructor
  · rintro ⟨r, hr, hid⟩
    obtain ⟨chain', hchain', turnId, pair, hmig, rfl⟩ := (h.mem_resources r).mp hr
    obtain rfl := Table.eq_of_key hchain' hchain hid
    exact List.ne_nil_of_mem (((newPairs_spec hv).2 (turnId, pair)).mpr hmig)
  · intro hne
    obtain ⟨x, hx⟩ := List.exists_mem_of_ne_nil _ hne
    have hmig := ((newPairs_spec hv).2 x).mp hx
    exact ⟨_, (h.mem_resources _).mpr ⟨chain, hchain, x.1, x.2, hmig, rfl⟩, rfl⟩

theorem Backfilled.faithful (h : Backfilled py db t)
    (hlegible : ∀ chain ∈ db.chains, ∃ v, decode py chain.resources = some v)
    (hids : ∀ chain ∈ db.chains, ∀ turnId pair, Migrates py db chain turnId pair → pair.2 ≠ "") :
    FaithfulTo py db t where
  row chain hchain turnId pair hmig := ⟨_, h.row hchain hmig, rfl, rfl, rfl, rfl⟩
  event chain hchain turnId pair hmig := ⟨_, h.event hchain hmig, rfl, rfl, rfl⟩
  rowOf r hr := by
    obtain ⟨chain, hchain, turnId, pair, hmig, rfl⟩ := (h.mem_resources r).mp hr
    exact ⟨chain, hchain, rfl, turnId, hmig⟩
  eventOf ev hev := by
    obtain ⟨chain, hchain, turnId, pair, hmig, rfl⟩ := (h.mem_events ev).mp hev
    exact ⟨chain, hchain, rfl, turnId, hmig⟩
  raised chain hchain hrow := by
    obtain ⟨v, hv⟩ := hlegible chain hchain
    have hmem := h.mem_chains chain hchain
    rwa [if_neg ((h.inserts_iff hchain hv).mp hrow)] at hmem
  kept chain hchain hrow := by
    obtain ⟨v, hv⟩ := hlegible chain hchain
    have hmem := h.mem_chains chain hchain
    rwa [if_pos (not_not.mp fun hne => hrow ((h.inserts_iff hchain hv).mpr hne))] at hmem
  split r hr := by
    obtain ⟨chain, hchain, turnId, pair, hmig, rfl⟩ := (h.mem_resources r).mp hr
    exact (splitResourceKey_resourceKey hmig.grammar hmig.idLimit).mpr
      (hids chain hchain turnId pair hmig)

/-- A chain with a node has a last one. -/
theorem exists_last {chain : LegacyChain} (h : ∃ n ∈ db.nodes, n.chainId = chain.chainId) :
    ∃ turnId, ∃ n ∈ db.nodes, n.chainId = chain.chainId ∧ n.turnId = turnId ∧
      ∀ m ∈ db.nodes, m.chainId = chain.chainId → m.sequence ≤ n.sequence := by
  obtain ⟨n, hn, hchain⟩ := h
  have hmem : n ∈ db.nodes.rows.filter fun n => n.chainId = chain.chainId :=
    List.mem_filter.mpr ⟨hn, decide_eq_true hchain⟩
  obtain ⟨last, hlast⟩ : ∃ turnId, latestTurn db.nodes chain.chainId = some turnId := by
    cases hs : (db.nodes.rows.filter fun n => n.chainId = chain.chainId).insertionSort
        (fun a b => b.sequence ≤ a.sequence) with
    | nil =>
      rw [← List.mem_insertionSort (fun a b : LegacyNode => b.sequence ≤ a.sequence), hs] at hmem
      exact absurd hmem List.not_mem_nil
    | cons m ms =>
      refine ⟨m.turnId, ?_⟩
      rw [latestTurn, hs]
      rfl
  exact ⟨last, latestTurn_eq_some.mp hlast⟩

/-- **The backfill is faithful exactly when no chain with a node lists the empty text** under a
known field or under a name of `other` that stays a type. -/
theorem backfill_faithful_iff (py : Python) (db : LegacyDb)
    (hlegible : ∀ chain ∈ db.chains, ∃ v, decode py chain.resources = some v) :
    Faithful py db ↔ ∀ chain ∈ db.chains, (∃ n ∈ db.nodes, n.chainId = chain.chainId) →
      ∀ members, decode py chain.resources = some (.dict members) → ¬ ListsEmptyText members := by
  obtain ⟨t, hrun, hdone⟩ := backfillLegacyResources_ok py db hlegible
  constructor
  · rintro ⟨t', hrun', hfaithful⟩ chain hchain hnode members hmembers hempty
    obtain rfl : t = t' := Except.ok.inj (hrun.symm.trans hrun')
    obtain ⟨pair, hpair, hid⟩ := empty_id_iff.mpr hempty
    obtain ⟨turnId, hlast⟩ := exists_last hnode
    have htype : pair.1.length ≤ 100 := by
      have hgrammar := Bool.and_eq_true_iff.mp (isLegacyType_of_pair hpair)
      simpa using hgrammar.2
    have hmig : Migrates py db chain turnId pair := by
      refine ⟨⟨members, hmembers, hpair⟩, hlast, ?_, ?_⟩
      · rw [hid]
        decide
      · have hlen : (resourceKey pair).length = pair.1.length + 1 + pair.2.length := by
          rw [resourceKey, String.length_append, String.length_append]
          rfl
        rw [hlen, hid]
        show pair.1.length + 1 + 0 ≤ 512
        omega
    have hrow := (hdone.mem_resources _).mpr ⟨chain, hchain, turnId, pair, hmig, rfl⟩
    have hsplit := hfaithful.split _ hrow
    simp only [stateValues, Prod.mk.eta] at hsplit
    exact (splitResourceKey_resourceKey hmig.grammar hmig.idLimit).mp hsplit hid
  · intro hnone
    refine ⟨t, hrun, hdone.faithful hlegible fun chain hchain turnId pair hmig hid => ?_⟩
    obtain ⟨members, hmembers, hpair⟩ := hmig.stands
    obtain ⟨n, hn, hid', -⟩ := hmig.last
    exact hnone chain hchain ⟨n, hn, hid'⟩ members hmembers (empty_id_iff.mp ⟨pair, hpair, hid⟩)

end Faithfulness

/-! ## A chain with one document -/

/-- `str` of a number is its literal; a list or an object prints with its brackets. -/
def samplePrint : LegacyJson → String
  | .scalar literal => if literal = "" then "None" else literal
  | .text s => s
  | .list _ => "[]"
  | .dict _ => "\x7b\x7d"

theorem text_of_samplePrint_empty (v : LegacyJson) (h : samplePrint v = "") : v = .text "" := by
  cases v with
  | scalar literal =>
    change (if literal = "" then "None" else literal) = "" at h
    by_cases hl : literal = ""
    · rw [if_pos hl] at h
      exact absurd h (by decide)
    · rw [if_neg hl] at h
      exact absurd h hl
  | text s => exact congrArg LegacyJson.text h
  | list _ => exact absurd (show "[]" = "" from h) (by decide)
  | dict _ => exact absurd (show "\x7b\x7d" = "" from h) (by decide)

def samplePython : Python where
  str := samplePrint
  loads _ := none
  str_text _ := rfl
  text_of_str_empty := text_of_samplePrint_empty

/-- A chain whose resources list one document, and one task by its number under an odd name. -/
def sampleChain (document : String) : LegacyChain where
  chainId := 1
  resources := .dict [("document_ids", .list [.text document]),
    ("other", .dict [("Task No", .list [.scalar "7"])])]
  lastActiveAt := 5
  resourceVersion := 0

def sampleDb (document : String) : LegacyDb where
  chains := .single (sampleChain document)
  nodes := .single ⟨1, 3, 0⟩

theorem legible_sampleDb (document : String) :
    ∀ chain ∈ (sampleDb document).chains, ∃ v, decode samplePython chain.resources = some v := by
  intro chain hchain
  obtain rfl := List.mem_singleton.mp hchain
  exact ⟨_, rfl⟩

theorem backfill_faithful_sample : Faithful samplePython (sampleDb "12") := by
  refine (backfill_faithful_iff samplePython (sampleDb "12") (legible_sampleDb "12")).mpr
    fun chain hchain _ members hmembers => ?_
  obtain rfl := List.mem_singleton.mp hchain
  obtain rfl := LegacyJson.dict.inj (Option.some.inj hmembers)
  rintro (⟨f, hf, hempty⟩ | ⟨m, hm, hname, -⟩)
  · simp only [fieldTypes, List.mem_cons, List.not_mem_nil, or_false] at hf
    rcases hf with rfl | rfl | rfl | rfl | rfl | rfl <;> simp [items, List.lookup_cons] at hempty
  · obtain rfl := List.mem_singleton.mp hm
    revert hname
    decide

/-- A document without an id gets the key `document:`, which `split_resource_key` rejects. -/
theorem empty_id_migrated : ¬ Faithful samplePython (sampleDb "") := by
  rintro ⟨t, hrun, h⟩
  obtain ⟨t', hrun', hdone⟩ := backfillLegacyResources_ok samplePython (sampleDb "")
    (legible_sampleDb "")
  obtain rfl : t = t' := Except.ok.inj (hrun.symm.trans hrun')
  have hmig : Migrates samplePython (sampleDb "") (sampleChain "") 3
      ("document", samplePython.str (.text "")) := by
    refine ⟨⟨_, rfl, ?_⟩, ⟨⟨1, 3, 0⟩, List.mem_singleton.mpr rfl, rfl, rfl, fun m hm _ => ?_⟩,
      by decide, by decide⟩
    · have hknown : ("document_ids", "document") ∈ fieldTypes := by decide
      refine LegacyPair.field hknown ?_
      show LegacyJson.text "" ∈ [LegacyJson.text ""]
      exact List.mem_singleton.mpr rfl
    · rw [List.mem_singleton.mp hm]
  have hsplit := h.split _ ((hdone.mem_resources _).mpr
    ⟨_, List.mem_singleton.mpr rfl, 3, _, hmig, rfl⟩)
  revert hsplit
  decide

end DocFlow.Context.ResourceBackfill
