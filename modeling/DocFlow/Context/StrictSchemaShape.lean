import DocFlow.Context.StrictSchema

/-!
# What the adapter does to the shape of a schema

`Adapted` says what a strict schema has to be, position by position: a reference stands for its
definition, an object keeps the names of its properties, and what is no schema keeps its members.

The adapter drops a member by its name, wherever it stands.  So what comes out is the strict form
exactly of a `Clean` schema (`adapted_iff`): no map of names has a name that is also a keyword for
display (or `$defs`), and no data holds an object with such a member.
-/

namespace DocFlow.Context.StrictSchema

/-! ## Positions -/

/-- What stands at a place of a schema: a schema or a list of schemas, a map from names to schemas, or
data. -/
inductive Position
  | schema | names | data
deriving DecidableEq, Repr

def nameKeywords : List Str :=
  ["properties", "patternProperties", "dependentSchemas", "definitions", "$defs"].map key

def schemaKeywords : List Str :=
  ["items", "prefixItems", "additionalItems", "additionalProperties", "anyOf", "allOf", "oneOf",
    "not", "if", "then", "else", "contains", "propertyNames", "unevaluatedItems",
    "unevaluatedProperties", "contentSchema"].map key

def childOf (keyword : Str) : Position :=
  if keyword ∈ nameKeywords then .names
  else if keyword ∈ schemaKeywords then .schema
  else .data

/-- The grammar of JSON Schema. -/
inductive WellFormed : Position → Json → Prop
  | bool (b : Bool) : WellFormed .schema (.bool b)
  | object {members : Members} (h : ∀ m ∈ members, WellFormed (childOf m.1) m.2) :
      WellFormed .schema (.obj members)
  | list {items : List Json} (h : ∀ x ∈ items, WellFormed .schema x) :
      WellFormed .schema (.arr items)
  | names {members : Members} (h : ∀ m ∈ members, WellFormed .schema m.2) :
      WellFormed .names (.obj members)
  | data (v : Json) : WellFormed .data v

/-! ## What the adapter is for -/

/-- A keyword that is kept. -/
def Stays (keyword : Str) : Prop := keyword ∉ displayOnly ∧ keyword ≠ key "$defs"

/-- A keyword that an object schema gets anew. -/
def Overwritten (members : Members) (keyword : Str) : Prop :=
  isObjectType members = true ∧ (keyword = key "required" ∨ keyword = key "additionalProperties")

def propertyNames (members : Members) : List Str :=
  match members.lookup (key "properties") with
  | some (.obj properties) => properties.map Prod.fst
  | _ => []

/-- The keywords for display in a value, at any depth. -/
def displayKeywords : Json → List Str :=
  Json.collect fun members => (members.map Prod.fst).filter fun k => k ∈ displayOnly

/-- The local references in a value, at any depth. -/
def localRefs : Json → List Codes := Json.collect fun members => (localRef? members).toList

/-- `w` is the strict form of `v`. -/
inductive Adapted (definitions : Members) : Position → Json → Json → Prop
  | ref {members definition : Members} {name : Codes} {w : Json}
      (hname : localRef? members = some name)
      (hdefinition : definition? definitions name = some (.obj definition))
      (h : Adapted definitions .schema (.obj (merged definition members)) w) :
      Adapted definitions .schema (.obj members) w
  | object {members out : Members} (hname : localRef? members = none)
      (kept : ∀ k x, members.lookup k = some x → Stays k → (out.lookup k).isSome = true)
      (only : ∀ k, (out.lookup k).isSome = true →
        (Stays k ∧ (members.lookup k).isSome = true) ∨ Overwritten members k)
      (children : ∀ k x y, members.lookup k = some x → Stays k → ¬ Overwritten members k →
        out.lookup k = some y → Adapted definitions (childOf k) x y)
      (shape : isObjectType members = true → propertyNames out = propertyNames members ∧
        out.lookup (key "required") = some (.arr ((propertyNames members).map .str)) ∧
        out.lookup (key "additionalProperties") = some (.bool false)) :
      Adapted definitions .schema (.obj members) (.obj out)
  | bool (b : Bool) : Adapted definitions .schema (.bool b) (.bool b)
  | list {items out : List Json} (hlength : out.length = items.length)
      (children : ∀ (i : Nat) (x y : Json), items[i]? = some x → out[i]? = some y →
        Adapted definitions .schema x y) :
      Adapted definitions .schema (.arr items) (.arr out)
  | names {members out : Members} (hnames : out.map Prod.fst = members.map Prod.fst)
      (children : ∀ k x y, members.lookup k = some x → out.lookup k = some y →
        Adapted definitions .schema x y) :
      Adapted definitions .names (.obj members) (.obj out)
  | data {v w : Json} (h : displayKeywords w = displayKeywords v) : Adapted definitions .data v w

/-! ## The condition -/

/-- No name is taken for a keyword. -/
inductive Clean (definitions : Members) : Position → Json → Prop
  | ref {members definition : Members} {name : Codes} (hname : localRef? members = some name)
      (hdefinition : definition? definitions name = some (.obj definition))
      (h : Clean definitions .schema (.obj (merged definition members))) :
      Clean definitions .schema (.obj members)
  | object {members : Members} (hname : localRef? members = none)
      (children : ∀ k x, members.lookup k = some x → Stays k → ¬ Overwritten members k →
        Clean definitions (childOf k) x) :
      Clean definitions .schema (.obj members)
  | bool (b : Bool) : Clean definitions .schema (.bool b)
  | list {items : List Json} (children : ∀ x ∈ items, Clean definitions .schema x) :
      Clean definitions .schema (.arr items)
  | names {members : Members} (hnames : ∀ k ∈ members.map Prod.fst, Stays k)
      (children : ∀ k x, members.lookup k = some x → Clean definitions .schema x) :
      Clean definitions .names (.obj members)
  | data {v : Json} (h : displayKeywords v = []) : Clean definitions .data v

/-! ## Normalising -/

theorem normalize_arr (items : List Json) : normalizeStrictToolSchema (.arr items) =
    .arr (normalizeStrictToolSchema.normalizeItems items) := rfl

theorem normalize_obj (members : Members) : normalizeStrictToolSchema (.obj members) =
    .obj (strictMembers (normalizeStrictToolSchema.normalizeMembers members)) := rfl

theorem normalize_leaf {v : Json} (harr : ∀ items, v ≠ .arr items)
    (hobj : ∀ members, v ≠ .obj members) : normalizeStrictToolSchema v = v := by
  cases v with
  | arr items => exact absurd rfl (harr items)
  | obj members => exact absurd rfl (hobj members)
  | null | bool _ | int _ | float _ _ _ | special _ | str _ => rfl

theorem normalizeItems_eq (items : List Json) :
    normalizeStrictToolSchema.normalizeItems items = items.map normalizeStrictToolSchema := by
  induction items with
  | nil => rfl
  | cons v items ih => exact congrArg (normalizeStrictToolSchema v :: ·) ih

theorem normalizeMembers_cons (m : Str × Json) (members : Members) :
    normalizeStrictToolSchema.normalizeMembers (m :: members) =
      if m.1 ∈ displayOnly then normalizeStrictToolSchema.normalizeMembers members
      else (m.1, normalizeStrictToolSchema m.2) ::
        normalizeStrictToolSchema.normalizeMembers members := rfl

theorem normalizeMembers_eq (members : Members) :
    normalizeStrictToolSchema.normalizeMembers members =
      (members.filter fun m => decide (m.1 ∉ displayOnly)).map
        fun m => (m.1, normalizeStrictToolSchema m.2) := by
  induction members with
  | nil => rfl
  | cons m members ih =>
    rw [normalizeMembers_cons, ih, List.filter_cons]
    by_cases hk : m.1 ∈ displayOnly
    · simp [hk]
    · simp [hk]

theorem lookup_normalizeMembers (members : Members) (k : Str) :
    (normalizeStrictToolSchema.normalizeMembers members).lookup k =
      if k ∉ displayOnly then (members.lookup k).map normalizeStrictToolSchema else none := by
  rw [normalizeMembers_eq, Dict.lookup_map,
    Dict.lookup_filter members (fun k => decide (k ∉ displayOnly))]
  by_cases hk : k ∈ displayOnly
  · simp [hk]
  · simp [hk]

theorem normalize_eq_str {v : Json} {s : Str} :
    normalizeStrictToolSchema v = .str s ↔ v = .str s := by
  cases v with
  | arr items => simp [normalize_arr]
  | obj members => simp [normalize_obj]
  | null | bool _ | int _ | float _ _ _ | special _ | str _ =>
    rw [normalize_leaf (by simp) (by simp)]

theorem isObjectType_iff {members : Members} :
    isObjectType members = true ↔ members.lookup (key "type") = some (.str (key "object")) := by
  rw [isObjectType]
  cases members.lookup (key "type") with
  | none => simp
  | some v => cases v <;> simp

theorem lookup_strictMembers {normalized : Members} {k : Str}
    (hrequired : k ≠ key "required") (hadditional : k ≠ key "additionalProperties") :
    (strictMembers normalized).lookup k = normalized.lookup k := by
  unfold strictMembers
  split
  · rw [Dict.lookup_set, if_neg hadditional]
    split
    · rw [Dict.lookup_set, if_neg hrequired]
    · rfl
  · rfl

theorem strictMembers_of_not_object {normalized : Members} (h : isObjectType normalized = false) :
    strictMembers normalized = normalized := by
  rw [strictMembers, if_neg (by simp [h])]

theorem lookup_strictMembers_additional {normalized : Members}
    (h : isObjectType normalized = true) :
    (strictMembers normalized).lookup (key "additionalProperties") = some (.bool false) := by
  rw [strictMembers, if_pos h, Dict.lookup_set, if_pos rfl]

theorem lookup_strictMembers_required {normalized properties : Members}
    (h : isObjectType normalized = true)
    (hproperties : (normalized.lookup (key "properties")).getD (.obj []) = .obj properties) :
    (strictMembers normalized).lookup (key "required") =
      some (.arr ((properties.map Prod.fst).map .str)) := by
  have hne : key "required" ≠ key "additionalProperties" := by decide
  simp only [strictMembers, if_pos h, hproperties]
  rw [Dict.lookup_set, if_neg hne, Dict.lookup_set, if_pos rfl, List.map_map]
  rfl

theorem mem_strictMembers {normalized : Members} {m : Str × Json}
    (h : m ∈ strictMembers normalized) : m ∈ normalized ∨
      (∃ names : List Str, m.2 = .arr (names.map .str)) ∨ m.2 = .bool false := by
  unfold strictMembers at h
  split at h
  · rcases Dict.mem_set h with h | rfl
    · split at h
      · rcases Dict.mem_set h with h | rfl
        · exact .inl h
        · right
          left
          exact ⟨_, by rw [List.map_map]; rfl⟩
      · exact .inl h
    · exact .inr (.inr rfl)
  · exact .inl h

/-! ## Resolving -/

section Resolving

variable {definitions : Members}

/-- Members and what they are resolved to. -/
def ResolvedMembers (definitions : Members) (n : Nat) : Members → Members → Prop :=
  List.Forall₂ fun m r => r.1 = m.1 ∧ resolveLocalSchemaRefs definitions n m.2 = .ok r.2

theorem resolve_zero (v : Json) :
    resolveLocalSchemaRefs definitions 0 v = .error .recursionError := rfl

theorem resolve_succ_arr (n : Nat) (items : List Json) :
    resolveLocalSchemaRefs definitions (n + 1) (.arr items) =
      (items.mapM (resolveLocalSchemaRefs definitions n) >>= fun resolved =>
        pure (.arr resolved)) := rfl

/-- An object without a reference. -/
theorem resolve_succ_obj (n : Nat) {members : Members} (hname : localRef? members = none) :
    resolveLocalSchemaRefs definitions (n + 1) (.obj members) =
      ((members.filter fun m => m.1 ≠ key "$defs").mapM (fun m => do
        let item ← resolveLocalSchemaRefs definitions n m.2
        return (m.1, item)) >>= fun resolved => pure (.obj resolved)) := by
  rw [resolveLocalSchemaRefs, hname]

theorem resolve_arr {n : Nat} {items : List Json} {r : Json} :
    resolveLocalSchemaRefs definitions (n + 1) (.arr items) = .ok r ↔ ∃ resolved, r = .arr resolved ∧
      List.Forall₂ (fun x y => resolveLocalSchemaRefs definitions n x = .ok y) items resolved := by
  rw [resolve_succ_arr]
  cases hm : items.mapM (resolveLocalSchemaRefs definitions n) with
  | error e =>
    have hnone : ∀ resolved, ¬ List.Forall₂
        (fun x y => resolveLocalSchemaRefs definitions n x = .ok y) items resolved := by
      intro resolved h
      rw [mapM_eq_ok.mpr h] at hm
      cases hm
    simp [bind, Except.bind, hnone]
  | ok resolved =>
    simp only [bind, Except.bind, pure, Except.pure, Except.ok.injEq]
    constructor
    · rintro rfl
      exact ⟨resolved, rfl, mapM_eq_ok.mp hm⟩
    · rintro ⟨resolved', rfl, h⟩
      rw [Except.ok.inj (hm.symm.trans (mapM_eq_ok.mpr h))]

theorem resolve_obj {n : Nat} {members : Members} {r : Json} (hname : localRef? members = none) :
    resolveLocalSchemaRefs definitions (n + 1) (.obj members) = .ok r ↔ ∃ resolved,
      r = .obj resolved ∧ ResolvedMembers definitions n
        (members.filter fun m => m.1 ≠ key "$defs") resolved := by
  have hmember : ∀ m r : Str × Json, (resolveLocalSchemaRefs definitions n m.2 >>= fun item =>
      pure (m.1, item)) = Except.ok r ↔
        r.1 = m.1 ∧ resolveLocalSchemaRefs definitions n m.2 = .ok r.2 := by
    intro m r
    cases resolveLocalSchemaRefs definitions n m.2 with
    | error e => simp [bind, Except.bind]
    | ok item => simp [bind, Except.bind, pure, Except.pure, Prod.ext_iff, eq_comm]
  have hlist : ∀ resolved, ((members.filter fun m => m.1 ≠ key "$defs").mapM fun m => do
      let item ← resolveLocalSchemaRefs definitions n m.2
      return (m.1, item)) = Except.ok resolved ↔
        ResolvedMembers definitions n (members.filter fun m => m.1 ≠ key "$defs") resolved := by
    intro resolved
    rw [mapM_eq_ok, ResolvedMembers]
    simp only [hmember]
  rw [resolve_succ_obj n hname]
  cases hm : (members.filter fun m => m.1 ≠ key "$defs").mapM fun m => do
      let item ← resolveLocalSchemaRefs definitions n m.2
      return (m.1, item) with
  | error e =>
    have hnone : ∀ resolved, ¬ ResolvedMembers definitions n
        (members.filter fun m => m.1 ≠ key "$defs") resolved := by
      intro resolved h
      rw [(hlist resolved).mpr h] at hm
      cases hm
    constructor
    · intro h
      simp only [bind, Except.bind] at h
      cases h
    · rintro ⟨resolved, -, h⟩
      exact absurd h (hnone resolved)
  | ok resolved =>
    constructor
    · intro h
      simp only [bind, Except.bind, pure, Except.pure, Except.ok.injEq] at h
      exact ⟨resolved, h.symm, (hlist resolved).mp hm⟩
    · rintro ⟨resolved', rfl, h⟩
      simp only [bind, Except.bind, pure, Except.pure]
      rw [Except.ok.inj (hm.symm.trans ((hlist resolved').mpr h))]

theorem resolve_ref {n : Nat} {members : Members} {name : Codes} {r : Json}
    (hname : localRef? members = some name) :
    resolveLocalSchemaRefs definitions (n + 1) (.obj members) = .ok r ↔ ∃ definition,
      definition? definitions name = some (.obj definition) ∧
        resolveLocalSchemaRefs definitions n (.obj (merged definition members)) = .ok r := by
  rw [resolveLocalSchemaRefs, hname]
  cases hd : definition? definitions name with
  | none => simp [hd]
  | some v => cases v <;> simp [hd]

theorem resolve_leaf {n : Nat} {v : Json} (harr : ∀ items, v ≠ .arr items)
    (hobj : ∀ members, v ≠ .obj members) :
    resolveLocalSchemaRefs definitions (n + 1) v = .ok v := by
  cases v with
  | arr items => exact absurd rfl (harr items)
  | obj members => exact absurd rfl (hobj members)
  | null | bool _ | int _ | float _ _ _ | special _ | str _ => rfl

/-- An object becomes an object. -/
theorem exists_obj_of_resolve {n : Nat} {members : Members} {r : Json}
    (h : resolveLocalSchemaRefs definitions n (.obj members) = .ok r) : ∃ resolved, r = .obj resolved := by
  induction n generalizing members with
  | zero =>
    rw [resolve_zero] at h
    cases h
  | succ n ih =>
    cases hname : localRef? members with
    | none =>
      obtain ⟨resolved, rfl, -⟩ := (resolve_obj hname).mp h
      exact ⟨resolved, rfl⟩
    | some name =>
      obtain ⟨definition, -, h⟩ := (resolve_ref hname).mp h
      exact ih h

/-- Texts stay, and nothing else becomes one. -/
theorem resolve_eq_str {n : Nat} {v r : Json} {s : Str}
    (h : resolveLocalSchemaRefs definitions n v = .ok r) : r = .str s ↔ v = .str s := by
  cases n with
  | zero =>
    rw [resolve_zero] at h
    cases h
  | succ n =>
    cases v with
    | arr items =>
      obtain ⟨resolved, rfl, -⟩ := resolve_arr.mp h
      simp
    | obj members =>
      obtain ⟨resolved, rfl⟩ := exists_obj_of_resolve h
      simp
    | null | bool _ | int _ | float _ _ _ | special _ | str _ =>
      rw [resolve_leaf (by simp) (by simp)] at h
      rw [← Except.ok.inj h]

/-- What stands under a key, before and after. -/
theorem lookup_resolved {n : Nat} {members resolved : Members}
    (h : ResolvedMembers definitions n (members.filter fun m => m.1 ≠ key "$defs") resolved)
    (k : Str) : ((k = key "$defs" ∨ members.lookup k = none) ∧ resolved.lookup k = none) ∨
      (k ≠ key "$defs" ∧ ∃ x y, members.lookup k = some x ∧ resolved.lookup k = some y ∧
        resolveLocalSchemaRefs definitions n x = .ok y) := by
  have hfilter := Dict.lookup_filter members (fun k => decide (k ≠ key "$defs")) k
  rcases Dict.lookup_forall₂ (R := fun x y => resolveLocalSchemaRefs definitions n x = .ok y) h k
    with ⟨hnone, hr⟩ | ⟨x, y, hx, hy, hxy⟩
  · left
    refine ⟨?_, hr⟩
    rw [hfilter] at hnone
    by_cases hk : k = key "$defs"
    · exact .inl hk
    · exact .inr (by simpa [hk] using hnone)
  · right
    rw [hfilter] at hx
    by_cases hk : k = key "$defs"
    · simp [hk] at hx
    · exact ⟨hk, x, y, by simpa [hk] using hx, hy, hxy⟩

theorem localRef?_eq_some {members : Members} {name : Codes} :
    localRef? members = some name ↔ ∃ s : Str, members.lookup (key "$ref") = some (.str s) ∧
      refStart.isPrefixOf s.codes = true ∧ s.codes.drop refStart.length = name := by
  rw [localRef?]
  cases members.lookup (key "$ref") with
  | none => simp
  | some v =>
    cases v with
    | str s =>
      simp only [Option.some.injEq, Json.str.injEq, exists_eq_left']
      by_cases hp : refStart.isPrefixOf s.codes = true
      · rw [if_pos hp, Option.some.injEq]
        exact ⟨fun h => ⟨hp, h⟩, fun h => h.2⟩
      · rw [if_neg hp]
        refine ⟨fun h => ?_, fun h => absurd h.1 hp⟩
        cases h
    | null | bool _ | int _ | float _ _ _ | special _ | arr _ | obj _ => simp

/-- The references go by the texts under `$ref`. -/
theorem localRef?_none_of_str {members members' : Members} (h : localRef? members = none)
    (hstr : ∀ s, members'.lookup (key "$ref") = some (.str s) →
      members.lookup (key "$ref") = some (.str s)) : localRef? members' = none := by
  rw [Option.eq_none_iff_forall_ne_some]
  intro name hname
  obtain ⟨s, hs, hp, hd⟩ := localRef?_eq_some.mp hname
  rw [localRef?_eq_some.mpr ⟨s, hstr s hs, hp, hd⟩] at h
  cases h

/-- **No local reference is left.** -/
theorem localRefs_resolve {n : Nat} {v r : Json}
    (h : resolveLocalSchemaRefs definitions n v = .ok r) : localRefs r = [] := by
  induction n generalizing v r with
  | zero =>
    rw [resolve_zero] at h
    cases h
  | succ n ih =>
    cases v with
    | arr items =>
      obtain ⟨resolved, rfl, hitems⟩ := resolve_arr.mp h
      refine Json.collect_arr_eq_nil.mpr fun y hy => ?_
      obtain ⟨x, -, hxy⟩ := (exists_of_forall₂ hitems).2 y hy
      exact ih hxy
    | obj members =>
      cases hname : localRef? members with
      | some name =>
        obtain ⟨definition, -, h⟩ := (resolve_ref hname).mp h
        exact ih h
      | none =>
        obtain ⟨resolved, rfl, hmembers⟩ := (resolve_obj hname).mp h
        have hnone : localRef? resolved = none := by
          refine localRef?_none_of_str hname fun s hs => ?_
          rcases lookup_resolved hmembers (key "$ref") with ⟨-, hr⟩ | ⟨-, x, y, hx, hy, hxy⟩
          · rw [hr] at hs
            cases hs
          · rw [hy, Option.some.injEq, resolve_eq_str hxy] at hs
            rw [hx, hs]
        refine Json.collect_obj_eq_nil.mpr ⟨?_, fun r hr => ?_⟩
        · rw [hnone, Option.toList_none]
        · obtain ⟨m, -, -, hm⟩ := (exists_of_forall₂ hmembers).2 r hr
          exact ih hm
    | null | bool _ | int _ | float _ _ _ | special _ | str _ =>
      rw [resolve_leaf (by simp) (by simp)] at h
      rw [← Except.ok.inj h]
      exact Json.collect_leaf (by simp) (by simp)

end Resolving

/-! ## What is not left -/

section Collecting

variable {α : Type} {f : Members → List α}

theorem collect_normalize_leaf {v : Json} (harr : ∀ items, v ≠ .arr items)
    (hobj : ∀ members, v ≠ .obj members) : Json.collect f (normalizeStrictToolSchema v) = [] := by
  rw [normalize_leaf harr hobj]
  exact Json.collect_leaf harr hobj

theorem collect_normalize_arr {items : List Json}
    (h : ∀ x ∈ items, Json.collect f (normalizeStrictToolSchema x) = []) :
    Json.collect f (normalizeStrictToolSchema (.arr items)) = [] := by
  rw [normalize_arr, normalizeItems_eq, Json.collect_arr_eq_nil]
  exact List.forall_mem_map.mpr h

/-- The members that an object gets anew hold no objects. -/
theorem collect_normalize_obj {members : Members}
    (hhere : f (strictMembers (normalizeStrictToolSchema.normalizeMembers members)) = [])
    (h : ∀ m ∈ members, Json.collect f (normalizeStrictToolSchema m.2) = []) :
    Json.collect f (normalizeStrictToolSchema (.obj members)) = [] := by
  rw [normalize_obj, Json.collect_obj_eq_nil]
  refine ⟨hhere, fun m hm => ?_⟩
  rcases mem_strictMembers hm with hin | ⟨names, hnames⟩ | hfalse
  · rw [normalizeMembers_eq] at hin
    obtain ⟨m', hm', rfl⟩ := List.mem_map.mp hin
    exact h m' (List.mem_filter.mp hm').1
  · rw [hnames, Json.collect_arr_eq_nil]
    exact List.forall_mem_map.mpr fun s _ => Json.collect_leaf (by simp) (by simp)
  · rw [hfalse]
    exact Json.collect_leaf (by simp) (by simp)

end Collecting

/-- Normalising leaves no reference either. -/
theorem localRefs_normalize (v : Json) (h : localRefs v = []) :
    localRefs (normalizeStrictToolSchema v) = [] := by
  induction v using Json.induction with
  | leaf v harr hobj => exact collect_normalize_leaf harr hobj
  | arr items ih =>
    have hitems := Json.collect_arr_eq_nil.mp h
    exact collect_normalize_arr fun x hx => ih x hx (hitems x hx)
  | obj members ih =>
    obtain ⟨hhere, hmembers⟩ := Json.collect_obj_eq_nil.mp h
    refine collect_normalize_obj ?_ fun m hm => ih m hm (hmembers m hm)
    rw [Option.toList_eq_nil_iff] at hhere ⊢
    refine localRef?_none_of_str hhere fun s hs => ?_
    rw [lookup_strictMembers (by decide) (by decide), lookup_normalizeMembers,
      if_pos (by decide), Option.map_eq_some_iff] at hs
    obtain ⟨x, hx, hxs⟩ := hs
    rw [hx, normalize_eq_str.mp hxs]

/-- **No keyword for display is left**, at any depth. -/
theorem displayKeywords_normalize (v : Json) :
    displayKeywords (normalizeStrictToolSchema v) = [] := by
  induction v using Json.induction with
  | leaf v harr hobj => exact collect_normalize_leaf harr hobj
  | arr items ih => exact collect_normalize_arr ih
  | obj members ih =>
    refine collect_normalize_obj (List.filter_eq_nil_iff.mpr fun k hk hdisplay => ?_) ih
    have hdisplay : k ∈ displayOnly := of_decide_eq_true hdisplay
    have hkept : ∀ k ∈ displayOnly, k ≠ key "required" ∧ k ≠ key "additionalProperties" := by
      decide
    obtain ⟨y, hy⟩ := Dict.exists_lookup hk
    rw [lookup_strictMembers (hkept k hdisplay).1 (hkept k hdisplay).2, lookup_normalizeMembers,
      if_neg (not_not_intro hdisplay)] at hy
    cases hy

/-! ## Positions and the adapter -/

section Positions

variable {definitions : Members}

theorem isObjectType_normalize {n : Nat} {members resolved : Members}
    (h : ResolvedMembers definitions n (members.filter fun m => m.1 ≠ key "$defs") resolved) :
    isObjectType (normalizeStrictToolSchema.normalizeMembers resolved) = isObjectType members := by
  rw [Bool.eq_iff_iff, isObjectType_iff, isObjectType_iff, lookup_normalizeMembers,
    if_pos (by decide), Option.map_eq_some_iff]
  rcases lookup_resolved h (key "type") with ⟨hnone | hnone, hr⟩ | ⟨-, x, y, hx, hy, hxy⟩
  · exact absurd hnone (by decide)
  · simp [hnone, hr]
  · rw [hx, hy]
    simp only [Option.some.injEq, exists_eq_left']
    rw [normalize_eq_str, resolve_eq_str hxy]

/-- Making an object strict takes no member away. -/
theorem isSome_strictMembers {normalized : Members} {k : Str}
    (h : (normalized.lookup k).isSome = true) :
    ((strictMembers normalized).lookup k).isSome = true := by
  have hset : ∀ (d : Members) (k' : Str) (v : Json), (d.lookup k).isSome = true →
      ((Dict.set d k' v).lookup k).isSome = true := by
    intro d k' v hd
    rw [Dict.lookup_set]
    split
    · rfl
    · exact hd
  unfold strictMembers
  split
  · refine hset _ _ _ ?_
    split
    · exact hset _ _ _ h
    · exact h
  · exact h

/-- An object after both passes: a keyword that stays is there, with the strict form of its value. -/
theorem lookup_adapted {n : Nat} {members resolved : Members}
    (h : ResolvedMembers definitions n (members.filter fun m => m.1 ≠ key "$defs") resolved)
    {k : Str} {x : Json} (hx : members.lookup k = some x) (hstays : Stays k) :
    ∃ y, resolveLocalSchemaRefs definitions n x = .ok y ∧
      (normalizeStrictToolSchema.normalizeMembers resolved).lookup k =
        some (normalizeStrictToolSchema y) := by
  rcases lookup_resolved h k with ⟨hnone | hnone, -⟩ | ⟨-, x', y, hx', hy, hxy⟩
  · exact absurd hnone hstays.2
  · rw [hx] at hnone
    cases hnone
  · rw [hx, Option.some.injEq] at hx'
    subst hx'
    exact ⟨y, hxy, by rw [lookup_normalizeMembers, if_pos hstays.1, hy, Option.map_some]⟩

/-- No other keyword is there. -/
theorem stays_of_lookup_adapted {n : Nat} {members resolved : Members}
    (h : ResolvedMembers definitions n (members.filter fun m => m.1 ≠ key "$defs") resolved)
    {k : Str} {w : Json}
    (hw : (normalizeStrictToolSchema.normalizeMembers resolved).lookup k = some w) :
    Stays k ∧ (members.lookup k).isSome = true := by
  rw [lookup_normalizeMembers] at hw
  split at hw
  · rename_i hdisplay
    rcases lookup_resolved h k with ⟨-, hr⟩ | ⟨hdefs, x, y, hx, -, -⟩
    · rw [hr] at hw
      cases hw
    · exact ⟨⟨hdisplay, hdefs⟩, by rw [hx, Option.isSome_some]⟩
  · cases hw

/-- Outside the members that are set anew. -/
theorem lookup_strict_of_not_overwritten {n : Nat} {members resolved : Members}
    (h : ResolvedMembers definitions n (members.filter fun m => m.1 ≠ key "$defs") resolved)
    {k : Str} (hover : ¬ Overwritten members k) :
    (strictMembers (normalizeStrictToolSchema.normalizeMembers resolved)).lookup k =
      (normalizeStrictToolSchema.normalizeMembers resolved).lookup k := by
  cases hobject : isObjectType members with
  | false => rw [strictMembers_of_not_object ((isObjectType_normalize h).trans hobject)]
  | true =>
    rw [Overwritten, not_and, not_or] at hover
    exact lookup_strictMembers (hover hobject).1 (hover hobject).2

/-- The value under a key, as its place asks. -/
def Agrees (definitions : Members) (n : Nat) (position : Position) (x : Json) : Prop :=
  ∀ y, resolveLocalSchemaRefs definitions n x = .ok y →
    (Adapted definitions position x (normalizeStrictToolSchema y) ↔ Clean definitions position x)

/-- The properties are a map of names, and what is adapted has the same names. -/
theorem propertyNames_of_adapted {members : Members} {properties : Json} {w : Json}
    (hwf : WellFormed .names properties) (hlookup : members.lookup (key "properties") = some properties)
    (h : Adapted definitions .names properties w) :
    ∃ out, w = .obj out ∧ out.map Prod.fst = propertyNames members := by
  cases hwf with
  | names _ =>
    cases h with
    | names hnames _ => exact ⟨_, rfl, by rw [hnames, propertyNames, hlookup]⟩

theorem stays_properties : Stays (key "properties") := ⟨by decide, by decide⟩

theorem not_overwritten_properties (members : Members) :
    ¬ Overwritten members (key "properties") := fun hover => absurd hover.2 (by decide)

/-- An object whose properties are adapted lists their names. -/
theorem shape_of_properties {n : Nat} {members resolved : Members}
    (h : ResolvedMembers definitions n (members.filter fun m => m.1 ≠ key "$defs") resolved)
    (hwf : ∀ m ∈ members, WellFormed (childOf m.1) m.2)
    (hadapted : ∀ x, members.lookup (key "properties") = some x → ∀ y,
      resolveLocalSchemaRefs definitions n x = .ok y →
        Adapted definitions .names x (normalizeStrictToolSchema y))
    (hobject : isObjectType members = true) :
    propertyNames (strictMembers (normalizeStrictToolSchema.normalizeMembers resolved)) =
        propertyNames members ∧
      (strictMembers (normalizeStrictToolSchema.normalizeMembers resolved)).lookup
        (key "required") = some (.arr ((propertyNames members).map .str)) ∧
      (strictMembers (normalizeStrictToolSchema.normalizeMembers resolved)).lookup
        (key "additionalProperties") = some (.bool false) := by
  have hnormal := (isObjectType_normalize h).trans hobject
  have hmap : ∃ out, ((normalizeStrictToolSchema.normalizeMembers resolved).lookup
      (key "properties")).getD (.obj []) = .obj out ∧ out.map Prod.fst = propertyNames members ∧
      propertyNames (normalizeStrictToolSchema.normalizeMembers resolved) = out.map Prod.fst := by
    cases hx : members.lookup (key "properties") with
    | none =>
      have hnone : (normalizeStrictToolSchema.normalizeMembers resolved).lookup
          (key "properties") = none := by
        rw [Option.eq_none_iff_forall_ne_some]
        intro w hw
        have hsome := (stays_of_lookup_adapted h hw).2
        rw [hx] at hsome
        cases hsome
      refine ⟨[], ?_, ?_, ?_⟩
      · rw [hnone, Option.getD_none]
      · rw [propertyNames, hx, List.map_nil]
      · rw [propertyNames, hnone, List.map_nil]
    | some x =>
      obtain ⟨y, hxy, hout⟩ := lookup_adapted h hx stays_properties
      obtain ⟨out, hobj, hnames⟩ :=
        propertyNames_of_adapted (hwf _ (mem_of_lookup hx)) hx (hadapted x hx y hxy)
      rw [hobj] at hout
      refine ⟨out, ?_, hnames, ?_⟩
      · rw [hout, Option.getD_some]
      · rw [propertyNames, hout]
  obtain ⟨out, hget, hnames, hkept⟩ := hmap
  refine ⟨?_, ?_, lookup_strictMembers_additional hnormal⟩
  · rw [← hnames, ← hkept, propertyNames, propertyNames,
      lookup_strict_of_not_overwritten h (not_overwritten_properties members)]
  · rw [lookup_strictMembers_required hnormal hget, hnames]

theorem adapted_object_iff {n : Nat} {members resolved : Members}
    (hname : localRef? members = none)
    (h : ResolvedMembers definitions n (members.filter fun m => m.1 ≠ key "$defs") resolved)
    (hwf : ∀ m ∈ members, WellFormed (childOf m.1) m.2)
    (ih : ∀ m ∈ members, Agrees definitions n (childOf m.1) m.2) :
    Adapted definitions .schema (.obj members) (normalizeStrictToolSchema (.obj resolved)) ↔
      Clean definitions .schema (.obj members) := by
  have hlookup : ∀ {k x}, members.lookup k = some x → (k, x) ∈ members := mem_of_lookup
  constructor
  · intro hadapted
    cases hadapted with
    | ref hname' _ _ =>
      rw [hname] at hname'
      cases hname'
    | object _ kept only children shape =>
      refine .object hname fun k x hx hstays hover => ?_
      obtain ⟨y, hxy, hout⟩ := lookup_adapted h hx hstays
      refine (ih _ (hlookup hx) y hxy).mp (children k x _ hx hstays hover ?_)
      rw [lookup_strict_of_not_overwritten h hover, hout]
  · intro hclean
    cases hclean with
    | ref hname' _ _ =>
      rw [hname] at hname'
      cases hname'
    | object _ children =>
      rw [normalize_obj]
      refine .object hname ?_ ?_ ?_ ?_
      · intro k x hx hstays
        obtain ⟨y, -, hout⟩ := lookup_adapted h hx hstays
        exact isSome_strictMembers (by rw [hout, Option.isSome_some])
      · intro k hk
        by_cases hover : Overwritten members k
        · exact .inr hover
        · rw [lookup_strict_of_not_overwritten h hover] at hk
          obtain ⟨w, hw⟩ := Option.isSome_iff_exists.mp hk
          exact .inl (stays_of_lookup_adapted h hw)
      · intro k x w hx hstays hover hw
        obtain ⟨y, hxy, hout⟩ := lookup_adapted h hx hstays
        rw [lookup_strict_of_not_overwritten h hover, hout, Option.some.injEq] at hw
        rw [← hw]
        exact (ih _ (hlookup hx) y hxy).mpr (children k x hx hstays hover)
      · exact shape_of_properties h hwf fun x hx y hxy => (ih _ (hlookup hx) y hxy).mpr
          (children _ x hx stays_properties (not_overwritten_properties members))

/-- A map of names is no object schema and refers to nothing: a text is no schema. -/
theorem lookup_names_ne_str {members : Members} (hwf : ∀ m ∈ members, WellFormed .schema m.2)
    (k t : Str) : members.lookup k ≠ some (.str t) := by
  intro hk
  have hstr : WellFormed .schema (.str t) := hwf _ (mem_of_lookup hk)
  cases hstr

theorem localRef?_names {members : Members} (hwf : ∀ m ∈ members, WellFormed .schema m.2) :
    localRef? members = none := by
  rw [Option.eq_none_iff_forall_ne_some]
  intro name hname
  obtain ⟨s, hs, -, -⟩ := localRef?_eq_some.mp hname
  exact lookup_names_ne_str hwf _ s hs

theorem isObjectType_names {members : Members} (hwf : ∀ m ∈ members, WellFormed .schema m.2) :
    isObjectType members = false := by
  rw [Bool.eq_false_iff]
  intro hobject
  exact lookup_names_ne_str hwf _ _ (isObjectType_iff.mp hobject)

/-- The names that are left. -/
theorem names_adapted {n : Nat} {members resolved : Members}
    (h : ResolvedMembers definitions n (members.filter fun m => m.1 ≠ key "$defs") resolved) :
    (normalizeStrictToolSchema.normalizeMembers resolved).map Prod.fst =
      (members.map Prod.fst).filter fun k => decide (k ∉ displayOnly) && decide (k ≠ key "$defs") := by
  have hkeys : resolved.map Prod.fst =
      (members.map Prod.fst).filter fun k => decide (k ≠ key "$defs") := by
    rw [List.filter_map]
    change List.map Prod.fst resolved =
      (members.filter fun m => decide (m.1 ≠ key "$defs")).map Prod.fst
    generalize (members.filter fun m => decide (m.1 ≠ key "$defs")) = kept at h
    induction h with
    | nil => rfl
    | cons hr _ ih => rw [List.map_cons, List.map_cons, hr.1, ih]
  rw [normalizeMembers_eq, List.map_map]
  have hfst : (Prod.fst ∘ fun m : Str × Json => (m.1, normalizeStrictToolSchema m.2)) =
      Prod.fst := rfl
  have hfilter : (resolved.filter fun m => decide (m.1 ∉ displayOnly)).map Prod.fst =
      (resolved.map Prod.fst).filter fun k => decide (k ∉ displayOnly) := by
    rw [List.filter_map]
    rfl
  rw [hfst, hfilter, hkeys, List.filter_filter]

theorem names_adapted_iff {n : Nat} {members resolved : Members}
    (h : ResolvedMembers definitions n (members.filter fun m => m.1 ≠ key "$defs") resolved) :
    (normalizeStrictToolSchema.normalizeMembers resolved).map Prod.fst = members.map Prod.fst ↔
      ∀ k ∈ members.map Prod.fst, Stays k := by
  rw [names_adapted h, List.filter_eq_self]
  simp only [Bool.and_eq_true, decide_eq_true_eq, Stays]

theorem adapted_names_iff {n : Nat} {members resolved : Members}
    (h : ResolvedMembers definitions n (members.filter fun m => m.1 ≠ key "$defs") resolved)
    (hwf : ∀ m ∈ members, WellFormed .schema m.2)
    (ih : ∀ m ∈ members, Agrees definitions n .schema m.2) :
    Adapted definitions .names (.obj members) (normalizeStrictToolSchema (.obj resolved)) ↔
      Clean definitions .names (.obj members) := by
  have hstrict : strictMembers (normalizeStrictToolSchema.normalizeMembers resolved) =
      normalizeStrictToolSchema.normalizeMembers resolved :=
    strictMembers_of_not_object ((isObjectType_normalize h).trans (isObjectType_names hwf))
  have hstays : ∀ {k x}, (∀ k ∈ members.map Prod.fst, Stays k) → members.lookup k = some x →
      Stays k := fun hall hx => hall _ (List.mem_map.mpr ⟨_, mem_of_lookup hx, rfl⟩)
  rw [normalize_obj, hstrict]
  constructor
  · intro hadapted
    cases hadapted with
    | names hnames children =>
      have hall := (names_adapted_iff h).mp hnames
      refine .names hall fun k x hx => ?_
      obtain ⟨y, hxy, hout⟩ := lookup_adapted h hx (hstays hall hx)
      exact (ih _ (mem_of_lookup hx) y hxy).mp (children k x _ hx hout)
  · intro hclean
    cases hclean with
    | names hall children =>
      refine .names ((names_adapted_iff h).mpr hall) fun k x w hx hw => ?_
      obtain ⟨y, hxy, hout⟩ := lookup_adapted h hx (hstays hall hx)
      rw [hout, Option.some.injEq] at hw
      rw [← hw]
      exact (ih _ (mem_of_lookup hx) y hxy).mpr (children k x hx)

theorem adapted_list_iff {n : Nat} {items resolved : List Json}
    (h : List.Forall₂ (fun x y => resolveLocalSchemaRefs definitions n x = .ok y) items resolved)
    (ih : ∀ x ∈ items, Agrees definitions n .schema x) :
    Adapted definitions .schema (.arr items) (normalizeStrictToolSchema (.arr resolved)) ↔
      Clean definitions .schema (.arr items) := by
  rw [normalize_arr, normalizeItems_eq]
  obtain ⟨hlength, hget⟩ := List.forall₂_iff_get.mp h
  have hresolved : ∀ (i : Nat) x y, items[i]? = some x → resolved[i]? = some y →
      resolveLocalSchemaRefs definitions n x = .ok y := by
    intro i x y hx hy
    obtain ⟨hi, rfl⟩ := List.getElem?_eq_some_iff.mp hx
    obtain ⟨hi', rfl⟩ := List.getElem?_eq_some_iff.mp hy
    exact hget i hi hi'
  constructor
  · intro hadapted
    cases hadapted with
    | list _ children =>
      refine .list fun x hx => ?_
      obtain ⟨i, hi, rfl⟩ := List.getElem_of_mem hx
      have hx' := List.getElem?_eq_getElem hi
      have hy := List.getElem?_eq_getElem (hlength ▸ hi)
      refine (ih _ hx _ (hresolved i _ _ hx' hy)).mp (children i _ _ hx' ?_)
      rw [List.getElem?_map, hy, Option.map_some]
  · intro hclean
    cases hclean with
    | list children =>
      refine .list (by rw [List.length_map, hlength]) fun i x w hx hw => ?_
      rw [List.getElem?_map, Option.map_eq_some_iff] at hw
      obtain ⟨y, hy, rfl⟩ := hw
      have hmem := List.mem_of_getElem? hx
      exact (ih x hmem y (hresolved i x y hx hy)).mpr (children x hmem)

theorem adapted_data_iff (v w : Json) :
    Adapted definitions .data v (normalizeStrictToolSchema w) ↔ Clean definitions .data v := by
  constructor
  · intro hadapted
    cases hadapted with
    | data h => exact .data (h.symm.trans (displayKeywords_normalize w))
  · intro hclean
    cases hclean with
    | data h => exact .data ((displayKeywords_normalize w).trans h.symm)

/-- A reference stands for what it names. -/
theorem adapted_ref_iff {members definition : Members} {name : Codes} {w : Json}
    (hname : localRef? members = some name)
    (hdefinition : definition? definitions name = some (.obj definition)) :
    Adapted definitions .schema (.obj members) w ↔
      Adapted definitions .schema (.obj (merged definition members)) w := by
  refine ⟨fun h => ?_, .ref hname hdefinition⟩
  cases h with
  | ref hname' hdefinition' h =>
    rw [hname, Option.some.injEq] at hname'
    subst hname'
    rw [hdefinition, Option.some.injEq, Json.obj.injEq] at hdefinition'
    exact hdefinition' ▸ h
  | object hname' _ _ _ _ =>
    rw [hname] at hname'
    cases hname'

theorem clean_ref_iff {members definition : Members} {name : Codes}
    (hname : localRef? members = some name)
    (hdefinition : definition? definitions name = some (.obj definition)) :
    Clean definitions .schema (.obj members) ↔
      Clean definitions .schema (.obj (merged definition members)) := by
  refine ⟨fun h => ?_, .ref hname hdefinition⟩
  cases h with
  | ref hname' hdefinition' h =>
    rw [hname, Option.some.injEq] at hname'
    subst hname'
    rw [hdefinition, Option.some.injEq, Json.obj.injEq] at hdefinition'
    exact hdefinition' ▸ h
  | object hname' _ =>
    rw [hname] at hname'
    cases hname'

theorem wellFormed_merged {definition members : Members}
    (hdefinition : WellFormed .schema (.obj definition))
    (hmembers : ∀ m ∈ members, WellFormed (childOf m.1) m.2) :
    WellFormed .schema (.obj (merged definition members)) := by
  cases hdefinition with
  | object h =>
    refine .object fun m hm => ?_
    rcases Dict.mem_update hm with hm | hm
    · exact h m hm
    · exact hmembers m (List.mem_filter.mp hm).1

/-- **What comes out is the strict form exactly of a clean schema**, at every position. -/
theorem adapted_iff
    (hdefinitions : ∀ name v, definition? definitions name = some v → WellFormed .schema v)
    {n : Nat} {position : Position} {v : Json} (hwf : WellFormed position v) :
    Agrees definitions n position v := by
  induction n generalizing position v with
  | zero =>
    intro r h
    rw [resolve_zero] at h
    cases h
  | succ n ih =>
    intro r h
    cases hwf with
    | bool b =>
      rw [resolve_leaf (by simp) (by simp)] at h
      obtain rfl := Except.ok.inj h
      exact ⟨fun _ => .bool b, fun _ => .bool b⟩
    | @object members hmembers =>
      cases hname : localRef? members with
      | some name =>
        obtain ⟨definition, hdefinition, h⟩ := (resolve_ref hname).mp h
        rw [adapted_ref_iff hname hdefinition, clean_ref_iff hname hdefinition]
        exact ih (wellFormed_merged (hdefinitions _ _ hdefinition) hmembers) r h
      | none =>
        obtain ⟨resolved, rfl, hresolved⟩ := (resolve_obj hname).mp h
        exact adapted_object_iff hname hresolved hmembers fun m hm => ih (hmembers m hm)
    | list hitems =>
      obtain ⟨resolved, rfl, hresolved⟩ := resolve_arr.mp h
      exact adapted_list_iff hresolved fun x hx => ih (hitems x hx)
    | names hmembers =>
      obtain ⟨resolved, rfl, hresolved⟩ := (resolve_obj (localRef?_names hmembers)).mp h
      exact adapted_names_iff hresolved hmembers fun m hm => ih (hmembers m hm)
    | data v => exact adapted_data_iff v r

end Positions

end DocFlow.Context.StrictSchema
