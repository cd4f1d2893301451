import DocFlow.Context.StrictSchemaShape
import DocFlow.Lib.Links

/-!
# How the expansion of references ends

An object with a reference is replaced by a definition that may have references again.  When no chain
of definitions comes back, each value `Halts`, by the order of the definitions and, between two of
them, by the parts of the value (`halts_of_acyclic`).  Then it is resolved at every greater depth, if
no reference names a definition that is no object (`MeetsBoolean`).

Altogether a schema is adapted when it is clean and meets no such reference (`strictlyAdapted_iff`).
An object schema is one whose `type` is `object`, as the adapter has it, and a reference is any object
with a local `$ref`, also one that stands in the data of a keyword such as `const` or `enum`.
-/

namespace DocFlow.Context.StrictSchema

/-! ## References -/

/-- `raw_schema.get("$defs", {})`. -/
def definitionsOf : Json → Members
  | .obj members =>
    match (members.lookup (key "$defs")).getD (.obj []) with
    | .obj definitions => definitions
    | _ => []
  | _ => []

/-- The definition of `b` has a reference to `a`. -/
def Refers (definitions : Members) (a b : Codes) : Prop :=
  ∃ definition, definition? definitions b = some definition ∧ a ∈ localRefs definition

/-- The adapter ends, at every greater depth with the same result; no local reference is left in it,
and it is the strict form. -/
def StrictlyAdapted (definitions : Members) (root : Json) : Prop :=
  ∃ N r, (∀ n, N ≤ n → resolveLocalSchemaRefs definitions n root = .ok r) ∧
    localRefs (normalizeStrictToolSchema r) = [] ∧
      Adapted definitions .schema root (normalizeStrictToolSchema r)

/-- A reference that is met on the way names a definition that is no object: `true` or `false`. -/
inductive MeetsBoolean (definitions : Members) : Json → Prop
  | here {members : Members} {name : Codes} {v : Json} (hname : localRef? members = some name)
      (hdefinition : definition? definitions name = some v) (hv : ∀ definition, v ≠ .obj definition) :
      MeetsBoolean definitions (.obj members)
  | ref {members definition : Members} {name : Codes} (hname : localRef? members = some name)
      (hdefinition : definition? definitions name = some (.obj definition))
      (h : MeetsBoolean definitions (.obj (merged definition members))) :
      MeetsBoolean definitions (.obj members)
  | member {members : Members} {m : Str × Json} (hname : localRef? members = none)
      (hm : m ∈ members) (hk : m.1 ≠ key "$defs") (h : MeetsBoolean definitions m.2) :
      MeetsBoolean definitions (.obj members)
  | item {items : List Json} {x : Json} (hx : x ∈ items) (h : MeetsBoolean definitions x) :
      MeetsBoolean definitions (.arr items)

section Halting

variable {definitions : Members}

/-- The recursion on a value ends. -/
inductive Halts (definitions : Members) : Json → Prop
  | leaf {v : Json} (harr : ∀ items, v ≠ .arr items) (hobj : ∀ members, v ≠ .obj members) :
      Halts definitions v
  | arr {items : List Json} (h : ∀ x ∈ items, Halts definitions x) : Halts definitions (.arr items)
  | obj {members : Members} (hname : localRef? members = none)
      (h : ∀ m ∈ members, Halts definitions m.2) : Halts definitions (.obj members)
  | ref {members definition : Members} {name : Codes} (hname : localRef? members = some name)
      (hdefinition : definition? definitions name = some (.obj definition))
      (h : Halts definitions (.obj (merged definition members))) : Halts definitions (.obj members)
  | stops {members : Members} {name : Codes} {v : Json} (hname : localRef? members = some name)
      (hdefinition : definition? definitions name = some v) (hv : ∀ definition, v ≠ .obj definition) :
      Halts definitions (.obj members)

/-- An object that refers to `name` ends, when all that stands beside the reference does. -/
def Expands (definitions : Members) (name : Codes) : Prop :=
  ∀ members, localRef? members = some name →
    (∀ m ∈ members, m.1 ≠ key "$ref" → Halts definitions m.2) → Halts definitions (.obj members)

/-- A value ends when its references do: the induction is on the value. -/
theorem halts_of_expands (v : Json) (h : ∀ name ∈ localRefs v, Expands definitions name) :
    Halts definitions v := by
  induction v using Json.induction with
  | leaf v harr hobj => exact .leaf harr hobj
  | arr items ih =>
    exact .arr fun x hx => ih x hx fun name hname =>
      h name (Json.mem_collect_arr.mpr ⟨x, hx, hname⟩)
  | obj members ih =>
    have hmembers : ∀ m ∈ members, Halts definitions m.2 := fun m hm => ih m hm fun name hname =>
      h name (Json.mem_collect_obj.mpr (.inr ⟨m, hm, hname⟩))
    cases hname : localRef? members with
    | none => exact .obj hname hmembers
    | some name =>
      have hhere : name ∈ localRefs (.obj members) :=
        Json.mem_collect_obj.mpr (.inl (by rw [hname, Option.toList_some, List.mem_singleton]))
      exact h name hhere members hname fun m hm _ => hmembers m hm

/-- A definition keeps its own reference: the members beside the other one have none. -/
theorem localRef?_merged (definition members : Members) :
    localRef? (merged definition members) = localRef? definition := by
  have hlookup : ∀ (d e : Members), (∀ m ∈ e, m.1 ≠ key "$ref") →
      (Dict.update d e).lookup (key "$ref") = d.lookup (key "$ref") := by
    intro d e
    induction e generalizing d with
    | nil => exact fun _ => rfl
    | cons m e ih =>
      intro he
      obtain ⟨hm, he⟩ := List.forall_mem_cons.mp he
      rw [Dict.update, List.foldl_cons]
      exact (ih _ he).trans (by rw [Dict.lookup_set, if_neg (Ne.symm hm)])
  rw [localRef?, localRef?, merged, hlookup]
  intro m hm
  exact of_decide_eq_true (List.mem_filter.mp hm).2

/-- One definition, when all that it refers to end. -/
theorem expands_of_refers {name : Codes} (hdefined : (definition? definitions name).isSome = true)
    (ih : ∀ a, Refers definitions a name → Expands definitions a) : Expands definitions name := by
  intro members hname hbeside
  obtain ⟨v, hdefinition⟩ := Option.isSome_iff_exists.mp hdefined
  by_cases hv : ∃ definition, v = .obj definition
  · obtain ⟨definition, rfl⟩ := hv
    refine .ref hname hdefinition ?_
    have hparts : ∀ m ∈ definition, Halts definitions m.2 := fun m hm =>
      halts_of_expands m.2 fun a ha =>
        ih a ⟨_, hdefinition, Json.mem_collect_obj.mpr (.inr ⟨m, hm, ha⟩)⟩
    have hmembers : ∀ m ∈ merged definition members, Halts definitions m.2 := by
      intro m hm
      rcases Dict.mem_update hm with hm | hm
      · exact hparts m hm
      · obtain ⟨hm, hk⟩ := List.mem_filter.mp hm
        exact hbeside m hm (of_decide_eq_true hk)
    cases hnext : localRef? (merged definition members) with
    | none => exact .obj hnext hmembers
    | some a =>
      refine ih a ⟨_, hdefinition, ?_⟩ _ hnext fun m hm _ => hmembers m hm
      rw [localRef?_merged] at hnext
      exact Json.mem_collect_obj.mpr (.inl (by rw [hnext, Option.toList_some, List.mem_singleton]))
  · exact .stops hname hdefinition (not_exists.mp hv)

theorem mem_of_definition? {name : Codes} {v : Json}
    (h : definition? definitions name = some v) :
    ∃ m ∈ definitions, m.1.codes = name ∧ m.2 = v := by
  obtain ⟨m, hm, rfl⟩ := Option.map_eq_some_iff.mp h
  exact ⟨m, List.mem_of_find?_eq_some hm,
    of_decide_eq_true (List.find?_some (p := fun d : Str × Json => d.1.codes = name) hm), rfl⟩

/-- **The recursion ends on a value whose references are defined and never come back.** -/
theorem halts_of_acyclic (hacyclic : Acyclic (Refers definitions))
    (hclosed : ∀ name ∈ localRefs (.obj definitions), (definition? definitions name).isSome = true)
    (v : Json) (hv : ∀ name ∈ localRefs v, (definition? definitions name).isSome = true) :
    Halts definitions v := by
  have hwf : WellFounded (Refers definitions) := by
    refine hacyclic.wellFounded ((definitions.map fun m => m.1.codes).toFinset.finite_toSet) ?_
    rintro a b ⟨definition, hdefinition, -⟩
    obtain ⟨m, hm, rfl, -⟩ := mem_of_definition? hdefinition
    simpa using ⟨m.1, ⟨m.2, hm⟩, rfl⟩
  have hexpands : ∀ name, (definition? definitions name).isSome = true →
      Expands definitions name := by
    intro name
    induction name using hwf.induction with
    | _ name ih =>
      intro hdefined
      refine expands_of_refers hdefined fun a ha => ih a ha ?_
      obtain ⟨definition, hdefinition, hmem⟩ := ha
      obtain ⟨m, hm, -, rfl⟩ := mem_of_definition? hdefinition
      exact hclosed a (Json.mem_collect_obj.mpr (.inr ⟨m, hm, hmem⟩))
  exact halts_of_expands v fun name hname => hexpands name (hv name hname)

/-! ## Depth -/

/-- More depth does no harm. -/
theorem resolve_succ {n : Nat} {v r : Json} (h : resolveLocalSchemaRefs definitions n v = .ok r) :
    resolveLocalSchemaRefs definitions (n + 1) v = .ok r := by
  induction n generalizing v r with
  | zero =>
    rw [resolve_zero] at h
    cases h
  | succ n ih =>
    cases v with
    | arr items =>
      obtain ⟨resolved, rfl, hitems⟩ := resolve_arr.mp h
      exact resolve_arr.mpr ⟨resolved, rfl, hitems.imp fun _ _ => ih⟩
    | obj members =>
      cases hname : localRef? members with
      | some name =>
        obtain ⟨definition, hdefinition, h⟩ := (resolve_ref hname).mp h
        exact (resolve_ref hname).mpr ⟨definition, hdefinition, ih h⟩
      | none =>
        obtain ⟨resolved, rfl, hmembers⟩ := (resolve_obj hname).mp h
        exact (resolve_obj hname).mpr
          ⟨resolved, rfl, hmembers.imp fun _ _ hm => ⟨hm.1, ih hm.2⟩⟩
    | null | bool _ | int _ | float _ _ _ | special _ | str _ =>
      rw [resolve_leaf (by simp) (by simp)] at h ⊢
      exact h

theorem resolve_mono {n n' : Nat} {v r : Json}
    (h : resolveLocalSchemaRefs definitions n v = .ok r) (hle : n ≤ n') :
    resolveLocalSchemaRefs definitions n' v = .ok r := by
  induction hle with
  | refl => exact h
  | step _ ih => exact resolve_succ ih

/-- The parts of a value, each at some depth, are resolved at one depth. -/
theorem exists_depth {α β : Type} {R : Nat → α → β → Prop}
    (hmono : ∀ n n' a b, R n a b → n ≤ n' → R n' a b) {l : List α}
    (h : ∀ a ∈ l, ∃ n b, R n a b) : ∃ n bs, List.Forall₂ (R n) l bs := by
  induction l with
  | nil => exact ⟨0, [], .nil⟩
  | cons a l ih =>
    obtain ⟨hhead, htail⟩ := List.forall_mem_cons.mp h
    obtain ⟨n, b, hb⟩ := hhead
    obtain ⟨n', bs, hbs⟩ := ih htail
    refine ⟨max n n', b :: bs, .cons (hmono _ _ _ _ hb (le_max_left n n')) ?_⟩
    exact hbs.imp fun a b hab => hmono _ _ _ _ hab (le_max_right n n')

/-- **A value that halts is resolved**, unless it meets a definition that is no object. -/
theorem resolves_of_halts {v : Json} (h : Halts definitions v)
    (hmeets : ¬ MeetsBoolean definitions v) :
    ∃ n r, resolveLocalSchemaRefs definitions n v = .ok r := by
  induction h with
  | leaf harr hobj => exact ⟨1, _, resolve_leaf harr hobj⟩
  | arr h ih =>
    obtain ⟨n, resolved, hresolved⟩ := exists_depth
      (R := fun n x y => resolveLocalSchemaRefs definitions n x = .ok y)
      (fun _ _ _ _ hxy hle => resolve_mono hxy hle)
      fun x hx => ih x hx fun hm => hmeets (.item hx hm)
    exact ⟨n + 1, .arr resolved, resolve_arr.mpr ⟨resolved, rfl, hresolved⟩⟩
  | @obj members hname h ih =>
    have hmember : ∀ m ∈ members.filter fun m => m.1 ≠ key "$defs",
        ∃ n, ∃ r : Str × Json, r.1 = m.1 ∧ resolveLocalSchemaRefs definitions n m.2 = .ok r.2 := by
      intro m hm
      obtain ⟨hm, hk⟩ := List.mem_filter.mp hm
      obtain ⟨n, r, hr⟩ := ih m hm fun hmeet =>
        hmeets (.member hname hm (of_decide_eq_true hk) hmeet)
      exact ⟨n, (m.1, r), rfl, hr⟩
    obtain ⟨n, resolved, hresolved⟩ := exists_depth
      (R := fun n (m r : Str × Json) => r.1 = m.1 ∧
        resolveLocalSchemaRefs definitions n m.2 = .ok r.2)
      (fun _ _ _ _ hmr hle => ⟨hmr.1, resolve_mono hmr.2 hle⟩) hmember
    exact ⟨n + 1, .obj resolved, (resolve_obj hname).mpr ⟨resolved, rfl, hresolved⟩⟩
  | ref hname hdefinition _ ih =>
    obtain ⟨n, r, hr⟩ := ih fun hmeet => hmeets (.ref hname hdefinition hmeet)
    exact ⟨n + 1, r, (resolve_ref hname).mpr ⟨_, hdefinition, hr⟩⟩
  | stops hname hdefinition hv => exact absurd (.here hname hdefinition hv) hmeets

/-- `deepcopy(True).update(..)` raises. -/
theorem not_meetsBoolean_of_resolve {n : Nat} {v r : Json}
    (h : resolveLocalSchemaRefs definitions n v = .ok r) : ¬ MeetsBoolean definitions v := by
  induction n generalizing v r with
  | zero =>
    rw [resolve_zero] at h
    cases h
  | succ n ih =>
    intro hmeets
    cases hmeets with
    | here hname hdefinition hv =>
      obtain ⟨definition, hdefinition', -⟩ := (resolve_ref hname).mp h
      rw [hdefinition, Option.some.injEq] at hdefinition'
      exact hv definition hdefinition'
    | ref hname hdefinition hmeet =>
      obtain ⟨definition, hdefinition', h⟩ := (resolve_ref hname).mp h
      rw [hdefinition, Option.some.injEq, Json.obj.injEq] at hdefinition'
      subst hdefinition'
      exact ih h hmeet
    | @member members m hname hm hk hmeet =>
      obtain ⟨resolved, -, hmembers⟩ := (resolve_obj hname).mp h
      have hin : m ∈ members.filter fun m => m.1 ≠ key "$defs" :=
        List.mem_filter.mpr ⟨hm, decide_eq_true hk⟩
      obtain ⟨r, -, -, hr⟩ := (exists_of_forall₂ hmembers).1 m hin
      exact ih hr hmeet
    | item hx hmeet =>
      obtain ⟨resolved, -, hitems⟩ := resolve_arr.mp h
      obtain ⟨y, -, hy⟩ := (exists_of_forall₂ hitems).1 _ hx
      exact ih hy hmeet

end Halting

/-! ## The adapter -/

theorem wellFormed_definitions {root : Json} (hwf : WellFormed .schema root) (name : Codes)
    (v : Json) (h : definition? (definitionsOf root) name = some v) : WellFormed .schema v := by
  obtain ⟨m, hm, -, rfl⟩ := mem_of_definition? h
  cases hwf with
  | bool b => cases hm
  | list _ => cases hm
  | @object members hmembers =>
    rw [definitionsOf] at hm
    cases hx : members.lookup (key "$defs") with
    | none =>
      rw [hx] at hm
      cases hm
    | some x =>
      rw [hx] at hm
      have hnames : WellFormed .names x := hmembers _ (mem_of_lookup hx)
      cases hnames with
      | names h => exact h m hm

theorem localRefs_definitions {root : Json} {name : Codes}
    (h : name ∈ localRefs (.obj (definitionsOf root))) (hwf : WellFormed .schema root) :
    name ∈ localRefs root := by
  cases hwf with
  | bool b => cases h
  | list _ => cases h
  | @object members hmembers =>
    rw [definitionsOf] at h
    cases hx : members.lookup (key "$defs") with
    | none =>
      rw [hx] at h
      cases h
    | some x =>
      rw [hx] at h
      have hnames : WellFormed .names x := hmembers _ (mem_of_lookup hx)
      cases hnames with
      | names _ => exact Json.mem_collect_obj.mpr (.inr ⟨_, mem_of_lookup hx, h⟩)

/-- **The adapter keeps the shape of a schema exactly when no name is taken for a keyword and no
reference stands for a boolean.** -/
theorem strictlyAdapted_iff (root : Json) (hwf : WellFormed .schema root)
    (hdefined : ∀ name ∈ localRefs root, (definition? (definitionsOf root) name).isSome = true)
    (hacyclic : Acyclic (Refers (definitionsOf root))) :
    StrictlyAdapted (definitionsOf root) root ↔
      Clean (definitionsOf root) .schema root ∧ ¬ MeetsBoolean (definitionsOf root) root := by
  constructor
  · rintro ⟨N, r, hr, -, hadapted⟩
    exact ⟨(adapted_iff (wellFormed_definitions hwf) hwf r (hr N le_rfl)).mp hadapted,
      not_meetsBoolean_of_resolve (hr N le_rfl)⟩
  · rintro ⟨hclean, hmeets⟩
    have hhalts := halts_of_acyclic hacyclic
      (fun name hname => hdefined name (localRefs_definitions hname hwf)) root hdefined
    obtain ⟨N, r, hr⟩ := resolves_of_halts hhalts hmeets
    refine ⟨N, r, fun n hle => resolve_mono hr hle, ?_, ?_⟩
    · exact localRefs_normalize r (localRefs_resolve hr)
    · exact (adapted_iff (wellFormed_definitions hwf) hwf r hr).mpr hclean

/-! ## Two schemas -/

/-- A definition that has no references, under its own title. -/
def itemDefinition : Json :=
  .obj [(key "title", .str (key "Item")), (key "type", .str (key "object")),
    (key "properties", .obj [(key "id", .obj [(key "type", .str (key "string"))])])]

def itemSchema : Json :=
  .obj [(key "type", .str (key "object")),
    (key "properties", .obj [(key "item", .obj [(key "$ref", .str (key "#/$defs/Item"))])]),
    (key "$defs", .obj [(key "Item", itemDefinition)])]

theorem wellFormed_itemSchema : WellFormed .schema itemSchema := by
  have hstring : WellFormed .schema (.obj [(key "type", .str (key "string"))]) :=
    .object (List.forall_mem_singleton.mpr (.data _))
  have hproperties : WellFormed .names
      (.obj [(key "id", .obj [(key "type", .str (key "string"))])]) :=
    .names (List.forall_mem_singleton.mpr hstring)
  have hdefinition : WellFormed .schema itemDefinition :=
    .object (List.forall_mem_cons.mpr ⟨.data _, List.forall_mem_cons.mpr
      ⟨.data _, List.forall_mem_singleton.mpr hproperties⟩⟩)
  have hitem : WellFormed .schema (.obj [(key "$ref", .str (key "#/$defs/Item"))]) :=
    .object (List.forall_mem_singleton.mpr (.data _))
  exact .object (List.forall_mem_cons.mpr ⟨.data _, List.forall_mem_cons.mpr
    ⟨.names (List.forall_mem_singleton.mpr hitem),
      List.forall_mem_singleton.mpr (.names (List.forall_mem_singleton.mpr hdefinition))⟩⟩)

theorem acyclic_itemSchema : Acyclic (Refers (definitionsOf itemSchema)) := by
  refine Acyclic.of_empty ?_
  rintro a b ⟨definition, hdefinition, hmem⟩
  obtain ⟨m, hm, -, rfl⟩ := mem_of_definition? hdefinition
  have hm : m ∈ [(key "Item", itemDefinition)] := hm
  rw [List.mem_singleton] at hm
  subst hm
  have hnil : localRefs itemDefinition = [] := by rfl
  rw [hnil] at hmem
  cases hmem

theorem clean_itemSchema : Clean (definitionsOf itemSchema) .schema itemSchema := by
  have hstring : Clean (definitionsOf itemSchema) .schema
      (.obj [(key "type", .str (key "string"))]) := by
    refine .object (by rfl) fun k x hx _ _ => ?_
    cases List.mem_singleton.mp (mem_of_lookup hx)
    exact .data (by rfl)
  have hproperties : Clean (definitionsOf itemSchema) .names
      (.obj [(key "id", .obj [(key "type", .str (key "string"))])]) := by
    refine .names (List.forall_mem_singleton.mpr (by unfold Stays; decide)) fun k x hx => ?_
    cases List.mem_singleton.mp (mem_of_lookup hx)
    exact hstring
  -- the reference is replaced by its definition, whose title goes
  have hitem : Clean (definitionsOf itemSchema) .schema
      (.obj [(key "$ref", .str (key "#/$defs/Item"))]) := by
    have hname : localRef? [(key "$ref", .str (key "#/$defs/Item"))] = some (key "Item").codes := by rfl
    refine .ref hname (by rfl) (.object (by rfl) fun k x hx hstays _ => ?_)
    have hmem : (k, x) ∈ [(key "title", .str (key "Item")), (key "type", .str (key "object")),
        (key "properties", .obj [(key "id", .obj [(key "type", .str (key "string"))])])] :=
      mem_of_lookup hx
    simp only [List.mem_cons, List.not_mem_nil, or_false] at hmem
    obtain heq | heq | heq := hmem
    · cases heq
      exact absurd (by decide) hstays.1
    · cases heq
      exact .data (by rfl)
    · cases heq
      exact hproperties
  refine .object (by rfl) fun k x hx hstays _ => ?_
  have hmem := mem_of_lookup hx
  simp only [List.mem_cons, List.not_mem_nil, or_false] at hmem
  obtain heq | heq | heq := hmem
  · cases heq
    exact .data (by rfl)
  · cases heq
    refine .names (List.forall_mem_singleton.mpr (by unfold Stays; decide)) fun k x hx => ?_
    cases List.mem_singleton.mp (mem_of_lookup hx)
    exact hitem
  · cases heq
    exact absurd rfl hstays.2

theorem strictlyAdapted_itemSchema : StrictlyAdapted (definitionsOf itemSchema) itemSchema := by
  have hiff := strictlyAdapted_iff itemSchema wellFormed_itemSchema (by decide) acyclic_itemSchema
  have hresolved : ∃ r, resolveLocalSchemaRefs (definitionsOf itemSchema) 8 itemSchema = .ok r :=
    ⟨_, rfl⟩
  obtain ⟨r, hr⟩ := hresolved
  exact hiff.mpr ⟨clean_itemSchema, not_meetsBoolean_of_resolve hr⟩

/-- A property with the name `title`. -/
def titledSchema : Json :=
  .obj [(key "type", .str (key "object")),
    (key "properties", .obj [(key "title", .obj [(key "type", .str (key "string"))])])]

/-- The property is dropped. -/
theorem titledSchema_not_adapted : WellFormed .schema titledSchema ∧ localRefs titledSchema = [] ∧
    Acyclic (Refers (definitionsOf titledSchema)) ∧
      ¬ StrictlyAdapted (definitionsOf titledSchema) titledSchema := by
  have hstring : WellFormed .schema (.obj [(key "type", .str (key "string"))]) :=
    .object (List.forall_mem_singleton.mpr (.data _))
  refine ⟨?_, by rfl, ?_, ?_⟩
  · exact .object (List.forall_mem_cons.mpr ⟨.data _,
      List.forall_mem_singleton.mpr (.names (List.forall_mem_singleton.mpr hstring))⟩)
  · refine Acyclic.of_empty ?_
    rintro a b ⟨definition, hdefinition, -⟩
    obtain ⟨m, hm, -⟩ := mem_of_definition? hdefinition
    cases hm
  · rintro ⟨N, r, hr, -, hadapted⟩
    have hresolved : resolveLocalSchemaRefs (definitionsOf titledSchema) (N + 5) titledSchema =
        .ok titledSchema := resolve_mono (n := 5) (by rfl) (by omega)
    rw [hr _ (by omega)] at hresolved
    rw [Except.ok.inj hresolved, titledSchema] at hadapted
    cases hadapted with
    | ref hname _ _ =>
      have hnone : localRef? [(key "type", .str (key "object")), (key "properties",
          .obj [(key "title", .obj [(key "type", .str (key "string"))])])] = none := by rfl
      rw [hnone] at hname
      cases hname
    | object _ _ _ _ shape =>
      obtain ⟨hnames, -⟩ := shape (by decide)
      revert hnames
      decide

end DocFlow.Context.StrictSchema
