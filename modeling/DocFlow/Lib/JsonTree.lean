import DocFlow.Lib.Json
import DocFlow.Lib.Listing

/-!
# Dictionaries and values in depth

A dictionary is a list of pairs, and the first pair with a key is the one that is found.  `set` is
`d[k] = v` and `update` is `d.update(e)`: a key keeps its place.

A value is walked through with `Json.induction`, and `Json.collect` gathers what is found in its
objects, at any depth.
-/

namespace DocFlow

/-! ## Dictionaries -/

namespace Dict

variable {κ β γ : Type} [DecidableEq κ]

def set (d : List (κ × β)) (k : κ) (v : β) : List (κ × β) :=
  if k ∈ d.map Prod.fst then d.map fun m => if m.1 = k then (k, v) else m else d ++ [(k, v)]

def update (d e : List (κ × β)) : List (κ × β) := e.foldl (fun d m => set d m.1 m.2) d

theorem mem_set {d : List (κ × β)} {k : κ} {v : β} {m : κ × β} (h : m ∈ set d k v) :
    m ∈ d ∨ m = (k, v) := by
  unfold set at h
  split at h
  · obtain ⟨n, hn, rfl⟩ := List.mem_map.mp h
    by_cases hk : n.1 = k
    · right
      rw [if_pos hk]
    · left
      rwa [if_neg hk]
  · rcases List.mem_append.mp h with h | h
    · exact .inl h
    · exact .inr (List.mem_singleton.mp h)

theorem mem_update {d e : List (κ × β)} {m : κ × β} (h : m ∈ update d e) : m ∈ d ∨ m ∈ e := by
  induction e generalizing d with
  | nil => exact .inl h
  | cons n e ih =>
    rcases ih h with h | h
    · rcases mem_set h with h | rfl
      · exact .inl h
      · exact .inr List.mem_cons_self
    · exact .inr (List.mem_cons_of_mem _ h)

theorem lookup_cons_pair (m : κ × β) (d : List (κ × β)) (k : κ) :
    (m :: d).lookup k = if k = m.1 then some m.2 else d.lookup k := by
  rw [List.lookup_cons]
  by_cases hk : k = m.1
  · simp [hk]
  · rw [if_neg hk, beq_false_of_ne hk]

theorem lookup_map_set (d : List (κ × β)) (k : κ) (v : β) (k' : κ) :
    (d.map fun m => if m.1 = k then (k, v) else m).lookup k' =
      if k' = k ∧ k ∈ d.map Prod.fst then some v else d.lookup k' := by
  induction d with
  | nil => simp
  | cons m d ih =>
    rw [List.map_cons, lookup_cons_pair, lookup_cons_pair, ih]
    by_cases hm : m.1 = k
    · by_cases hk : k' = k
      · simp [hm, hk]
      · simp [hm, hk]
    · have hmem : k ∈ (m :: d).map Prod.fst ↔ k ∈ d.map Prod.fst := by
        rw [List.map_cons, List.mem_cons]
        exact or_iff_right (Ne.symm hm)
      by_cases hk : k' = m.1
      · simp [hm, hk]
      · rw [if_neg hm, if_neg hk, if_neg hk]
        simp only [hmem]

theorem lookup_append_of_not_mem {d : List (κ × β)} {k : κ} (h : k ∉ d.map Prod.fst) (v : β)
    (k' : κ) : (d ++ [(k, v)]).lookup k' = if k' = k then some v else d.lookup k' := by
  induction d with
  | nil => rw [List.nil_append, lookup_cons_pair]
  | cons m d ih =>
    rw [List.map_cons, List.mem_cons, not_or] at h
    rw [List.cons_append, lookup_cons_pair, lookup_cons_pair, ih h.2]
    by_cases hk : k' = m.1
    · have hne : k' ≠ k := fun hkk => h.1 (hkk.symm.trans hk)
      rw [if_pos hk, if_neg hne, if_pos hk]
    · rw [if_neg hk, if_neg hk]

theorem lookup_set (d : List (κ × β)) (k : κ) (v : β) (k' : κ) :
    (set d k v).lookup k' = if k' = k then some v else d.lookup k' := by
  unfold set
  by_cases hin : k ∈ d.map Prod.fst
  · rw [if_pos hin, lookup_map_set]
    simp only [hin, and_true]
  · rw [if_neg hin, lookup_append_of_not_mem hin]

theorem lookup_filter (d : List (κ × β)) (p : κ → Bool) (k : κ) :
    (d.filter fun m => p m.1).lookup k = if p k = true then d.lookup k else none := by
  induction d with
  | nil => simp
  | cons m d ih =>
    rw [List.filter_cons, lookup_cons_pair]
    by_cases hp : p m.1 = true
    · rw [if_pos hp, lookup_cons_pair, ih]
      by_cases hk : k = m.1
      · simp [hk, hp]
      · simp [hk]
    · rw [if_neg hp, ih]
      by_cases hk : k = m.1
      · simp [hk, hp]
      · simp [hk]

theorem lookup_map (d : List (κ × β)) (f : β → γ) (k : κ) :
    (d.map fun m => (m.1, f m.2)).lookup k = (d.lookup k).map f := by
  induction d with
  | nil => rfl
  | cons m d ih =>
    rw [List.map_cons, lookup_cons_pair, lookup_cons_pair, ih]
    by_cases hk : k = m.1
    · simp [hk]
    · simp [hk]

/-- Related dictionaries have the same keys, and related values under them. -/
theorem lookup_forall₂ {R : β → γ → Prop} {d : List (κ × β)} {e : List (κ × γ)}
    (h : List.Forall₂ (fun m n => n.1 = m.1 ∧ R m.2 n.2) d e) (k : κ) :
    (d.lookup k = none ∧ e.lookup k = none) ∨
      ∃ x y, d.lookup k = some x ∧ e.lookup k = some y ∧ R x y := by
  induction h with
  | nil => exact .inl ⟨rfl, rfl⟩
  | cons hr _ ih =>
    rw [lookup_cons_pair, lookup_cons_pair, hr.1]
    split
    · exact .inr ⟨_, _, rfl, rfl, hr.2⟩
    · exact ih

theorem exists_lookup {d : List (κ × β)} {k : κ} (h : k ∈ d.map Prod.fst) :
    ∃ v, d.lookup k = some v := by
  cases hk : d.lookup k with
  | some v => exact ⟨v, rfl⟩
  | none =>
    obtain ⟨m, hm, rfl⟩ := List.mem_map.mp h
    exact absurd (List.lookup_eq_none_iff.mp hk m hm) (by simp)

end Dict

/-! ## Values in depth -/

namespace Json

section Induction

variable {P : Json → Prop}

mutual

/-- A property of every value, from its parts. -/
theorem induction (leaf : ∀ v, (∀ items, v ≠ .arr items) → (∀ members, v ≠ .obj members) → P v)
    (arr : ∀ items, (∀ x ∈ items, P x) → P (.arr items))
    (obj : ∀ members, (∀ m ∈ members, P m.2) → P (.obj members)) (v : Json) : P v := by
  match v with
  | .arr items => exact arr items (inductionItems leaf arr obj items)
  | .obj members => exact obj members (inductionMembers leaf arr obj members)
  | .null => exact leaf _ (by simp) (by simp)
  | .bool _ => exact leaf _ (by simp) (by simp)
  | .int _ => exact leaf _ (by simp) (by simp)
  | .float _ _ _ => exact leaf _ (by simp) (by simp)
  | .special _ => exact leaf _ (by simp) (by simp)
  | .str _ => exact leaf _ (by simp) (by simp)

theorem inductionItems
    (leaf : ∀ v, (∀ items, v ≠ .arr items) → (∀ members, v ≠ .obj members) → P v)
    (arr : ∀ items, (∀ x ∈ items, P x) → P (.arr items))
    (obj : ∀ members, (∀ m ∈ members, P m.2) → P (.obj members)) (items : List Json) :
    ∀ x ∈ items, P x := by
  match items with
  | [] => exact List.forall_mem_nil _
  | v :: items =>
    exact List.forall_mem_cons.mpr
      ⟨induction leaf arr obj v, inductionItems leaf arr obj items⟩

theorem inductionMembers
    (leaf : ∀ v, (∀ items, v ≠ .arr items) → (∀ members, v ≠ .obj members) → P v)
    (arr : ∀ items, (∀ x ∈ items, P x) → P (.arr items))
    (obj : ∀ members, (∀ m ∈ members, P m.2) → P (.obj members)) (members : List (Str × Json)) :
    ∀ m ∈ members, P m.2 := by
  match members with
  | [] => exact List.forall_mem_nil _
  | (_, v) :: members =>
    exact List.forall_mem_cons.mpr
      ⟨induction leaf arr obj v, inductionMembers leaf arr obj members⟩

end

end Induction

variable {α : Type}

/-- What is found in the objects of a value. -/
def collect (f : List (Str × Json) → List α) : Json → List α
  | .arr items => collectItems f items
  | .obj members => f members ++ collectMembers f members
  | _ => []
where
  collectItems (f : List (Str × Json) → List α) : List Json → List α
    | [] => []
    | v :: items => collect f v ++ collectItems f items
  collectMembers (f : List (Str × Json) → List α) : List (Str × Json) → List α
    | [] => []
    | (_, v) :: members => collect f v ++ collectMembers f members

variable {f : List (Str × Json) → List α} {a : α}

theorem collect_arr (items : List Json) : collect f (.arr items) = collect.collectItems f items := rfl

theorem collectItems_cons (v : Json) (items : List Json) :
    collect.collectItems f (v :: items) = collect f v ++ collect.collectItems f items := rfl

theorem collect_obj (members : List (Str × Json)) :
    collect f (.obj members) = f members ++ collect.collectMembers f members := rfl

theorem collectMembers_cons (m : Str × Json) (members : List (Str × Json)) :
    collect.collectMembers f (m :: members) =
      collect f m.2 ++ collect.collectMembers f members := rfl

@[simp] theorem mem_collect_arr {items : List Json} :
    a ∈ collect f (.arr items) ↔ ∃ x ∈ items, a ∈ collect f x := by
  rw [collect_arr]
  induction items with
  | nil => exact iff_of_false List.not_mem_nil (by simp)
  | cons v items ih => simp [collectItems_cons, ih]

@[simp] theorem mem_collect_obj {members : List (Str × Json)} :
    a ∈ collect f (.obj members) ↔ a ∈ f members ∨ ∃ m ∈ members, a ∈ collect f m.2 := by
  rw [collect_obj, List.mem_append]
  apply or_congr_right
  induction members with
  | nil => exact iff_of_false List.not_mem_nil (by simp)
  | cons m members ih => simp [collectMembers_cons, ih]

theorem collect_arr_eq_nil {items : List Json} :
    collect f (.arr items) = [] ↔ ∀ x ∈ items, collect f x = [] := by
  simp only [List.eq_nil_iff_forall_not_mem, mem_collect_arr, not_exists, not_and]
  exact ⟨fun h x hx a ha => h a x hx ha, fun h a x hx ha => h x hx a ha⟩

theorem collect_obj_eq_nil {members : List (Str × Json)} :
    collect f (.obj members) = [] ↔ f members = [] ∧ ∀ m ∈ members, collect f m.2 = [] := by
  simp only [List.eq_nil_iff_forall_not_mem, mem_collect_obj, not_or, not_exists, not_and]
  exact ⟨fun h => ⟨fun a => (h a).1, fun m hm a ha => (h a).2 m hm ha⟩,
    fun h a => ⟨h.1 a, fun m hm ha => h.2 m hm a ha⟩⟩

theorem collect_leaf {v : Json} (harr : ∀ items, v ≠ .arr items)
    (hobj : ∀ members, v ≠ .obj members) : collect f v = [] := by
  cases v with
  | arr items => exact absurd rfl (harr items)
  | obj members => exact absurd rfl (hobj members)
  | null | bool _ | int _ | float _ _ _ | special _ | str _ => rfl

end Json

end DocFlow
