import DocFlow.Lib.Table
import Mathlib.Order.Basic

/-!
# Sorted listings of a table

`sortedBy f l` is a list in the order of the values of `f`.  It depends on the elements only, when no
two of them have the same value (`sortedBy_eq_of_perm`).

`Table.select p t` are the rows with a property.  When two tables have the same selected rows, then
the selections agree up to the order (`Table.select_perm`), and the sorted listings agree
(`Table.listing_congr`).

A `dict` is a list of pairs with different keys, where each pair is found (`lookup_of_mem`).  A list
built by a function that may fail has the results of the elements (`mapM_eq_ok`).
-/

namespace DocFlow

universe u v w

variable {ρ : Type u} {κ : Type v} {ω : Type w} [LinearOrder ω]

/-- The elements in the order of `f`. -/
def sortedBy (f : ρ → ω) (l : List ρ) : List ρ := l.insertionSort fun a b => f a ≤ f b

theorem sortedBy_perm (f : ρ → ω) (l : List ρ) : (sortedBy f l).Perm l := List.perm_insertionSort _ l

theorem mem_sortedBy {f : ρ → ω} {l : List ρ} {a : ρ} : a ∈ sortedBy f l ↔ a ∈ l :=
  (sortedBy_perm f l).mem_iff

theorem sortedBy_pairwise (f : ρ → ω) (l : List ρ) :
    (sortedBy f l).Pairwise fun a b => f a ≤ f b := by
  have : Std.Total fun a b : ρ => f a ≤ f b := ⟨fun a b => le_total (f a) (f b)⟩
  have : IsTrans ρ fun a b => f a ≤ f b := ⟨fun _ _ _ => le_trans⟩
  exact List.pairwise_insertionSort _ l

/-- **The order of a list does not matter for sorting it**, when the values tell its elements
apart. -/
theorem sortedBy_eq_of_perm {f : ρ → ω} {l l' : List ρ} (hperm : l.Perm l')
    (hinj : ∀ a ∈ l, ∀ b ∈ l, f a = f b → a = b) : sortedBy f l = sortedBy f l' := by
  refine List.Perm.eq_of_pairwise ?_ (sortedBy_pairwise f l) (sortedBy_pairwise f l') ?_
  · intro a b ha hb hab hba
    have ha' := mem_sortedBy.mp ha
    have hb' := hperm.mem_iff.mpr (mem_sortedBy.mp hb)
    exact hinj a ha' b hb' (le_antisymm hab hba)
  · exact (sortedBy_perm f l).trans (hperm.trans (sortedBy_perm f l').symm)

namespace Table

variable {key : ρ → κ}

/-- The rows with a property. -/
def select (p : ρ → Prop) [DecidablePred p] (t : Table key) : List ρ := t.rows.filter p

theorem mem_select {p : ρ → Prop} [DecidablePred p] {t : Table key} {r : ρ} :
    r ∈ t.select p ↔ r ∈ t ∧ p r := by
  rw [select, List.mem_filter, decide_eq_true_eq, mem_iff]

theorem nodup_select (p : ρ → Prop) [DecidablePred p] (t : Table key) : (t.select p).Nodup :=
  (List.Nodup.of_map key t.nodup).filter _

theorem select_perm {p p' : ρ → Prop} [DecidablePred p] [DecidablePred p'] {t t' : Table key}
    (h : ∀ r, r ∈ t ∧ p r ↔ r ∈ t' ∧ p' r) : (t.select p).Perm (t'.select p') := by
  rw [List.perm_ext_iff_of_nodup (nodup_select p t) (nodup_select p' t')]
  intro r
  rw [mem_select, mem_select]
  exact h r

/-- **The listing of the selected rows is the same for two tables with the same selected rows.** -/
theorem listing_congr {p p' : ρ → Prop} [DecidablePred p] [DecidablePred p'] {t t' : Table key}
    {f : ρ → ω} (h : ∀ r, r ∈ t ∧ p r ↔ r ∈ t' ∧ p' r) (hf : ∀ a b, f a = f b → key a = key b) :
    sortedBy f (t.select p) = sortedBy f (t'.select p') := by
  refine sortedBy_eq_of_perm (select_perm h) ?_
  intro a ha b hb hab
  exact eq_of_key (mem_select.mp ha).1 (mem_select.mp hb).1 (hf a b hab)

theorem count_congr {p p' : ρ → Prop} [DecidablePred p] [DecidablePred p'] {t t' : Table key}
    (h : ∀ r, r ∈ t ∧ p r ↔ r ∈ t' ∧ p' r) : (t.select p).length = (t'.select p').length :=
  (select_perm h).length_eq

end Table

/-! ## Pairs with different keys -/

theorem lookup_of_mem [BEq κ] [LawfulBEq κ] {pairs : List (κ × ρ)}
    (hnodup : (pairs.map Prod.fst).Nodup) {k : κ} {r : ρ} (h : (k, r) ∈ pairs) :
    pairs.lookup k = some r := by
  induction pairs with
  | nil => cases h
  | cons pair pairs ih =>
    obtain ⟨hnot, hnodup⟩ := List.nodup_cons.mp (List.map_cons ▸ hnodup)
    obtain rfl | h := List.mem_cons.mp h
    · exact List.lookup_cons_self
    · have hne : (k == pair.1) = false := by
        rw [beq_eq_false_iff_ne]
        intro heq
        exact hnot (heq ▸ List.mem_map_of_mem h)
      rw [List.lookup_cons, hne]
      exact ih hnodup h

theorem mem_of_lookup [BEq κ] [LawfulBEq κ] {pairs : List (κ × ρ)} {k : κ} {r : ρ}
    (h : pairs.lookup k = some r) : (k, r) ∈ pairs := by
  obtain ⟨before, after, rfl, -⟩ := List.lookup_eq_some_iff.mp h
  exact List.mem_append_right _ List.mem_cons_self

theorem eraseDups_of_nodup [BEq κ] [LawfulBEq κ] {keys : List κ} (h : keys.Nodup) :
    keys.eraseDups = keys := by
  induction keys with
  | nil => rfl
  | cons k keys ih =>
    obtain ⟨hnot, hnodup⟩ := List.nodup_cons.mp h
    have hfilter : keys.filter (fun other => !other == k) = keys := by
      rw [List.filter_eq_self]
      intro other hother
      have hne : other ≠ k := by
        rintro rfl
        exact hnot hother
      simp [hne]
    rw [List.eraseDups_cons, hfilter, ih hnodup]

theorem exists_of_forall₂ {α β : Type} {R : α → β → Prop} {l : List α} {l' : List β}
    (h : List.Forall₂ R l l') :
    (∀ a ∈ l, ∃ b ∈ l', R a b) ∧ ∀ b ∈ l', ∃ a ∈ l, R a b := by
  induction h with
  | nil => exact ⟨List.forall_mem_nil _, List.forall_mem_nil _⟩
  | cons hr _ ih =>
    rw [List.forall_mem_cons, List.forall_mem_cons]
    refine ⟨⟨⟨_, List.mem_cons_self .., hr⟩, fun a ha => ?_⟩,
      ⟨_, List.mem_cons_self .., hr⟩, fun b hb => ?_⟩
    · obtain ⟨b, hb, hab⟩ := ih.1 a ha
      exact ⟨b, List.mem_cons_of_mem _ hb, hab⟩
    · obtain ⟨a, ha, hab⟩ := ih.2 b hb
      exact ⟨a, List.mem_cons_of_mem _ ha, hab⟩

theorem exists_forall₂ {α β : Type} {R : α → β → Prop} {l : List α} (h : ∀ a ∈ l, ∃ b, R a b) :
    ∃ l', List.Forall₂ R l l' := by
  induction l with
  | nil => exact ⟨[], .nil⟩
  | cons a l ih =>
    rw [List.forall_mem_cons] at h
    obtain ⟨b, hb⟩ := h.1
    obtain ⟨l', hl'⟩ := ih h.2
    exact ⟨b :: l', .cons hb hl'⟩

theorem mapM_eq_ok {ε α β : Type} {f : α → Except ε β} {l : List α} {l' : List β} :
    l.mapM f = .ok l' ↔ List.Forall₂ (fun a b => f a = .ok b) l l' := by
  induction l generalizing l' with
  | nil =>
    rw [List.mapM_nil, List.forall₂_nil_left_iff]
    exact ⟨fun h => (Except.ok.inj h).symm, fun h => by rw [h]; rfl⟩
  | cons a l ih =>
    rw [List.mapM_cons, List.forall₂_cons_left_iff]
    constructor
    · intro h
      cases ha : f a with
      | error e =>
        rw [ha] at h
        cases h
      | ok b =>
        rw [ha] at h
        cases hl : l.mapM f with
        | error e =>
          rw [hl] at h
          cases h
        | ok bs =>
          rw [hl] at h
          cases h
          exact ⟨b, bs, rfl, ih.mp hl, rfl⟩
    · rintro ⟨b, bs, hb, hbs, rfl⟩
      rw [hb, ih.mpr hbs]
      rfl

end DocFlow
