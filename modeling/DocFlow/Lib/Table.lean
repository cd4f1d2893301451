import Mathlib.Data.List.Basic
import Mathlib.Data.List.Nodup
import Mathlib.Data.List.Sort

/-!
# Tables with a primary key

A `Table key` is a list of rows whose keys are pairwise different, in insertion
order.  The key constraint is a field, so a table with two rows under one key
cannot be built: `insert` answers `none` instead, the way a database raises an
integrity error.

* `get?` looks a row up by its key, `save` writes a row back under its key,
  `mapRows` updates every row in place, `insert` appends, `put` does either, `filter` deletes.
* `mem_save`, `mem_mapRows`, `mem_insert` say which rows a table has after an
  operation; `get?_eq_some` turns look-ups into membership, and
  `Table.eq_of_key` identifies two rows with one key.
* `mem_save_of_not`, `mem_insert_of_not` and `mem_mapRows_of_fixed` are the frame rules: which rows
  an update leaves alone.
* `Corr R` relates two tables whose rows correspond under `R`, and `Rewrites R` two tables whose
  rows do so in order.
-/

namespace DocFlow

universe u v

/-- Rows with pairwise different keys. -/
structure Table {ρ : Type u} {κ : Type v} (key : ρ → κ) where
  rows : List ρ
  nodup : (rows.map key).Nodup

namespace Table

variable {ρ : Type u} {κ : Type v} {key : ρ → κ}

instance : Membership ρ (Table key) := ⟨fun t r => r ∈ t.rows⟩

theorem mem_iff {t : Table key} {r : ρ} : r ∈ t ↔ r ∈ t.rows := Iff.rfl

/-- The table without rows. -/
def empty : Table key := ⟨[], by simp⟩

/-- The table of one row. -/
def single (r : ρ) : Table key := ⟨[r], List.nodup_singleton _⟩

@[simp] theorem not_mem_empty (r : ρ) : ¬ r ∈ (empty : Table key) := by
  simp [mem_iff, empty]

/-- **The key identifies the row.** -/
theorem eq_of_key {t : Table key} {r r' : ρ} (hr : r ∈ t) (hr' : r' ∈ t)
    (h : key r = key r') : r = r' :=
  List.inj_on_of_nodup_map t.nodup hr hr' h

section Lookup

variable [DecidableEq κ]

/-- The row under a key. -/
def get? (t : Table key) (k : κ) : Option ρ := t.rows.find? (fun r => decide (key r = k))

theorem get?_eq_some {t : Table key} {k : κ} {r : ρ} :
    t.get? k = some r ↔ r ∈ t ∧ key r = k := by
  constructor
  · intro h
    exact ⟨List.mem_of_find?_eq_some h, by simpa using List.find?_some h⟩
  · rintro ⟨hr, rfl⟩
    cases h : t.get? (key r) with
    | none =>
      rw [get?, List.find?_eq_none] at h
      exact absurd (decide_eq_true rfl) (h r hr)
    | some r' =>
      have hr' : r' ∈ t := List.mem_of_find?_eq_some h
      have hk : key r' = key r := by simpa using List.find?_some h
      rw [eq_of_key hr' hr hk]

theorem get?_eq_none {t : Table key} {k : κ} :
    t.get? k = none ↔ ∀ r ∈ t, key r ≠ k := by
  simp [get?, List.find?_eq_none, mem_iff]

theorem mem_of_get? {t : Table key} {k : κ} {r : ρ} (h : t.get? k = some r) : r ∈ t :=
  (get?_eq_some.mp h).1

theorem key_of_get? {t : Table key} {k : κ} {r : ρ} (h : t.get? k = some r) : key r = k :=
  (get?_eq_some.mp h).2

theorem get?_of_mem {t : Table key} {r : ρ} (h : r ∈ t) : t.get? (key r) = some r :=
  get?_eq_some.mpr ⟨h, rfl⟩

end Lookup

/-! ## Updates -/

/-- Rewrite every row, each under its own key. -/
def mapRows (t : Table key) (f : ρ → ρ) (hf : ∀ r, key (f r) = key r) : Table key where
  rows := t.rows.map f
  nodup := by
    have : t.rows.map (key ∘ f) = t.rows.map key :=
      List.map_congr_left (fun r _ => hf r)
    simpa [List.map_map, this] using t.nodup

theorem mem_mapRows {t : Table key} {f : ρ → ρ} {hf : ∀ r, key (f r) = key r} {r : ρ} :
    r ∈ t.mapRows f hf ↔ ∃ r₀ ∈ t, f r₀ = r := by
  simp [mem_iff, mapRows]

/-- The rows as rows of another type, each under its own key. -/
def mapTo {σ : Type u} (t : Table key) (key' : σ → κ) (f : ρ → σ) (hf : ∀ r, key' (f r) = key r) :
    Table key' where
  rows := t.rows.map f
  nodup := by
    have hkeys : t.rows.map (key' ∘ f) = t.rows.map key :=
      List.map_congr_left (fun r _ => hf r)
    rw [List.map_map, hkeys]
    exact t.nodup

theorem mem_mapTo {σ : Type u} {t : Table key} {key' : σ → κ} {f : ρ → σ}
    {hf : ∀ r, key' (f r) = key r} {x : σ} : x ∈ t.mapTo key' f hf ↔ ∃ r ∈ t, f r = x := by
  simp [mem_iff, mapTo]

/-- The rows that a test keeps; the others are deleted. -/
def filter (t : Table key) (p : ρ → Bool) : Table key where
  rows := t.rows.filter p
  nodup := t.nodup.sublist (List.filter_sublist.map key)

theorem mem_filter {t : Table key} {p : ρ → Bool} {r : ρ} :
    r ∈ t.filter p ↔ r ∈ t ∧ p r = true := by
  simp [mem_iff, filter]

section Save

variable [DecidableEq κ]

/-- Write a row back: the row under its key is replaced. -/
def save (t : Table key) (r : ρ) : Table key :=
  t.mapRows (fun x => if key x = key r then r else x)
    (fun x => by by_cases h : key x = key r <;> simp [h])

theorem mem_save {t : Table key} {r x : ρ} :
    x ∈ t.save r ↔ (x = r ∧ ∃ r₀ ∈ t, key r₀ = key r) ∨ (x ∈ t ∧ key x ≠ key r) := by
  rw [save, mem_mapRows]
  constructor
  · rintro ⟨r₀, h₀, rfl⟩
    by_cases hk : key r₀ = key r
    · exact .inl ⟨by simp [hk], r₀, h₀, hk⟩
    · exact .inr (by simpa [hk] using h₀)
  · rintro (⟨rfl, r₀, h₀, hk⟩ | ⟨hx, hk⟩)
    · exact ⟨r₀, h₀, by simp [hk]⟩
    · exact ⟨x, hx, by simp [hk]⟩

/-- Saving a row read from the table: it is there afterwards, and the other
rows are the old ones. -/
theorem mem_save_of_mem {t : Table key} {r₀ r x : ρ} (h₀ : r₀ ∈ t) (hk : key r = key r₀) :
    x ∈ t.save r ↔ x = r ∨ (x ∈ t ∧ x ≠ r₀) := by
  rw [mem_save]
  constructor
  · rintro (⟨h, -⟩ | ⟨h, hne⟩)
    · exact .inl h
    · exact .inr ⟨h, fun e => hne (by rw [e, hk])⟩
  · rintro (rfl | ⟨h, hne⟩)
    · exact .inl ⟨rfl, r₀, h₀, hk.symm⟩
    · exact .inr ⟨h, fun e => hne (eq_of_key h h₀ (e.trans hk))⟩

theorem rows_save (t : Table key) (r : ρ) :
    (t.save r).rows = t.rows.map fun x => if key x = key r then r else x := rfl

/-- The last row written under a key stays. -/
theorem save_save {t : Table key} {r r' : ρ} (hk : key r' = key r) :
    (t.save r).save r' = t.save r' := by
  have hrows : ((t.save r).save r').rows = (t.save r').rows := by
    simp only [rows_save, List.map_map]
    refine List.map_congr_left fun x _ => ?_
    by_cases hx : key x = key r
    · simp [hx, hk]
    · simp [hx, hk]
  cases h₁ : (t.save r).save r'
  cases h₂ : t.save r'
  rw [h₁, h₂] at hrows
  simpa using hrows

theorem get?_save_ne {t : Table key} {r : ρ} {k : κ} (h : key r ≠ k) :
    (t.save r).get? k = t.get? k := by
  ext x
  rw [get?_eq_some, get?_eq_some, mem_save]
  constructor
  · rintro ⟨⟨rfl, -⟩ | ⟨hx, -⟩, hk⟩
    · exact absurd hk h
    · exact ⟨hx, hk⟩
  · rintro ⟨hx, hk⟩
    exact ⟨.inr ⟨hx, fun e => h (e.symm.trans hk)⟩, hk⟩

theorem get?_save_self {t : Table key} {r r₀ : ρ} (h₀ : r₀ ∈ t) (hk : key r = key r₀) :
    (t.save r).get? (key r) = some r :=
  get?_eq_some.mpr ⟨(mem_save_of_mem h₀ hk).mpr (.inl rfl), rfl⟩

end Save

section Insert

variable [DecidableEq κ]

/-- Append a row; `none` when its key is taken. -/
def insert (t : Table key) (r : ρ) : Option (Table key) :=
  if h : key r ∈ t.rows.map key then none
  else some ⟨t.rows ++ [r], by
    rw [List.map_append, List.map_singleton]
    exact List.Nodup.append t.nodup (by simp) (by simpa using h)⟩

theorem rows_insert {t t' : Table key} {r : ρ} (h : t.insert r = some t') :
    t'.rows = t.rows ++ [r] := by
  unfold insert at h
  split at h
  · cases h
  · cases h; rfl

theorem mem_insert {t t' : Table key} {r x : ρ} (h : t.insert r = some t') :
    x ∈ t' ↔ x ∈ t ∨ x = r := by
  simp [mem_iff, rows_insert h]

theorem key_not_mem_of_insert {t t' : Table key} {r x : ρ} (h : t.insert r = some t')
    (hx : x ∈ t) : key x ≠ key r := by
  intro hk
  unfold insert at h
  split at h
  · cases h
  · next hn => exact hn (hk ▸ List.mem_map_of_mem hx)

theorem insert_eq_none {t : Table key} {r : ρ} :
    t.insert r = none ↔ ∃ x ∈ t, key x = key r := by
  unfold insert
  split
  · next h => simpa [mem_iff] using h
  · next h => simpa [mem_iff] using h

theorem exists_insert {t : Table key} {r : ρ} (h : ∀ x ∈ t, key x ≠ key r) :
    ∃ t', t.insert r = some t' := by
  cases hi : t.insert r with
  | none =>
    obtain ⟨x, hx, hk⟩ := insert_eq_none.mp hi
    exact absurd hk (h x hx)
  | some t' => exact ⟨t', rfl⟩

theorem get?_insert_ne {t t' : Table key} {r : ρ} {k : κ} (h : t.insert r = some t')
    (hk : key r ≠ k) : t'.get? k = t.get? k := by
  ext x
  rw [get?_eq_some, get?_eq_some, mem_insert h]
  constructor
  · rintro ⟨hx | rfl, e⟩
    · exact ⟨hx, e⟩
    · exact absurd e hk
  · rintro ⟨hx, e⟩
    exact ⟨.inl hx, e⟩

/-- Write a row: the row under its key is replaced, and without one it is appended. -/
def put (t : Table key) (r : ρ) : Table key := (t.insert r).getD (t.save r)

theorem mem_put {t : Table key} {r x : ρ} : x ∈ t.put r ↔ x = r ∨ (x ∈ t ∧ key x ≠ key r) := by
  unfold put
  cases hi : t.insert r with
  | none =>
    rw [Option.getD_none, mem_save]
    exact or_congr_left (and_iff_left (insert_eq_none.mp hi))
  | some t' =>
    rw [Option.getD_some, mem_insert hi]
    constructor
    · rintro (hx | rfl)
      · exact .inr ⟨hx, key_not_mem_of_insert hi hx⟩
      · exact .inl rfl
    · rintro (rfl | ⟨hx, -⟩)
      · exact .inr rfl
      · exact .inl hx

end Insert

/-! ## Rows that are left alone -/

section Frames

variable {p : ρ → Prop} {x : ρ}

/-- Saving a row that fails `p` over one that fails `p` keeps the rows that satisfy it. -/
theorem mem_save_of_not [DecidableEq κ] {t : Table key} {r₀ r : ρ} (h₀ : r₀ ∈ t)
    (hk : key r = key r₀) (hr₀ : ¬ p r₀) (hr : ¬ p r) (hx : p x) : x ∈ t.save r ↔ x ∈ t := by
  rw [mem_save_of_mem h₀ hk]
  constructor
  · rintro (rfl | ⟨h, -⟩)
    · exact absurd hx hr
    · exact h
  · intro h
    refine .inr ⟨h, ?_⟩
    rintro rfl
    exact hr₀ hx

theorem mem_insert_of_not [DecidableEq κ] {t t' : Table key} {r : ρ} (h : t.insert r = some t')
    (hr : ¬ p r) (hx : p x) : x ∈ t' ↔ x ∈ t := by
  rw [mem_insert h]
  constructor
  · rintro (h | rfl)
    · exact h
    · exact absurd hx hr
  · exact .inl

/-- Rewriting every row keeps the rows that satisfy `p` when it fixes them. -/
theorem mem_mapRows_of_fixed {t : Table key} {f : ρ → ρ} {hf : ∀ r, key (f r) = key r}
    (hp : ∀ r, p (f r) → p r) (hfix : ∀ r ∈ t, p r → f r = r) (hx : p x) :
    x ∈ t.mapRows f hf ↔ x ∈ t := by
  rw [mem_mapRows]
  constructor
  · rintro ⟨r, hr, rfl⟩
    rw [hfix r hr (hp r hx)]
    exact hr
  · exact fun h => ⟨x, h, hfix x h hx⟩

end Frames

/-! ## Corresponding rows -/

/-- Every row of either table has a partner in the other. -/
structure Corr (R : ρ → ρ → Prop) (t t' : Table key) : Prop where
  forth : ∀ x ∈ t, ∃ y ∈ t', R x y
  back : ∀ y ∈ t', ∃ x ∈ t, R x y

theorem Corr.of_eq {R : ρ → ρ → Prop} {t t' : Table key} (hR : ∀ x, R x x) (h : t' = t) :
    Corr R t t' := by
  subst h
  exact ⟨fun x hx => ⟨x, hx, hR x⟩, fun x hx => ⟨x, hx, hR x⟩⟩

theorem Corr.mapRows {R : ρ → ρ → Prop} {t : Table key} {f : ρ → ρ}
    (hf : ∀ r, key (f r) = key r) (h : ∀ x ∈ t, R x (f x)) : Corr R t (t.mapRows f hf) := by
  refine ⟨fun x hx => ⟨f x, mem_mapRows.mpr ⟨x, hx, rfl⟩, h x hx⟩, fun y hy => ?_⟩
  obtain ⟨x, hx, rfl⟩ := mem_mapRows.mp hy
  exact ⟨x, hx, h x hx⟩

theorem Corr.save [DecidableEq κ] {R : ρ → ρ → Prop} {t : Table key} {r₀ r : ρ} (hR : ∀ x, R x x)
    (h₀ : r₀ ∈ t) (hk : key r = key r₀) (h : R r₀ r) : Corr R t (t.save r) := by
  refine ⟨fun x hx => ?_, fun y hy => ?_⟩
  · by_cases hx₀ : x = r₀
    · exact ⟨r, (mem_save_of_mem h₀ hk).mpr (.inl rfl), hx₀ ▸ h⟩
    · exact ⟨x, (mem_save_of_mem h₀ hk).mpr (.inr ⟨hx, hx₀⟩), hR x⟩
  · rcases (mem_save_of_mem h₀ hk).mp hy with rfl | ⟨hy, -⟩
    · exact ⟨r₀, h₀, h⟩
    · exact ⟨y, hy, hR y⟩

/-- The rows of `t'` are those of `t`, in order, each rewritten within `R`. -/
def Rewrites (R : ρ → ρ → Prop) (t t' : Table key) : Prop :=
  ∃ f, t'.rows = t.rows.map f ∧ ∀ r ∈ t, R r (f r)

namespace Rewrites

variable {R S T : ρ → ρ → Prop} {t t' t'' : Table key}

theorem of_eq (hR : ∀ r ∈ t, R r r) (h : t' = t) : Rewrites R t t' :=
  ⟨id, by rw [h, List.map_id], hR⟩

theorem mapRows {f : ρ → ρ} (hf : ∀ r, key (f r) = key r) (h : ∀ r ∈ t, R r (f r)) :
    Rewrites R t (t.mapRows f hf) := ⟨f, rfl, h⟩

theorem save [DecidableEq κ] {r₀ r : ρ} (hR : ∀ x ∈ t, R x x) (h₀ : r₀ ∈ t) (hk : key r = key r₀)
    (h : R r₀ r) : Rewrites R t (t.save r) := by
  refine ⟨fun x => if key x = key r then r else x, rfl, fun x hx => ?_⟩
  show R x (if key x = key r then r else x)
  by_cases hxk : key x = key r
  · rw [if_pos hxk, eq_of_key hx h₀ (hxk.trans hk)]
    exact h
  · rw [if_neg hxk]
    exact hR x hx

theorem forth (h : Rewrites R t t') {r : ρ} (hr : r ∈ t) : ∃ r' ∈ t', R r r' := by
  obtain ⟨f, hf, hR⟩ := h
  exact ⟨f r, by rw [mem_iff, hf]; exact List.mem_map_of_mem hr, hR r hr⟩

theorem back (h : Rewrites R t t') {r' : ρ} (hr' : r' ∈ t') : ∃ r ∈ t, R r r' := by
  obtain ⟨f, hf, hR⟩ := h
  rw [mem_iff, hf] at hr'
  obtain ⟨r, hr, rfl⟩ := List.mem_map.mp hr'
  exact ⟨r, hr, hR r hr⟩

theorem trans (h : Rewrites R t t') (g : Rewrites S t' t'')
    (hRS : ∀ r s u, r ∈ t → R r s → S s u → T r u) : Rewrites T t t'' := by
  obtain ⟨f, hf, hR⟩ := h
  obtain ⟨f', hf', hS⟩ := g
  refine ⟨f' ∘ f, by rw [hf', hf, List.map_map], fun r hr => ?_⟩
  have hin : f r ∈ t' := by
    rw [mem_iff, hf]
    exact List.mem_map_of_mem hr
  exact hRS r (f r) _ hr (hR r hr) (hS _ hin)

end Rewrites

end Table

end DocFlow
