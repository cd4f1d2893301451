import Mathlib.Data.List.Basic

/-!
# Tokens in the cells of a list

A list of cells, some of which hold a token.  `Once token used cells` says that no two
cells hold the same token and that all tokens held are in use; it survives a cell being
appended (`Once.append`) or overwritten (`Once.set`), when a cell that gains a token gains one that
was not in use before.

`get?_set` and `get?_append` are the case splits on the position of a cell, and `countP_set_le`
says what overwriting a cell does to a count.
-/

namespace DocFlow

universe u v

variable {α : Type u} {κ : Type v}

/-- A cell of an overwritten list. -/
theorem get?_set {cells : List α} {i j : Nat} {a b : α} (h : (cells.set i a)[j]? = some b) :
    (j = i ∧ b = a) ∨ (j ≠ i ∧ cells[j]? = some b) := by
  rw [List.getElem?_set] at h
  split at h
  · next hij =>
    split at h
    · exact .inl ⟨hij.symm, (Option.some.inj h).symm⟩
    · cases h
  · next hij => exact .inr ⟨fun hji => hij hji.symm, h⟩

/-- A cell of an extended list. -/
theorem get?_append {cells : List α} {j : Nat} {a b : α} (h : (cells ++ [a])[j]? = some b) :
    cells[j]? = some b ∨ (j = cells.length ∧ b = a) := by
  rw [List.getElem?_append] at h
  split at h
  · exact .inl h
  · next hlt =>
    obtain ⟨hj, hb⟩ := List.getElem?_eq_some_iff.mp h
    simp only [List.length_singleton, Nat.lt_one_iff] at hj
    refine .inr ⟨by omega, ?_⟩
    rw [← hb]
    simp [hj]

/-- Overwriting a cell adds at most one to a count. -/
theorem countP_set_le_succ (p : α → Bool) (cells : List α) (i : Nat) (a : α) :
    (cells.set i a).countP p ≤ cells.countP p + 1 := by
  induction cells generalizing i with
  | nil => simp
  | cons b cells ih =>
    cases i with
    | zero =>
      simp only [List.set_cons_zero, List.countP_cons]
      split <;> split <;> omega
    | succ i =>
      have := ih i
      simp only [List.set_cons_succ, List.countP_cons]
      omega

/-- Overwriting a cell by one that is counted only if the old one was does not add to a
count. -/
theorem countP_set_le {p : α → Bool} {cells : List α} {i : Nat} {a a' : α}
    (hi : cells[i]? = some a) (hp : p a' = true → p a = true) :
    (cells.set i a').countP p ≤ cells.countP p := by
  induction cells generalizing i with
  | nil => simp
  | cons b cells ih =>
    cases i with
    | zero =>
      obtain rfl := Option.some.inj hi
      simp only [List.set_cons_zero, List.countP_cons]
      by_cases h : p a' = true
      · have ha := hp h
        simp [h, ha]
      · simp [h]
    | succ i =>
      have := ih hi
      simp only [List.set_cons_succ, List.countP_cons]
      omega

/-- No token is held twice, and every token that is held is in use. -/
structure Once (token : α → Option κ) (used : κ → Prop) (cells : List α) : Prop where
  used : ∀ (i : Nat) (a : α), cells[i]? = some a → ∀ k ∈ token a, used k
  once : ∀ (i j : Nat) (a b : α), cells[i]? = some a → cells[j]? = some b →
    ∀ k ∈ token a, k ∈ token b → i = j

namespace Once

variable {token : α → Option κ} {used used' : κ → Prop} {cells : List α}

theorem nil : Once token used [] := by
  constructor <;> simp

theorem mono (h : Once token used cells) (hused : ∀ k, used k → used' k) :
    Once token used' cells :=
  ⟨fun i a hi k hk => hused k (h.used i a hi k hk), h.once⟩

theorem append (h : Once token used cells) {a : α} (ha : token a = none) :
    Once token used (cells ++ [a]) := by
  have hold : ∀ (i : Nat) (b : α), (cells ++ [a])[i]? = some b → ∀ k ∈ token b,
      cells[i]? = some b := by
    intro i b hi k hk
    rcases get?_append hi with hi | ⟨-, rfl⟩
    · exact hi
    · rw [ha] at hk
      cases hk
  refine ⟨fun i b hi k hk => h.used i b (hold i b hi k hk) k hk, fun i j b c hi hj k hk hk' => ?_⟩
  exact h.once i j b c (hold i b hi k hk) (hold j c hj k hk') k hk hk'

/-- **A cell gains a token that nobody has used.** -/
theorem set (h : Once token used cells) {i : Nat} {a a' : α} (hi : cells[i]? = some a)
    (hused : ∀ k, used k → used' k)
    (hnew : ∀ k ∈ token a', k ∈ token a ∨ (¬ used k ∧ used' k)) :
    Once token used' (cells.set i a') := by
  refine ⟨fun j b hj k hk => ?_, fun j j' b b' hj hj' k hk hk' => ?_⟩
  · rcases get?_set hj with ⟨-, rfl⟩ | ⟨-, hj⟩
    · rcases hnew k hk with hold | ⟨-, hin⟩
      · exact hused k (h.used i a hi k hold)
      · exact hin
    · exact hused k (h.used j b hj k hk)
  · rcases get?_set hj with ⟨rfl, rfl⟩ | ⟨-, hj₀⟩
    · rcases get?_set hj' with ⟨rfl, rfl⟩ | ⟨-, hj₁⟩
      · rfl
      · rcases hnew k hk with hold | ⟨hfresh, -⟩
        · exact h.once j j' a b' hi hj₁ k hold hk'
        · exact absurd (h.used j' b' hj₁ k hk') hfresh
    · rcases get?_set hj' with ⟨rfl, rfl⟩ | ⟨-, hj₁⟩
      · rcases hnew k hk' with hold | ⟨hfresh, -⟩
        · exact h.once j j' b a hj₀ hi k hk hold
        · exact absurd (h.used j b hj₀ k hk) hfresh
      · exact h.once j j' b b' hj₀ hj₁ k hk hk'

end Once

end DocFlow
