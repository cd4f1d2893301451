import Mathlib.Data.List.Nodup
import Mathlib.Data.List.Perm.Subperm

/-!
# Recency lists

The elements in use, each once, with the one used last at the end.  `use` moves an element to the
end, `forget` takes it out, and `last n` keeps the `n` elements used last.

A bounded queue that takes part in every use and keeps `last n` after each batch stays an end of the
list of all elements (`replay_suffix`).  It stays the end of length `n` as long as a batch forgets
none of its elements while others lie outside of it (`last_replay`): what a queue loses by
forgetting it does not get back.
-/

namespace DocFlow.Recency

universe u

variable {κ : Type u}

/-! ## The end of a list -/

/-- The `n` elements used last. -/
def last (n : Nat) (l : List κ) : List κ := l.drop (l.length - n)

section Last

variable {n : Nat} {l l' : List κ}

theorem last_suffix : last n l <:+ l := List.drop_suffix _ _

theorem length_last : (last n l).length = min n l.length := by
  simp only [last, List.length_drop]
  omega

theorem last_of_length_le (h : l.length ≤ n) : last n l = l := by
  rw [last, Nat.sub_eq_zero_of_le h, List.drop_zero]

/-- An end that is long enough has the same last elements. -/
theorem last_eq_of_suffix (h : l <:+ l') (hn : n ≤ l.length) : last n l = last n l' := by
  obtain ⟨t, rfl⟩ := h
  have hdrop : (t ++ l).length - n = t.length + (l.length - n) := by
    rw [List.length_append]
    omega
  rw [last, last, hdrop, List.drop_length_add_append]

end Last

/-! ## Uses -/

variable [DecidableEq κ]

def forget (k : κ) (l : List κ) : List κ := l.filter (· ≠ k)

def use (k : κ) (l : List κ) : List κ := forget k l ++ [k]

inductive Op (κ : Type u)
  | use (k : κ)
  | forget (k : κ)
deriving DecidableEq, Repr

def Op.apply (l : List κ) : Op κ → List κ
  | .use k => Recency.use k l
  | .forget k => Recency.forget k l

def replay (ops : List (Op κ)) (l : List κ) : List κ := ops.foldl Op.apply l

/-! ## One operation -/

section Operations

variable {k x : κ} {l l' : List κ}

@[simp] theorem mem_forget : x ∈ forget k l ↔ x ∈ l ∧ x ≠ k := by
  simp [forget]

@[simp] theorem mem_use : x ∈ use k l ↔ x ∈ l ∨ x = k := by
  simp only [use, List.mem_append, mem_forget, List.mem_singleton]
  by_cases h : x = k <;> simp [h]

theorem nodup_forget (h : l.Nodup) : (forget k l).Nodup := h.filter _

theorem nodup_use (h : l.Nodup) : (use k l).Nodup := by
  refine List.nodup_append.mpr ⟨nodup_forget h, by simp, ?_⟩
  intro a ha b hb
  obtain rfl := List.mem_singleton.mp hb
  exact (mem_forget.mp ha).2

theorem forget_suffix (h : l <:+ l') : forget k l <:+ forget k l' := h.filter _

theorem use_suffix (h : l <:+ l') : use k l <:+ use k l' := by
  obtain ⟨t, ht⟩ := forget_suffix (k := k) h
  exact ⟨t, by rw [use, use, ← ht, List.append_assoc]⟩

theorem pairwise_forget {R : κ → κ → Prop} (h : l.Pairwise R) : (forget k l).Pairwise R :=
  h.filter _

/-- An element that comes after all others may be used. -/
theorem pairwise_use {R : κ → κ → Prop} (h : (forget k l).Pairwise R)
    (hk : ∀ x ∈ l, x ≠ k → R x k) : (use k l).Pairwise R := by
  refine List.pairwise_append.mpr ⟨h, by simp, ?_⟩
  intro a ha b hb
  obtain rfl := List.mem_singleton.mp hb
  obtain ⟨hal, hne⟩ := mem_forget.mp ha
  exact hk a hal hne

end Operations

/-! ## A batch of operations -/

section Replay

variable {ops : List (Op κ)} {l l' : List κ} {n : Nat}

@[simp] theorem replay_nil : replay [] l = l := rfl

@[simp] theorem replay_cons {op : Op κ} : replay (op :: ops) l = replay ops (op.apply l) := rfl

theorem replay_append {ops' : List (Op κ)} :
    replay (ops ++ ops') l = replay ops' (replay ops l) := List.foldl_append

theorem replay_suffix (h : l <:+ l') : replay ops l <:+ replay ops l' := by
  induction ops generalizing l l' with
  | nil => exact h
  | cons op ops ih =>
    cases op with
    | use k => exact ih (use_suffix h)
    | forget k => exact ih (forget_suffix h)

/-- What is not forgotten stays. -/
theorem mem_replay {x : κ} (hx : x ∈ l) (hops : Op.forget x ∉ ops) : x ∈ replay ops l := by
  induction ops generalizing l with
  | nil => exact hx
  | cons op ops ih =>
    obtain ⟨hne, hrest⟩ := not_or.mp (mt List.mem_cons.mpr hops)
    cases op with
    | use k => exact ih (mem_use.mpr (.inl hx)) hrest
    | forget k =>
      have hxk : x ≠ k := by
        rintro rfl
        exact hne rfl
      exact ih (mem_forget.mpr ⟨hx, hxk⟩) hrest

/-- **A bounded queue and the list of all elements.**  Keeping the last `n` before the batch or not
makes no difference, unless the batch forgets an element of the queue while others lie outside. -/
theorem last_replay (hl : l.Nodup)
    (hops : last n l = l ∨ ∀ k, Op.forget k ∈ ops → k ∉ last n l) :
    last n (replay ops (last n l)) = last n (replay ops l) := by
  rcases hops with hall | hkept
  · rw [hall]
  by_cases hshort : l.length ≤ n
  · rw [last_of_length_le hshort]
  have hfull : (last n l).length = n := by
    rw [length_last]
    omega
  have hsub : last n l ⊆ replay ops (last n l) := by
    intro x hx
    exact mem_replay hx fun h => hkept x h hx
  have hnodup : (last n l).Nodup := hl.sublist last_suffix.sublist
  have hlen : n ≤ (replay ops (last n l)).length := by
    calc n = (last n l).length := hfull.symm
      _ ≤ (replay ops (last n l)).length := (hnodup.subperm hsub).length_le
  exact last_eq_of_suffix (replay_suffix last_suffix) hlen

end Replay

end DocFlow.Recency
