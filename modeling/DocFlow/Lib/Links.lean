import Mathlib.Data.Fintype.Card
import Mathlib.Data.List.Chain
import Mathlib.Logic.Relation

/-!
# Links that never turn back

`Acyclic r` says that no chain of `r` returns to where it began.  A link from `a` to another element
`b` keeps a relation acyclic when nothing leads on from `b` (`Acyclic.link`): a chain that takes the
new link ends there.

A rank that every link lowers shows a relation acyclic, and it bounds the length of a path
(`length_le_of_rank`).

When links lead to finitely many elements only, an acyclic relation is well-founded
(`Acyclic.wellFounded`).
-/

namespace DocFlow

universe u

variable {α : Type u} {r s : α → α → Prop}

/-- No chain returns. -/
def Acyclic (r : α → α → Prop) : Prop := ∀ a, ¬ Relation.TransGen r a a

theorem Acyclic.of_empty (h : ∀ a b, ¬ r a b) : Acyclic r := by
  intro a hchain
  obtain ⟨b, hb, -⟩ := Relation.TransGen.head'_iff.mp hchain
  exact h a b hb

theorem Acyclic.mono (h : Acyclic s) (hsub : ∀ a b, r a b → s a b) : Acyclic r := by
  intro a hchain
  exact h a (Relation.TransGen.mono hsub _ _ hchain)

/-- A chain that takes a link to an element without links ends there. -/
theorem chain_of_link {a b : α} (hsink : ∀ x, ¬ s b x) (hs : ∀ x y, s x y → r x y ∨ x = a ∧ y = b)
    {x y : α} (h : Relation.TransGen s x y) : y = b ∨ Relation.TransGen r x y := by
  induction h with
  | single hxy =>
    rcases hs _ _ hxy with hr | ⟨-, hy⟩
    · exact .inr (.single hr)
    · exact .inl hy
  | tail _ hmy ih =>
    rcases ih with rfl | hchain
    · exact absurd hmy (hsink _)
    · rcases hs _ _ hmy with hr | ⟨-, hy⟩
      · exact .inr (hchain.tail hr)
      · exact .inl hy

/-- **A link to an element without links.** -/
theorem Acyclic.link (h : Acyclic r) {a b : α} (hsink : ∀ x, ¬ s b x)
    (hs : ∀ x y, s x y → r x y ∨ x = a ∧ y = b) : Acyclic s := by
  intro x hchain
  rcases chain_of_link hsink hs hchain with rfl | hchain'
  · obtain ⟨y, hy, -⟩ := Relation.TransGen.head'_iff.mp hchain
    exact hsink y hy
  · exact h x hchain'

/-- A chain that went on for ever would come back. -/
theorem Acyclic.wellFounded (h : Acyclic r) {targets : Set α} (hfinite : targets.Finite)
    (htarget : ∀ a b, r a b → b ∈ targets) : WellFounded r := by
  have : Finite targets := hfinite
  let q : targets → targets → Prop := fun a b => Relation.TransGen r a b
  have : IsTrans targets q := ⟨fun _ _ _ hab hbc => Relation.TransGen.trans hab hbc⟩
  have : Std.Irrefl q := ⟨fun a hchain => h a hchain⟩
  have hwf : WellFounded q := Finite.wellFounded_of_trans_of_irrefl q
  have hin : ∀ b : targets, Acc r b := by
    intro b
    induction b using hwf.induction with
    | _ b ih =>
      refine Acc.intro _ fun a hab => ?_
      by_cases ha : a ∈ targets
      · exact ih ⟨a, ha⟩ (.single hab)
      · exact Acc.intro _ fun c hca => absurd (htarget c a hca) ha
  refine ⟨fun b => ?_⟩
  by_cases hb : b ∈ targets
  · exact hin ⟨b, hb⟩
  · exact Acc.intro _ fun a hab => absurd (htarget a b hab) hb

/-! ## Ranks -/

section Rank

variable {rank : α → Nat}

theorem rank_lt_of_chain (hr : ∀ a b, r a b → rank b < rank a) {a b : α}
    (h : Relation.TransGen r a b) : rank b < rank a := by
  induction h with
  | single hab => exact hr _ _ hab
  | tail _ hbc ih => exact (hr _ _ hbc).trans ih

theorem Acyclic.of_rank (hr : ∀ a b, r a b → rank b < rank a) : Acyclic r := by
  intro a hchain
  exact lt_irrefl _ (rank_lt_of_chain hr hchain)

/-- A path is no longer than the rank of its first element. -/
theorem length_le_rank (hr : ∀ a b, r a b → rank b < rank a) {a : α} {path : List α}
    (h : (a :: path).IsChain r) (hpos : ∀ x ∈ a :: path, 1 ≤ rank x) :
    (a :: path).length ≤ rank a := by
  induction path generalizing a with
  | nil => exact hpos a List.mem_cons_self
  | cons b path ih =>
    obtain ⟨hab, htail⟩ := List.isChain_cons_cons.mp h
    have hlen := ih htail fun x hx => hpos x (List.mem_cons_of_mem _ hx)
    have hlt := hr a b hab
    rw [List.length_cons]
    omega

theorem length_le_of_rank {n : Nat} (hr : ∀ a b, r a b → rank b < rank a) {path : List α}
    (h : path.IsChain r) (hpos : ∀ x ∈ path, 1 ≤ rank x) (hmax : ∀ x ∈ path, rank x ≤ n) :
    path.length ≤ n := by
  cases path with
  | nil => exact Nat.zero_le n
  | cons a path => exact (length_le_rank hr h hpos).trans (hmax a List.mem_cons_self)

end Rank

end DocFlow
