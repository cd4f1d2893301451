import Mathlib.Data.Fintype.Card
import Mathlib.Logic.Relation

/-!
# Walks along a chain

Every element of a finite type leads on to at most one other, `next`.  `meets` walks from an element
to the next one, notes where it has been, and stops where it comes back: it says whether the walk
has met an element with a property.  It answers for everything that can be reached (`meets_iff`).

What a walk leaves behind that has met none is closed: an element it has been at leads on to
another it has been at, or to the one where it goes on (`Trail`).  So nothing that can be reached
lies outside of it.
-/

namespace DocFlow.Chains

universe u

variable {α : Type u} (next : α → Option α) (p : α → Bool)

/-- One element leads on to the other. -/
def Leads (a b : α) : Prop := next a = some b

/-- The elements a walk has been at, before it goes on with another. -/
structure Trail (visited : List α) (current : Option α) : Prop where
  nodup : visited.Nodup
  fails : ∀ a ∈ visited, p a = false
  leads : ∀ a ∈ visited, ∀ b, Leads next a b → b ∈ visited ∨ current = some b

variable {next p}

theorem Trail.start (a : α) : Trail next p [] (some a) where
  nodup := List.nodup_nil
  fails := by simp
  leads := by simp

theorem Trail.step {visited : List α} {a : α} (h : Trail next p visited (some a))
    (hnew : a ∉ visited) (hp : p a = false) : Trail next p (a :: visited) (next a) where
  nodup := List.nodup_cons.mpr ⟨hnew, h.nodup⟩
  fails := by
    intro b hb
    rcases List.mem_cons.mp hb with rfl | hb
    · exact hp
    · exact h.fails b hb
  leads := by
    intro b hb c hc
    rcases List.mem_cons.mp hb with rfl | hb
    · exact .inr hc
    · rcases h.leads b hb c hc with hin | hcur
      · exact .inl (List.mem_cons_of_mem _ hin)
      · exact .inl (List.mem_cons.mpr (.inl (Option.some.inj hcur).symm))

/-- Nothing leads out of a trail that goes on within itself, or not at all. -/
theorem Trail.fails_of_reaches {visited : List α} {current : Option α}
    (h : Trail next p visited current) (hcur : ∀ b, current = some b → b ∈ visited) {a b : α}
    (ha : a ∈ visited) (hab : Relation.ReflTransGen (Leads next) a b) : p b = false := by
  have hin : b ∈ visited := by
    induction hab with
    | refl => exact ha
    | tail _ hbc ih =>
      rcases h.leads _ ih _ hbc with hc | hc
      · exact hc
      · exact hcur _ hc
  exact h.fails b hin

variable [DecidableEq α]

variable (next p) in
/-- The walk, with its steps and the elements it has been at. -/
def walk : Nat → List α → Option α → Bool
  | 0, _, _ => false
  | _ + 1, _, none => false
  | n + 1, visited, some a =>
    if a ∈ visited then false else p a || walk n (a :: visited) (next a)

variable (next p) in
/-- No step of a walk comes back, so there are no more than elements. -/
def meets [Fintype α] (a : α) : Bool := walk next p (Fintype.card α + 1) [] (some a)

/-- A walk that says so has met an element. -/
theorem exists_of_walk {n : Nat} {visited : List α} {a : α}
    (h : walk next p n visited (some a) = true) :
    ∃ b, Relation.ReflTransGen (Leads next) a b ∧ p b = true := by
  induction n generalizing visited a with
  | zero => cases h
  | succ n ih =>
    by_cases hin : a ∈ visited
    · simp [walk, hin] at h
    · rw [walk, if_neg hin, Bool.or_eq_true] at h
      rcases h with hp | hrest
      · exact ⟨a, .refl, hp⟩
      · cases hnext : next a with
        | none =>
          rw [hnext] at hrest
          cases n <;> cases hrest
        | some b =>
          rw [hnext] at hrest
          obtain ⟨c, hbc, hp⟩ := ih hrest
          exact ⟨c, .head hnext hbc, hp⟩

/-- A walk that meets none has been at all that can be reached. -/
theorem fails_of_walk [Fintype α] {n : Nat} {visited : List α} {current : Option α} {a b : α}
    (h : Trail next p visited current) (hn : Fintype.card α < n + visited.length)
    (hwalk : walk next p n visited current = false)
    (ha : a ∈ visited ∨ current = some a) (hab : Relation.ReflTransGen (Leads next) a b) :
    p b = false := by
  induction n generalizing visited current with
  | zero =>
    have hcard := h.nodup.length_le_card
    omega
  | succ n ih =>
    cases current with
    | none =>
      have hin : a ∈ visited := ha.resolve_right (by simp)
      exact h.fails_of_reaches (by simp) hin hab
    | some c =>
      by_cases hin : c ∈ visited
      · have ha' : a ∈ visited := by
          rcases ha with ha | ha
          · exact ha
          · exact Option.some.inj ha ▸ hin
        apply h.fails_of_reaches ?_ ha' hab
        intro d hd
        exact Option.some.inj hd ▸ hin
      · rw [walk, if_neg hin, Bool.or_eq_false_iff] at hwalk
        apply ih (h.step hin hwalk.1) ?_ hwalk.2 ?_
        · rw [List.length_cons]
          omega
        · left
          rcases ha with ha | ha
          · exact List.mem_cons_of_mem _ ha
          · exact Option.some.inj ha ▸ List.mem_cons_self

/-- **The walk answers for all that can be reached.** -/
theorem meets_iff [Fintype α] (a : α) :
    meets next p a = true ↔ ∃ b, Relation.ReflTransGen (Leads next) a b ∧ p b = true := by
  constructor
  · exact exists_of_walk
  · rintro ⟨b, hab, hp⟩
    by_contra hwalk
    have hfails : p b = false :=
      fails_of_walk (.start a) (by simp) (Bool.eq_false_iff.mpr hwalk) (.inr rfl) hab
    rw [hp] at hfails
    cases hfails

end DocFlow.Chains
