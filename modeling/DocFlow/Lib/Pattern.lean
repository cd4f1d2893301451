import DocFlow.Lib.Text

/-!
# Patterns of repeated character classes

The regular expressions that are a sequence of groups, each a character class with bounds on its
repetition, between `^` and `$`.  A group is greedy or lazy, which says in which order the engine
tries its lengths; it backtracks into the earlier groups when the later ones do not fit.

* `fits_of_matchGroups`: what is matched splits the text into parts that fit the groups.
* `exists_matchGroups`: a text that splits in such a way is matched.
-/

namespace DocFlow.Pattern

/-- A group: its class, and how often it may repeat. -/
structure Group where
  accepts : Char → Bool
  least : Nat
  most : Option Nat
  isLazy : Bool

/-- How much of `s` the group may take, at most. -/
def Group.upper (g : Group) (s : Text) : Nat :=
  let run := (s.takeWhile g.accepts).length
  match g.most with
  | none => run
  | some most => min most run

/-- The lengths that the engine tries, in its order. -/
def Group.lengths (g : Group) (s : Text) : List Nat :=
  let lengths := (List.range (g.upper s + 1)).filter fun n => g.least ≤ n
  if g.isLazy then lengths else lengths.reverse

/-- The parts that the groups take; `$` also matches before a newline that ends the text. -/
def matchGroups : List Group → Text → Option (List Text)
  | [], s => if s = [] ∨ s = ['\n'] then some [] else none
  | g :: gs, s =>
    (g.lengths s).findSome? fun n => (matchGroups gs (s.drop n)).map fun parts => s.take n :: parts

/-- The group may take this part. -/
def Group.Takes (g : Group) (part : Text) : Prop :=
  (∀ c ∈ part, g.accepts c = true) ∧ g.least ≤ part.length ∧
    ∀ most, g.most = some most → part.length ≤ most

/-- The parts fit the groups, one each. -/
def Fits (gs : List Group) (parts : List Text) : Prop := List.Forall₂ Group.Takes gs parts

theorem le_length_takeWhile {f : Char → Bool} {s : Text} {n : Nat} (hn : n ≤ s.length) :
    n ≤ (s.takeWhile f).length ↔ ∀ c ∈ s.take n, f c = true := by
  induction s generalizing n with
  | nil =>
    obtain rfl : n = 0 := by simpa using hn
    simp
  | cons c s ih =>
    cases n with
    | zero => simp
    | succ n =>
      rw [List.take_succ_cons, List.forall_mem_cons, ← ih (by simpa using hn)]
      by_cases hc : f c = true
      · rw [List.takeWhile_cons_of_pos hc, List.length_cons]
        simp [hc]
      · rw [List.takeWhile_cons_of_neg hc]
        simp [hc]

theorem Group.mem_lengths {g : Group} {s : Text} {n : Nat} :
    n ∈ g.lengths s ↔ n ≤ s.length ∧ g.Takes (s.take n) := by
  have hmem : n ∈ g.lengths s ↔ n ≤ g.upper s ∧ g.least ≤ n := by
    unfold Group.lengths
    cases g.isLazy <;> simp [Nat.lt_succ_iff]
  have hupper : n ≤ g.upper s ↔ n ≤ (s.takeWhile g.accepts).length ∧
      ∀ most, g.most = some most → n ≤ most := by
    unfold Group.upper
    cases g.most with
    | none => simp
    | some most => simp [and_comm]
  have hrun : (s.takeWhile g.accepts).length ≤ s.length := (List.takeWhile_sublist _).length_le
  rw [hmem, hupper]
  constructor
  · rintro ⟨⟨htake, hmost⟩, hleast⟩
    have hn : n ≤ s.length := htake.trans hrun
    refine ⟨hn, (le_length_takeWhile hn).mp htake, ?_, ?_⟩
    · rwa [List.length_take_of_le hn]
    · rwa [List.length_take_of_le hn]
  · rintro ⟨hn, haccepts, hleast, hmost⟩
    rw [List.length_take_of_le hn] at hleast hmost
    exact ⟨⟨(le_length_takeWhile hn).mpr haccepts, hmost⟩, hleast⟩

/-- **The parts of a match fit**, and make up the text. -/
theorem fits_of_matchGroups {gs : List Group} {s : Text} {parts : List Text}
    (h : matchGroups gs s = some parts) :
    Fits gs parts ∧ (s = parts.flatten ∨ s = parts.flatten ++ ['\n']) := by
  induction gs generalizing s parts with
  | nil =>
    simp only [matchGroups] at h
    split at h
    · next hend =>
      obtain rfl := Option.some.inj h
      exact ⟨.nil, hend⟩
    · cases h
  | cons g gs ih =>
    obtain ⟨n, hn, h⟩ := List.exists_of_findSome?_eq_some h
    obtain ⟨rest, hrest, rfl⟩ := Option.map_eq_some_iff.mp h
    obtain ⟨hfits, hend⟩ := ih hrest
    refine ⟨.cons (Group.mem_lengths.mp hn).2 hfits, ?_⟩
    rw [List.flatten_cons, List.append_assoc]
    exact hend.imp (fun heq => by rw [← heq, List.take_append_drop])
      fun heq => by rw [← heq, List.take_append_drop]

/-- **What splits into fitting parts is matched.** -/
theorem exists_matchGroups {gs : List Group} {parts : List Text} (h : Fits gs parts) :
    ∃ parts', matchGroups gs parts.flatten = some parts' := by
  rw [← Option.isSome_iff_exists]
  induction h with
  | nil => rfl
  | @cons g part gs parts htakes _ ih =>
    rw [matchGroups, List.findSome?_isSome_iff]
    refine ⟨part.length, Group.mem_lengths.mpr ⟨by simp, ?_⟩, ?_⟩
    · rwa [List.flatten_cons, List.take_left]
    · rwa [List.flatten_cons, List.drop_left, Option.isSome_map]

end DocFlow.Pattern
