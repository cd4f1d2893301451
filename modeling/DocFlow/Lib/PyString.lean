import Mathlib.Data.List.Basic
import Mathlib.Data.List.TakeDrop
import Mathlib.Data.List.TakeWhile

/-!
# Python strings

The string methods of the source on Lean's strings, both of which are sequences of code points.

* `strip` removes the characters for which `str.isspace` holds from both ends, and
  `strip_eq_empty` says when nothing is left.
* `partition` cuts a string at the first occurrence of a character (`partition_join`).
* `fromKeys` is `list(dict.fromkeys(xs))`: the first occurrence of each element, in order.
-/

namespace DocFlow.PyString

/-- `str.isspace` of one character. -/
def isSpace (c : Char) : Bool :=
  let n := c.toNat
  (0x09 ≤ n && n ≤ 0x0D) || (0x1C ≤ n && n ≤ 0x20) || n = 0x85 || n = 0xA0 || n = 0x1680 ||
    (0x2000 ≤ n && n ≤ 0x200A) || n = 0x2028 || n = 0x2029 || n = 0x202F || n = 0x205F ||
    n = 0x3000

/-- `s.strip()`. -/
def strip (s : String) : String :=
  String.ofList (((s.toList.dropWhile isSpace).reverse.dropWhile isSpace).reverse)

/-- `not s.strip()`. -/
def isBlank (s : String) : Bool := s.toList.all isSpace

/-- **Nothing is left of a blank string**, and of no other. -/
theorem strip_eq_empty {s : String} : strip s = "" ↔ isBlank s = true := by
  have hofList : ∀ l : List Char, String.ofList l = "" ↔ l = [] := by
    intro l
    rw [← String.toList_inj, String.toList_ofList]
    rfl
  rw [strip, hofList, List.reverse_eq_nil_iff, List.dropWhile_eq_nil_iff, isBlank, List.all_eq_true]
  constructor
  · intro h c hc
    by_cases hdrop : c ∈ s.toList.dropWhile isSpace
    · exact h c (List.mem_reverse.mpr hdrop)
    · rw [← List.takeWhile_append_dropWhile (p := isSpace) (l := s.toList)] at hc
      rcases List.mem_append.mp hc with hc | hc
      · exact List.mem_takeWhile_imp hc
      · exact absurd hc hdrop
  · intro h c hc
    exact h c ((List.dropWhile_sublist _).subset (List.mem_reverse.mp hc))

example : strip " \ta b\n" = "a b" := by decide

/-- `s.partition(sep)`; the second part is the separator, when it occurs. -/
def partition (s : String) (sep : Char) : String × Option Char × String :=
  let (before, rest) := s.toList.span (· ≠ sep)
  (String.ofList before, rest.head?, String.ofList rest.tail)

example : partition "document:7:8" ':' = ("document", some ':', "7:8") := by decide

/-- The three parts make up the string. -/
theorem partition_join {s before after : String} {sep c : Char}
    (h : partition s sep = (before, some c, after)) :
    c = sep ∧ before ++ String.singleton sep ++ after = s := by
  simp only [partition, List.span_eq_takeWhile_dropWhile, Prod.mk.injEq] at h
  obtain ⟨rfl, hhead, rfl⟩ := h
  cases hrest : s.toList.dropWhile (· ≠ sep) with
  | nil =>
    rw [hrest] at hhead
    cases hhead
  | cons d rest =>
    rw [hrest] at hhead
    obtain rfl := Option.some.inj hhead
    have hne : s.toList.dropWhile (fun x => decide (x ≠ sep)) ≠ [] := by
      rw [hrest]
      exact List.cons_ne_nil d rest
    have hstop := List.head_dropWhile_not (fun x => decide (x ≠ sep)) hne
    simp only [hrest, List.head_cons] at hstop
    obtain rfl : d = sep := by simpa using hstop
    refine ⟨rfl, ?_⟩
    apply String.toList_injective
    have hjoin := List.takeWhile_append_dropWhile (p := fun x => decide (x ≠ d)) (l := s.toList)
    rw [hrest] at hjoin
    simpa [String.toList_append] using hjoin

/-- A string is cut at its first separator. -/
theorem partition_append {before : String} {sep : Char} (h : sep ∉ before.toList) (after : String) :
    partition (before ++ String.singleton sep ++ after) sep = (before, some sep, after) := by
  have hne : ∀ c ∈ before.toList, decide (c ≠ sep) = true := by
    intro c hc
    have : c ≠ sep := fun e => h (e ▸ hc)
    simpa using this
  have hlist : (before ++ String.singleton sep ++ after).toList =
      before.toList ++ sep :: after.toList := by simp [String.toList_append]
  rw [partition, hlist, List.span_eq_takeWhile_dropWhile, List.takeWhile_append_of_pos hne,
    List.dropWhile_append_of_pos hne]
  simp

/-! ## Repeated elements -/

section FromKeys

universe u

variable {α : Type u} [DecidableEq α]

/-- `list(dict.fromkeys(xs))`. -/
def fromKeys (xs : List α) : List α := xs.eraseDups

@[simp] theorem mem_fromKeys {xs : List α} {a : α} : a ∈ fromKeys xs ↔ a ∈ xs :=
  List.mem_eraseDups

theorem nodup_eraseDups_of_length (n : Nat) : ∀ xs : List α, xs.length ≤ n → xs.eraseDups.Nodup := by
  induction n with
  | zero =>
    intro xs hlen
    rw [List.length_eq_zero_iff.mp (Nat.le_zero.mp hlen)]
    simp
  | succ n ih =>
    intro xs hlen
    cases xs with
    | nil => simp
    | cons a xs =>
      rw [List.eraseDups_cons, List.nodup_cons]
      constructor
      · rw [List.mem_eraseDups, List.mem_filter]
        simp
      · apply ih
        have hfilter := List.length_filter_le (fun b => !b == a) xs
        simp only [List.length_cons] at hlen
        omega

theorem nodup_fromKeys (xs : List α) : (fromKeys xs).Nodup :=
  nodup_eraseDups_of_length xs.length xs le_rfl

theorem fromKeys_of_nodup {xs : List α} (h : xs.Nodup) : fromKeys xs = xs := by
  induction xs with
  | nil => rfl
  | cons a xs ih =>
    obtain ⟨ha, hxs⟩ := List.nodup_cons.mp h
    have hfilter : xs.filter (fun b => !b == a) = xs := by
      rw [List.filter_eq_self]
      intro b hb
      have hne : b ≠ a := fun hba => ha (hba ▸ hb)
      simp [hne]
    rw [fromKeys, List.eraseDups_cons, hfilter]
    exact congrArg (a :: ·) (ih hxs)

theorem fromKeys_eq_nil {xs : List α} : fromKeys xs = [] ↔ xs = [] := by
  constructor
  · intro h
    rw [List.eq_nil_iff_forall_not_mem]
    intro a ha
    have hin := mem_fromKeys.mpr ha
    rw [h] at hin
    cases hin
  · rintro rfl
    rfl

end FromKeys

end DocFlow.PyString
