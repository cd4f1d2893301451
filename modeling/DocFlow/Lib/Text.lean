import DocFlow.Lib.PyString
import Mathlib.Data.List.Lemmas

/-!
# Texts as lists of characters

The string methods of the source on lists of code points, for the functions that walk over a text
character by character, and what they leave of its `ink`, the characters that are not whitespace.

* `strip`, `rstrip`: the whitespace at the ends; `ink_strip`, `strip_blank_append`.
* `splitlines`: the lines without their line breaks; `ink_splitlines`.
* `splitPair`: `text.split("\n\n")` for any two characters; one character is `List.splitOn`.
* `replacePair`: `text.replace("\r\n", "\n")` for any two characters and their replacement.
* `kept`: `if part.strip(): parts.append(part.strip())`.
-/

namespace DocFlow

abbrev Text := List Char

namespace Text

open PyString (isSpace)

/-! ## Ink -/

/-- The characters that are not whitespace. -/
def ink (s : Text) : Text := s.filter fun c => !isSpace c

/-- The ink of several texts, one after the other. -/
def inks (parts : List Text) : Text := parts.flatMap ink

@[simp] theorem ink_nil : ink [] = [] := rfl

@[simp] theorem ink_append (s t : Text) : ink (s ++ t) = ink s ++ ink t := List.filter_append ..

@[simp] theorem inks_nil : inks [] = [] := rfl

@[simp] theorem inks_cons (s : Text) (parts : List Text) :
    inks (s :: parts) = ink s ++ inks parts := rfl

@[simp] theorem inks_append (parts parts' : List Text) :
    inks (parts ++ parts') = inks parts ++ inks parts' := List.flatMap_append

theorem ink_cons_of_space {c : Char} (h : isSpace c = true) (s : Text) : ink (c :: s) = ink s := by
  simp [ink, h]

theorem ink_cons (c : Char) (s : Text) : ink (c :: s) = ink [c] ++ ink s :=
  ink_append [c] s

theorem ink_reverse (s : Text) : ink s.reverse = (ink s).reverse := List.filter_reverse ..

theorem ink_eq_nil {s : Text} : ink s = [] ↔ ∀ c ∈ s, isSpace c = true := by
  simp [ink, List.filter_eq_nil_iff]

theorem ink_dropWhile (s : Text) : ink (s.dropWhile isSpace) = ink s := by
  induction s with
  | nil => rfl
  | cons c s ih =>
    by_cases hc : isSpace c = true
    · rw [List.dropWhile_cons_of_pos hc, ih, ink_cons_of_space hc]
    · rw [List.dropWhile_cons_of_neg hc]

/-! ## Whitespace at the ends -/

/-- `s.rstrip()`. -/
def rstrip (s : Text) : Text := (s.reverse.dropWhile isSpace).reverse

/-- `s.strip()`. -/
def strip (s : Text) : Text := rstrip (s.dropWhile isSpace)

@[simp] theorem ink_rstrip (s : Text) : ink (rstrip s) = ink s := by
  rw [rstrip, ink_reverse, ink_dropWhile, ink_reverse, List.reverse_reverse]

@[simp] theorem ink_strip (s : Text) : ink (strip s) = ink s := by
  rw [strip, ink_rstrip, ink_dropWhile]

theorem length_rstrip_le (s : Text) : (rstrip s).length ≤ s.length := by
  have h := (List.dropWhile_sublist isSpace (l := s.reverse)).length_le
  simpa [rstrip] using h

theorem length_strip_le (s : Text) : (strip s).length ≤ s.length :=
  (length_rstrip_le _).trans (List.dropWhile_sublist _).length_le

theorem mem_of_mem_strip {s : Text} {c : Char} (h : c ∈ strip s) : c ∈ s :=
  (List.dropWhile_sublist _).subset
    (List.mem_reverse.mp ((List.dropWhile_sublist _).subset (List.mem_reverse.mp h)))

theorem rstrip_eq_nil {s : Text} : rstrip s = [] ↔ ∀ c ∈ s, isSpace c = true := by
  rw [rstrip, List.reverse_eq_nil_iff, List.dropWhile_eq_nil_iff]
  simp

/-- Nothing is left of a blank text, and of no other. -/
theorem strip_eq_nil {s : Text} : strip s = [] ↔ ink s = [] := by
  rw [strip, rstrip_eq_nil, ← ink_eq_nil, ink_dropWhile]

theorem strip_blank_append {w : Text} (hw : ∀ c ∈ w, isSpace c = true) (s : Text) :
    strip (w ++ s) = strip s := by
  rw [strip, List.dropWhile_append_of_pos hw, strip]

theorem rstrip_append_blank {w : Text} (hw : ∀ c ∈ w, isSpace c = true) (s : Text) :
    rstrip (s ++ w) = rstrip s := by
  rw [rstrip, List.reverse_append, List.dropWhile_append_of_pos (by simpa using hw), rstrip]

theorem strip_append_blank {w : Text} (hw : ∀ c ∈ w, isSpace c = true) (s : Text) :
    strip (s ++ w) = strip s := by
  by_cases hs : ∀ c ∈ s, isSpace c = true
  · have hall : ∀ c ∈ s ++ w, isSpace c = true := by
      intro c hc
      exact (List.mem_append.mp hc).elim (hs c) (hw c)
    rw [strip_eq_nil.mpr (ink_eq_nil.mpr hall), strip_eq_nil.mpr (ink_eq_nil.mpr hs)]
  · have hne : s.dropWhile isSpace ≠ [] := fun h => hs (List.dropWhile_eq_nil_iff.mp h)
    rw [strip, List.dropWhile_append, if_neg (by simpa using hne), rstrip_append_blank hw, strip]

/-- What of a text that is kept is stripped, and a blank one is not kept. -/
def kept (s : Text) : List Text := if strip s = [] then [] else [strip s]

@[simp] theorem inks_kept (s : Text) : inks (kept s) = ink s := by
  unfold kept
  split
  · next h => rw [strip_eq_nil.mp h, inks_nil]
  · simp

theorem length_of_mem_kept {s t : Text} (h : t ∈ kept s) : t.length ≤ s.length := by
  unfold kept at h
  split at h
  · cases h
  · rw [List.mem_singleton.mp h]
    exact length_strip_le s

/-! ## Splitting -/

theorem ink_intercalate {sep : Text} (hsep : ink sep = []) (parts : List Text) :
    ink (sep.intercalate parts) = inks parts := by
  induction parts with
  | nil => rfl
  | cons s parts ih =>
    cases parts with
    | nil => simp [List.intercalate]
    | cons t parts =>
      rw [List.intercalate_cons_cons, ink_append, ink_append, hsep, ih, List.append_nil]
      rfl

/-- Splitting at whitespace loses no ink. -/
theorem inks_splitOn {sep : Char} (hsep : isSpace sep = true) (s : Text) :
    inks (s.splitOn sep) = ink s := by
  have hink : ink [sep] = [] := by simp [ink, hsep]
  rw [← ink_intercalate hink, List.intercalate_splitOn]

/-- Puts a character before the first part. -/
def consHead (c : Char) : List Text → List Text
  | [] => [[c]]
  | part :: parts => (c :: part) :: parts

theorem inks_consHead (c : Char) (parts : List Text) :
    inks (consHead c parts) = ink [c] ++ inks parts := by
  cases parts with
  | nil => simp [consHead]
  | cons part parts => simp [consHead, ink_cons c part]

/-- `s.split(a + b)`, for two characters. -/
def splitPair (a b : Char) : Text → List Text
  | [] => [[]]
  | [c] => [[c]]
  | c :: d :: s =>
    if c = a ∧ d = b then [] :: splitPair a b s else consHead c (splitPair a b (d :: s))

example : splitPair '\n' '\n' "a\n\nb\n\n\nc".toList = ["a".toList, "b".toList, "\nc".toList] := by
  decide

theorem inks_splitPair {a b : Char} (ha : isSpace a = true) (hb : isSpace b = true) (s : Text) :
    inks (splitPair a b s) = ink s := by
  induction s using splitPair.induct a b with
  | case1 => rfl
  | case2 c => simp [splitPair]
  | case3 c d s h ih =>
    obtain ⟨rfl, rfl⟩ := h
    rw [splitPair, if_pos ⟨rfl, rfl⟩, inks_cons, ih, ink_cons_of_space ha, ink_cons_of_space hb]
    rfl
  | case4 c d s h ih =>
    rw [splitPair, if_neg h, inks_consHead, ih]
    exact (ink_cons c _).symm

/-- `s.replace(a + b, r)`, for two characters and their replacement. -/
def replacePair (a b r : Char) : Text → Text
  | [] => []
  | [c] => [c]
  | c :: d :: s =>
    if c = a ∧ d = b then r :: replacePair a b r s else c :: replacePair a b r (d :: s)

/-- `s.replace(a, r)`, for one character. -/
def replaceChar (a r : Char) (s : Text) : Text := s.map fun c => if c = a then r else c

theorem ink_replacePair {a b r : Char} (ha : isSpace a = true) (hb : isSpace b = true)
    (hr : isSpace r = true) (s : Text) : ink (replacePair a b r s) = ink s := by
  induction s using replacePair.induct a b with
  | case1 => rfl
  | case2 c => rfl
  | case3 c d s h ih =>
    obtain ⟨rfl, rfl⟩ := h
    rw [replacePair, if_pos ⟨rfl, rfl⟩, ink_cons_of_space hr, ih, ink_cons_of_space ha,
      ink_cons_of_space hb]
  | case4 c d s h ih => rw [replacePair, if_neg h, ink_cons, ih, ← ink_cons]

theorem ink_replaceChar {a r : Char} (ha : isSpace a = true) (hr : isSpace r = true) (s : Text) :
    ink (replaceChar a r s) = ink s := by
  induction s with
  | nil => rfl
  | cons c s ih =>
    have hcons : replaceChar a r (c :: s) = (if c = a then r else c) :: replaceChar a r s := rfl
    rw [hcons]
    by_cases hc : c = a
    · subst hc
      rw [if_pos rfl, ink_cons_of_space hr, ih, ink_cons_of_space ha]
    · rw [if_neg hc, ink_cons, ih, ← ink_cons]

theorem length_replacePair_le (a b r : Char) (s : Text) : (replacePair a b r s).length ≤ s.length := by
  induction s using replacePair.induct a b with
  | case1 => exact le_rfl
  | case2 c => exact le_rfl
  | case3 c d s h ih =>
    rw [replacePair, if_pos h]
    simp only [List.length_cons]
    omega
  | case4 c d s h ih =>
    rw [replacePair, if_neg h]
    simp only [List.length_cons] at ih ⊢
    omega

theorem replacePair_of_not_mem {a b r : Char} {s : Text} (h : a ∉ s) : replacePair a b r s = s := by
  induction s using replacePair.induct a b with
  | case1 => rfl
  | case2 c => rfl
  | case3 c d s heq ih => exact absurd (heq.1 ▸ List.mem_cons_self) h
  | case4 c d s heq ih => rw [replacePair, if_neg heq, ih fun hmem => h (List.mem_cons_of_mem c hmem)]

/-- The last line is complete. -/
def Closed (s : Text) : Prop := ∀ c ∈ s.getLast?, c = '\n'

theorem closed_nil : Closed [] := by simp [Closed]

theorem closed_append_newline (s : Text) : Closed (s ++ ['\n']) := by simp [Closed]

theorem Closed.tail {c : Char} {s : Text} (h : Closed (c :: s)) : Closed s := by
  cases s with
  | nil => exact closed_nil
  | cons d s =>
    rw [Closed, List.getLast?_cons_cons] at h
    exact h

theorem Closed.eq_newline {c : Char} (h : Closed [c]) : c = '\n' := h c (by simp)

theorem Closed.append {s t : Text} (hs : Closed s) (ht : Closed t) : Closed (s ++ t) := by
  intro c hc
  rw [List.getLast?_append] at hc
  cases hlast : t.getLast? with
  | none =>
    rw [hlast, Option.none_or] at hc
    exact hs c hc
  | some d =>
    rw [hlast, Option.some_or] at hc
    exact Option.some.inj hc ▸ ht d hlast

/-- Behind a complete line a pair begins with its first character. -/
theorem replacePair_append {a r : Char} (ha : a ≠ '\n') {s : Text} (hs : Closed s) (t : Text) :
    replacePair a '\n' r (s ++ t) = replacePair a '\n' r s ++ replacePair a '\n' r t := by
  induction s using replacePair.induct a '\n' with
  | case1 => rfl
  | case2 c =>
    rw [hs.eq_newline]
    cases t with
    | nil => rfl
    | cons d t =>
      have hstep : replacePair a '\n' r ('\n' :: d :: t) = '\n' :: replacePair a '\n' r (d :: t) := by
        rw [replacePair, if_neg fun h => ha h.1.symm]
      exact hstep
  | case3 c d s h ih =>
    show replacePair a '\n' r (c :: d :: (s ++ t)) = _
    rw [replacePair, if_pos h, replacePair, if_pos h, ih hs.tail.tail, List.cons_append]
  | case4 c d s h ih =>
    have htail := ih hs.tail
    show replacePair a '\n' r (c :: d :: (s ++ t)) = _
    rw [List.cons_append] at htail
    rw [replacePair, if_neg h, replacePair, if_neg h, htail, List.cons_append]

theorem closed_replacePair {a : Char} {s : Text} (hs : Closed s) :
    Closed (replacePair a '\n' '\n' s) := by
  induction s using replacePair.induct a '\n' with
  | case1 => exact closed_nil
  | case2 c => exact hs
  | case3 c d s h ih =>
    rw [replacePair, if_pos h]
    exact Closed.append (s := ['\n']) (closed_append_newline []) (ih hs.tail.tail)
  | case4 c d s h ih =>
    have htail := ih hs.tail
    rw [replacePair, if_neg h]
    cases hrest : replacePair a '\n' '\n' (d :: s) with
    | nil =>
      -- a text with a character stays one
      cases s with
      | nil => cases hrest
      | cons e s =>
        rw [replacePair] at hrest
        split at hrest <;> cases hrest
    | cons e rest =>
      rw [hrest] at htail
      rw [Closed, List.getLast?_cons_cons]
      exact htail

theorem closed_replaceChar {a : Char} {s : Text} (hs : Closed s) : Closed (replaceChar a '\n' s) := by
  intro c hc
  rw [replaceChar, List.getLast?_map] at hc
  obtain ⟨d, hd, rfl⟩ := Option.map_eq_some_iff.mp hc
  rw [hs d hd]
  exact ite_self _

/-! ## Joining -/

theorem mem_intercalate {sep : Text} {parts : List Text} {c : Char}
    (h : c ∈ sep.intercalate parts) : c ∈ sep ∨ ∃ part ∈ parts, c ∈ part := by
  induction parts with
  | nil => simp [List.intercalate] at h
  | cons part parts ih =>
    cases parts with
    | nil => exact .inr ⟨part, List.mem_cons_self, by simpa [List.intercalate] using h⟩
    | cons next parts =>
      rw [List.intercalate_cons_cons] at h
      obtain h | h := List.mem_append.mp h
      · obtain h | h := List.mem_append.mp h
        · exact .inr ⟨part, List.mem_cons_self, h⟩
        · exact .inl h
      · exact (ih h).imp_right fun ⟨p, hp, hc⟩ => ⟨p, List.mem_cons_of_mem _ hp, hc⟩

theorem mem_intercalate_of_mem (sep : Text) {parts : List Text} {part : Text} {c : Char}
    (hpart : part ∈ parts) (hc : c ∈ part) : c ∈ sep.intercalate parts := by
  induction parts with
  | nil => cases hpart
  | cons first parts ih =>
    cases parts with
    | nil => simpa [List.intercalate, List.mem_singleton.mp hpart] using hc
    | cons next parts =>
      rw [List.intercalate_cons_cons]
      obtain rfl | hpart := List.mem_cons.mp hpart
      · exact List.mem_append_left _ (List.mem_append_left _ hc)
      · exact List.mem_append_right _ (ih hpart)

/-! ## Lines -/

/-- The characters that end a line for `splitlines`. -/
def isLineBreak (c : Char) : Bool :=
  let n := c.toNat
  (0x0A ≤ n && n ≤ 0x0D) || (0x1C ≤ n && n ≤ 0x1E) || n = 0x85 || n = 0x2028 || n = 0x2029

/-- `s.splitlines()`; a carriage return before a newline breaks no line of its own. -/
def splitlines : Text → List Text
  | [] => []
  | c :: s =>
    if c = '\r' ∧ s.head? = some '\n' then splitlines s
    else if isLineBreak c = true then [] :: splitlines s
    else consHead c (splitlines s)

example : splitlines "a\r\nb\u000c\n\nc".toList =
    ["a".toList, "b".toList, [], [], "c".toList] := by
  decide

/-- No line has a line break in it. -/
theorem not_isLineBreak_of_mem {s line : Text} (h : line ∈ splitlines s) {c : Char} (hc : c ∈ line) :
    isLineBreak c = false := by
  induction s generalizing line with
  | nil => cases h
  | cons d s ih =>
    by_cases hreturn : d = '\r' ∧ s.head? = some '\n'
    · rw [splitlines, if_pos hreturn] at h
      exact ih h hc
    · by_cases hbreak : isLineBreak d = true
      · rw [splitlines, if_neg hreturn, if_pos hbreak, List.mem_cons] at h
        obtain rfl | h := h
        · cases hc
        · exact ih h hc
      · rw [splitlines, if_neg hreturn, if_neg hbreak] at h
        cases hlines : splitlines s with
        | nil =>
          rw [hlines, consHead, List.mem_singleton] at h
          subst h
          rw [List.mem_singleton.mp hc]
          exact Bool.not_eq_true _ ▸ hbreak
        | cons first rest =>
          rw [hlines] at ih h
          rw [consHead, List.mem_cons] at h
          obtain rfl | h := h
          · obtain rfl | hc := List.mem_cons.mp hc
            · exact Bool.not_eq_true _ ▸ hbreak
            · exact ih List.mem_cons_self hc
          · exact ih (List.mem_cons_of_mem _ h) hc

/-! ## Bytes -/

/-- `s.encode("utf-8")`. -/
def toUtf8 (s : Text) : ByteArray := (String.ofList s).toUTF8

/-- `b.decode("utf-8")`. -/
def ofUtf8 (b : ByteArray) : Option Text := b.utf8Decode?.map Array.toList

theorem toUtf8_eq (s : Text) : toUtf8 s = s.utf8Encode := rfl

theorem ofUtf8_toUtf8 (s : Text) : ofUtf8 (toUtf8 s) = some s := by
  rw [ofUtf8, toUtf8_eq, List.utf8Decode?_utf8Encode, Option.map_some, List.toList_toArray]

theorem toUtf8_append (s t : Text) : toUtf8 (s ++ t) = toUtf8 s ++ toUtf8 t :=
  List.utf8Encode_append

end Text

end DocFlow
