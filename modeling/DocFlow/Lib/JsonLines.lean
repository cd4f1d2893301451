import DocFlow.Lib.JsonLoads

/-!
# JSON on a line

`json.dumps(value, ensure_ascii=False)`: a blank stands behind each comma and colon, the characters of
a string are written as they are, apart from the quote, the backslash and the control characters, and
a `float` is written as `repr` does, with an exponent when it is large or small.

* `readString_raw`: a string without surrogates is read back.
* `readsFloat_spaced`: a number is read back, as the decimal that is written.
* `printable_write`: there is no line break in the text of a value.
-/

namespace DocFlow.Json

/-! ## Strings -/

/-- A string that has a UTF-8 form. -/
def Encodable (s : Str) : Prop := ∀ c ∈ s.codes, isHigh c = false ∧ isLow c = false

instance (s : Str) : Decidable (Encodable s) := inferInstanceAs (Decidable (∀ _ ∈ _, _ ∧ _))

theorem neZero_units : NeZero 65536 := ⟨by decide⟩

/-- The unit that a character is written as. -/
def rawUnit (c : Nat) : StrUnit :=
  if c < 32 ∧ shortEscape c = none then .hex (@Fin.ofNat 65536 neZero_units c)
  else .char (Char.ofNat c)

theorem toNat_ofNat_of_valid {c : Nat} (hc : c < 0x110000) (hhigh : isHigh c = false)
    (hlow : isLow c = false) : (Char.ofNat c).toNat = c := by
  simp only [isHigh, isLow, Bool.and_eq_false_iff, decide_eq_false_iff_not] at hhigh hlow
  have h : c.isValidChar := by
    by_cases hlt : c < 0xD800
    · exact .inl hlt
    · exact .inr ⟨by omega, hc⟩
  rw [Char.ofNat, dif_pos h]
  rfl

theorem code_rawUnit {c : Nat} (hc : c < 0x110000) (hhigh : isHigh c = false)
    (hlow : isLow c = false) : (rawUnit c).code = c := by
  unfold rawUnit
  by_cases hcontrol : c < 32 ∧ shortEscape c = none
  · rw [if_pos hcontrol]
    exact Nat.mod_eq_of_lt (by omega)
  · rw [if_neg hcontrol]
    exact toNat_ofNat_of_valid hc hhigh hlow

theorem scanUnits_escapeRaw {c : Nat} (hc : c < 0x110000) (hhigh : isHigh c = false)
    (hlow : isLow c = false) (s : Text) :
    scanUnits (escape false c ++ s) = consUnit (rawUnit c) (scanUnits s) := by
  by_cases hshort : c = 34 ∨ c = 92 ∨ c = 10 ∨ c = 13 ∨ c = 9 ∨ c = 12 ∨ c = 8
  · obtain rfl | rfl | rfl | rfl | rfl | rfl | rfl := hshort <;> rfl
  · push Not at hshort
    have hnone : shortEscape c = none := by
      simp [shortEscape, hshort]
    simp only [escape, rawUnit, hnone, and_true]
    by_cases hprint : 32 ≤ c
    · have hto := toNat_ofNat_of_valid hc hhigh hlow
      rw [if_pos ⟨hprint, .inl trivial⟩, if_neg (by omega)]
      refine scanUnits_char ?_ ?_ (by omega) s
      · intro h
        rw [h] at hto
        exact hshort.1 hto.symm
      · intro h
        rw [h] at hto
        exact hshort.2.1 hto.symm
    · rw [if_neg (fun h => hprint h.1), if_pos (by omega), if_pos (by omega)]
      exact scanUnits_unicodeEscape (by omega) s

theorem joinUnits_of_not_high {us : List StrUnit} (h : ∀ u ∈ us, isHigh u.code = false) :
    joinUnits us = us.map StrUnit.code := by
  induction us with
  | nil => rfl
  | cons u us ih =>
    rw [List.forall_mem_cons] at h
    rw [joinUnits_cons u, ih h.2, List.map_cons]
    intro v _ hpair
    rw [h.1] at hpair
    cases hpair.1

/-- **A string without surrogates is read back.** -/
theorem readString_raw {s : Str} (h : Encodable s) (rest : Text) :
    readString (s.codes.flatMap (escape false) ++ '"' :: rest) = some (s, rest) := by
  have hscan : ∀ codes : Codes, (∀ c ∈ codes, c < 0x110000) →
      (∀ c ∈ codes, isHigh c = false ∧ isLow c = false) →
      scanUnits (codes.flatMap (escape false) ++ '"' :: rest) = some (codes.map rawUnit, rest) := by
    intro codes hbound hplain
    induction codes with
    | nil => rfl
    | cons c codes ih =>
      obtain ⟨hc, hbound⟩ := List.forall_mem_cons.mp hbound
      obtain ⟨hp, hplain⟩ := List.forall_mem_cons.mp hplain
      rw [List.flatMap_cons, List.append_assoc, scanUnits_escapeRaw hc hp.1 hp.2, ih hbound hplain]
      rfl
  have hcode : ∀ c ∈ s.codes, (rawUnit c).code = c := fun c hc =>
    code_rawUnit (s.bound c hc) (h c hc).1 (h c hc).2
  have hjoin : joinUnits (s.codes.map rawUnit) = s.codes := by
    rw [joinUnits_of_not_high, List.map_map]
    · exact (List.map_congr_left hcode).trans (List.map_id _)
    · intro u hu
      obtain ⟨c, hc, rfl⟩ := List.mem_map.mp hu
      rw [hcode c hc]
      exact (h c hc).1
  rw [readString, hscan s.codes s.bound h, Option.map_some]
  exact congrArg some (Prod.ext (Str.ext hjoin) rfl)

/-! ## Numbers -/

/-- Zeros before a number. -/
def padded (n : Nat) (ds : Text) : Text := List.replicate (n - ds.length) '0' ++ ds

/-- A number with so many digits behind the point. -/
def fixed (mantissa places : Nat) : Text :=
  let ds := padded (places + 1) (decimal mantissa)
  ds.take (ds.length - places) ++ '.' :: ds.drop (ds.length - places)

/-- A number with one digit before the point. -/
def scientific (mantissa : Nat) (exponent : Int) : Text :=
  let ds := decimal mantissa
  let x := exponent + (ds.length - 1 : Nat)
  ds.take 1 ++ ((if ds.tail = [] then [] else '.' :: ds.tail) ++
    'e' :: (if x < 0 then '-' else '+') :: padded 2 (decimal x.natAbs))

/-- `float.__repr__`. -/
def floatText (negative : Bool) (mantissa : Nat) (exponent : Int) : Text :=
  (if negative then ['-'] else []) ++
    if -4 < (decimal mantissa).length + exponent ∧ (decimal mantissa).length + exponent ≤ 16 then
      if exponent < 0 then fixed mantissa exponent.natAbs
      else fixed (mantissa * 10 ^ (exponent.natAbs + 1)) 1
    else scientific mantissa exponent

example : floatText true 1000 (-1) = "-100.0".toList := by decide +kernel

example : floatText false 15 (-6) = "1.5e-05".toList := by decide +kernel

/-- The decimal is one that `repr` writes: only a large number has no digit behind the point. -/
def Written (mantissa : Nat) (exponent : Int) : Prop :=
  exponent < 0 ∨ 16 < (decimal mantissa).length + exponent

instance (mantissa : Nat) (exponent : Int) : Decidable (Written mantissa exponent) :=
  inferInstanceAs (Decidable (_ ∨ _))

theorem digitsValue_padded (n : Nat) (ds : Text) : digitsValue (padded n ds) = digitsValue ds := by
  unfold padded
  generalize n - ds.length = k
  induction k with
  | zero => rfl
  | succ k ih =>
    rw [List.replicate_succ, List.cons_append]
    exact ih

theorem isDigit_of_mem_padded {n k : Nat} {c : Char} (h : c ∈ padded k (decimal n)) :
    c.isDigit = true := by
  obtain h | h := List.mem_append.mp h
  · rw [List.eq_of_mem_replicate h]
    rfl
  · exact isDigit_of_mem_decimal h

theorem length_padded (k : Nat) (ds : Text) : (padded k ds).length = max k ds.length := by
  unfold padded
  rw [List.length_append, List.length_replicate]
  omega

/-- The whole part of a number has no leading zero, but for zero itself. -/
theorem head_padded {n places : Nat} (hplaces : 0 < places)
    (h : (padded (places + 1) (decimal n)).head? = some '0') :
    (padded (places + 1) (decimal n)).length = places + 1 := by
  rw [length_padded]
  by_cases hlong : places + 1 < (decimal n).length
  · have hpad : padded (places + 1) (decimal n) = decimal n := by
      unfold padded
      rw [Nat.sub_eq_zero_of_le hlong.le]
      rfl
    rw [hpad] at h
    have hzero := head_decimal h
    rw [hzero] at hlong
    have hlength : (decimal 0).length = 1 := rfl
    omega
  · omega

/-- A number that is no integer, by its parts. -/
theorem readNumber_parts (negative : Bool) {whole behind afterFraction rest : Text}
    {fraction : Option Text} {exponent : Option Int} (hwhole : ∀ c ∈ whole, c.isDigit = true)
    (hne : whole ≠ []) (hzero : whole.head? = some '0' → whole.length = 1)
    (hbehind : ∀ c, behind.head? = some c → c.isDigit = false)
    (hfraction : readFraction behind = (fraction, afterFraction))
    (hexponent : readExponent afterFraction = (exponent, rest))
    (hfloat : ¬ (fraction = none ∧ exponent = none)) :
    readNumber negative (whole ++ behind) =
      some (.float negative (digitsValue (whole ++ fraction.getD []))
        (exponent.getD 0 - (fraction.getD []).length), rest) := by
  have hleading : (if whole.head? = some '0' then ['0'] else whole) = whole := by
    split
    · next hhead =>
      obtain ⟨c, rfl⟩ := List.length_eq_one_iff.mp (hzero hhead)
      exact congrArg (· :: []) (Option.some.inj hhead).symm
    · rfl
  unfold readNumber
  simp only [(span_digits hwhole hbehind).1, if_neg hne, hleading, List.drop_left', hfraction,
    hexponent, if_neg hfloat]

theorem readFraction_point {fraction rest : Text} (hdigits : ∀ c ∈ fraction, c.isDigit = true)
    (hne : fraction ≠ []) (hrest : ∀ c, rest.head? = some c → c.isDigit = false) :
    readFraction ('.' :: (fraction ++ rest)) = (some fraction, rest) := by
  rw [readFraction, (span_digits hdigits hrest).1, (span_digits hdigits hrest).2, if_neg hne]

theorem readNumber_fixed (negative : Bool) (mantissa : Nat) {places : Nat} (hplaces : 0 < places)
    {rest : Text} (h : Stops rest) :
    readNumber negative (fixed mantissa places ++ rest) =
      some (.float negative mantissa (-(places : Int)), rest) := by
  obtain ⟨ds, hds⟩ : ∃ ds, ds = padded (places + 1) (decimal mantissa) := ⟨_, rfl⟩
  have hdigits : ∀ c ∈ ds, c.isDigit = true := fun c hc => isDigit_of_mem_padded (hds ▸ hc)
  have hlength : places + 1 ≤ ds.length := by
    rw [hds, length_padded]
    omega
  have hvalue : digitsValue ds = mantissa := by
    rw [hds, digitsValue_padded, digitsValue_decimal]
  have hsplit := List.take_append_drop (ds.length - places) ds
  have htake : (ds.take (ds.length - places)).length = ds.length - places := by
    rw [List.length_take]
    omega
  have hdrop : (ds.drop (ds.length - places)).length = places := by
    rw [List.length_drop]
    omega
  have htakeNe : ds.take (ds.length - places) ≠ [] :=
    List.length_pos_iff.mp (by omega)
  have hdropNe : ds.drop (ds.length - places) ≠ [] :=
    List.length_pos_iff.mp (by omega)
  have hzero : (ds.take (ds.length - places)).head? = some '0' →
      (ds.take (ds.length - places)).length = 1 := by
    intro hhead
    have hdsHead : ds.head? = some '0' := by
      rw [← hsplit, List.head?_append, hhead]
      rfl
    rw [hds] at hdsHead
    have hone := head_padded hplaces hdsHead
    rw [← hds] at hone
    omega
  have hfraction := readFraction_point (fun c hc => hdigits c (List.mem_of_mem_drop hc)) hdropNe
    fun c hc => (h c hc).1
  have hread := readNumber_parts negative (fun c hc => hdigits c (List.mem_of_mem_take hc)) htakeNe
    hzero (fun c hc => by rw [← Option.some.inj hc]; rfl) hfraction h.readExponent
    fun hnone => by cases hnone.1
  rw [Option.getD_some, Option.getD_none, hsplit, hvalue, hdrop, zero_sub] at hread
  unfold fixed
  rw [← hds, List.append_assoc, List.cons_append]
  exact hread

/-- An exponent, and what stands behind it. -/
theorem readExponent_padded (x : Int) {rest : Text} (h : Stops rest) :
    readExponent ('e' :: (if x < 0 then '-' else '+') :: (padded 2 (decimal x.natAbs) ++ rest)) =
      (some x, rest) := by
  have hrun := span_digits (fun c => isDigit_of_mem_padded (n := x.natAbs) (k := 2)) fun c hc =>
    (h c hc).1
  have hne : padded 2 (decimal x.natAbs) ≠ [] := fun hnil => by
    have hlength := congrArg List.length hnil
    rw [length_padded, List.length_nil] at hlength
    omega
  have hvalue : digitsValue (padded 2 (decimal x.natAbs)) = x.natAbs := by
    rw [digitsValue_padded, digitsValue_decimal]
  rw [readExponent, if_pos (.inl rfl)]
  by_cases hx : x < 0
  · simp only [if_pos hx, List.head?_cons, true_or, if_true, List.tail_cons, hrun.1, hrun.2,
      if_neg hne, hvalue]
    congr 2
    omega
  · have hplus : ¬ some '+' = some '-' := by decide
    simp only [if_neg hx, List.head?_cons, hplus, false_or, if_true, List.tail_cons, hrun.1, hrun.2,
      if_neg hne, hvalue, if_false]
    congr 2
    omega

theorem readNumber_scientific (negative : Bool) (mantissa : Nat) (exponent : Int) {rest : Text}
    (h : Stops rest) :
    readNumber negative (scientific mantissa exponent ++ rest) =
      some (.float negative mantissa exponent, rest) := by
  obtain ⟨d, ds, hds⟩ := List.exists_cons_of_ne_nil (decimal_ne_nil mantissa)
  have hdigits : ∀ c ∈ d :: ds, c.isDigit = true := fun c hc => isDigit_of_mem_decimal (hds ▸ hc)
  rw [List.forall_mem_cons] at hdigits
  have hvalue : digitsValue (d :: ds) = mantissa := by rw [← hds, digitsValue_decimal]
  have hone : ∀ c ∈ [d], c.isDigit = true := List.forall_mem_singleton.mpr hdigits.1
  have hexponent := readExponent_padded (exponent + ((d :: ds).length - 1 : Nat)) h
  have hletter : ∀ t c, ('e' :: t : Text).head? = some c → c.isDigit = false := by
    rintro t c ⟨⟩
    rfl
  unfold scientific
  simp only [hds, List.take_succ_cons, List.take_zero, List.tail_cons, List.append_assoc,
    List.cons_append]
  by_cases hnil : ds = []
  · subst hnil
    have hfraction : ∀ t, readFraction ('e' :: t) = (none, 'e' :: t) := fun t => by
      rw [readFraction]
      exact fun t' heq => absurd (List.cons.inj heq).1 (by decide)
    have hread := readNumber_parts negative hone (List.cons_ne_nil _ _) (fun _ => rfl) (hletter _)
      (hfraction _) hexponent fun hnone => by cases hnone.2
    refine hread.trans ?_
    rw [Option.getD_none, Option.getD_some, List.append_nil, hvalue]
    simp
  · have hfraction : ∀ t, readFraction ('.' :: (ds ++ 'e' :: t)) = (some ds, 'e' :: t) := fun t =>
      readFraction_point hdigits.2 hnil (hletter t)
    have hread := readNumber_parts negative hone (List.cons_ne_nil _ _) (fun _ => rfl)
      (fun c hc => by rw [← Option.some.inj hc]; rfl) (hfraction _) hexponent
      fun hnone => by cases hnone.2
    rw [if_neg hnil]
    refine hread.trans ?_
    rw [Option.getD_some, Option.getD_some, List.singleton_append, hvalue, List.length_cons]
    congr 3
    omega

/-! ## The format -/

/-- `json.dumps(value, ensure_ascii=False)`. -/
def spaced : Format where
  gap := [' ']
  gap_blank := List.forall_mem_singleton.mpr rfl
  body s := s.codes.flatMap (escape false)
  float := floatText

theorem head_fixed (mantissa places : Nat) :
    ∃ c s, fixed mantissa places = c :: s ∧ c.isDigit = true := by
  have hlength := length_padded (places + 1) (decimal mantissa)
  obtain ⟨c, s, hcs⟩ := List.exists_cons_of_length_pos
    (l := padded (places + 1) (decimal mantissa)) (by omega)
  rw [hcs] at hlength
  obtain ⟨k, hk⟩ : ∃ k, (c :: s).length - places = k + 1 :=
    ⟨(c :: s).length - places - 1, by omega⟩
  unfold fixed
  rw [hcs]
  simp only [hk, List.take_succ_cons, List.cons_append]
  exact ⟨c, _, rfl, isDigit_of_mem_padded (hcs ▸ List.mem_cons_self)⟩

theorem head_scientific (mantissa : Nat) (exponent : Int) :
    ∃ c s, scientific mantissa exponent = c :: s ∧ c.isDigit = true := by
  obtain ⟨d, ds, hds⟩ := List.exists_cons_of_ne_nil (decimal_ne_nil mantissa)
  unfold scientific
  rw [hds]
  exact ⟨d, _, rfl, isDigit_of_mem_decimal (hds ▸ List.mem_cons_self)⟩

/-- **A number that `repr` wrote is read back.** -/
theorem readsFloat_spaced (negative : Bool) {mantissa : Nat} {exponent : Int}
    (h : Written mantissa exponent) : ReadsFloat spaced negative mantissa exponent := by
  -- the text without the sign
  have hbody : ∃ body, floatText negative mantissa exponent =
      (if negative then ['-'] else []) ++ body ∧
      (∃ c s, body = c :: s ∧ c.isDigit = true) ∧
      ∀ rest, Stops rest → readNumber negative (body ++ rest) =
        some (.float negative mantissa exponent, rest) := by
    refine ⟨_, rfl, ?_, ?_⟩
    · split
      · split
        · exact head_fixed _ _
        · exact head_fixed _ _
      · exact head_scientific _ _
    · intro rest hrest
      split
      · next hpoint =>
        have hneg : exponent < 0 := h.resolve_right (by omega)
        rw [if_pos hneg, readNumber_fixed negative mantissa (by omega) hrest]
        congr 3
        omega
      · exact readNumber_scientific negative mantissa exponent hrest
  obtain ⟨body, htext, ⟨c, s, rfl, hc⟩, hread⟩ := hbody
  constructor
  · show ∃ c s, floatText negative mantissa exponent = c :: s ∧ _
    rw [htext]
    cases negative with
    | true => exact ⟨_, _, rfl, .inl rfl⟩
    | false => exact ⟨_, _, rfl, .inr hc⟩
  · intro rest hrest
    show readScalar (floatText negative mantissa exponent ++ rest) = _
    obtain ⟨hminus, hplus⟩ := readScalar_number hc (s ++ rest)
    have hread := hread rest hrest
    rw [List.cons_append] at hread
    rw [htext, List.append_assoc, List.cons_append]
    cases negative with
    | true => exact hminus.trans hread
    | false => exact hplus.trans hread

/-- A value that can be written on a line and read back. -/
def Sound : Json → Prop := All Encodable fun _ => Written

theorem reads_spaced {v : Json} (h : v.Sound) : Reads spaced v :=
  All.imp (fun _ => readString_raw) (fun negative _ _ => readsFloat_spaced negative) v h

/-- `line.encode("utf-8")` of the text of a value does not fail. -/
def encodes : Json → Bool
  | .str s => decide (Encodable s)
  | .arr items => encodesItems items
  | .obj members => encodesMembers members
  | _ => true
where
  encodesItems : List Json → Bool
    | [] => true
    | v :: items => encodes v && encodesItems items
  encodesMembers : List (Str × Json) → Bool
    | [] => true
    | (k, v) :: members => decide (Encodable k) && encodes v && encodesMembers members

mutual

/-- A value that can be read back can be encoded. -/
theorem encodes_of_sound (v : Json) (h : v.Sound) : encodes v = true := by
  match v with
  | .null => rfl
  | .bool _ => rfl
  | .int _ => rfl
  | .float .. => rfl
  | .str s => exact decide_eq_true h
  | .arr items => exact encodesItems_of_sound items h
  | .obj members => exact encodesMembers_of_sound members h

theorem encodesItems_of_sound (items : List Json)
    (h : All.AllItems Encodable (fun _ => Written) items) : encodes.encodesItems items = true := by
  match items with
  | [] => rfl
  | v :: items =>
    rw [encodes.encodesItems, encodes_of_sound v h.1, encodesItems_of_sound items h.2]
    rfl

theorem encodesMembers_of_sound (members : List (Str × Json))
    (h : All.AllMembers Encodable (fun _ => Written) members) :
    encodes.encodesMembers members = true := by
  match members with
  | [] => rfl
  | (k, v) :: members =>
    rw [encodes.encodesMembers, decide_eq_true h.1, encodes_of_sound v h.2.1,
      encodesMembers_of_sound members h.2.2]
    rfl

end

/-! ## No line breaks -/

/-- There is no control character in the text. -/
def Printable (s : Text) : Prop := ∀ c ∈ s, 32 ≤ c.toNat

theorem printable_nil : Printable [] := List.forall_mem_nil _

theorem printable_cons {c : Char} {s : Text} :
    Printable (c :: s) ↔ 32 ≤ c.toNat ∧ Printable s := List.forall_mem_cons

theorem printable_append {s t : Text} : Printable (s ++ t) ↔ Printable s ∧ Printable t :=
  List.forall_mem_append

theorem printable_of_all {s : Text} (h : (s.all fun c => 32 ≤ c.toNat) = true) : Printable s :=
  fun c hc => of_decide_eq_true (List.all_eq_true.mp h c hc)

theorem printable_of_digits {s : Text} (h : ∀ c ∈ s, c.isDigit = true) : Printable s := by
  intro c hc
  have hdigit := h c hc
  rw [Char.isDigit, Bool.and_eq_true, decide_eq_true_eq, decide_eq_true_eq] at hdigit
  have hle : '0'.toNat ≤ c.toNat := hdigit.1
  have hzero : '0'.toNat = 48 := rfl
  omega

theorem printable_decimal (n : Nat) : Printable (decimal n) :=
  printable_of_digits fun _ => isDigit_of_mem_decimal

theorem printable_padded (k n : Nat) : Printable (padded k (decimal n)) :=
  printable_of_digits fun _ => isDigit_of_mem_padded

theorem printable_fixed (mantissa places : Nat) : Printable (fixed mantissa places) := by
  have hds := printable_padded (places + 1) mantissa
  unfold fixed
  simp only [printable_append, printable_cons]
  exact ⟨fun c hc => hds c (List.mem_of_mem_take hc), by decide,
    fun c hc => hds c (List.mem_of_mem_drop hc)⟩

theorem printable_scientific (mantissa : Nat) (exponent : Int) :
    Printable (scientific mantissa exponent) := by
  have hds := printable_decimal mantissa
  unfold scientific
  simp only [printable_append, printable_cons]
  refine ⟨fun c hc => hds c (List.mem_of_mem_take hc), ?_, by decide, ?_, printable_padded _ _⟩
  · split
    · exact printable_nil
    · exact printable_cons.mpr ⟨by decide, fun c hc => hds c (List.mem_of_mem_tail hc)⟩
  · split <;> decide

theorem printable_floatText (negative : Bool) (mantissa : Nat) (exponent : Int) :
    Printable (floatText negative mantissa exponent) := by
  refine printable_append.mpr ⟨?_, ?_⟩
  · split
    · exact printable_cons.mpr ⟨by decide, printable_nil⟩
    · exact printable_nil
  · split
    · split
      · exact printable_fixed _ _
      · exact printable_fixed _ _
    · exact printable_scientific _ _

theorem printable_decimalInt (n : Int) : Printable (decimalInt n) := by
  unfold decimalInt
  split
  · exact printable_cons.mpr ⟨by decide, printable_decimal _⟩
  · exact printable_decimal _

theorem printable_unicodeEscape (c : Nat) : Printable (unicodeEscape c) := by
  have hhex : ∀ d < 16, 32 ≤ (hexDigit d).toNat := by decide
  have hdigit : ∀ n : Nat, 32 ≤ (hexDigit (n % 16)).toNat := fun n =>
    hhex _ (Nat.mod_lt n (by omega))
  unfold unicodeEscape
  simp only [printable_cons]
  exact ⟨by decide, by decide, hdigit _, hdigit _, hdigit _, hdigit _, printable_nil⟩

theorem printable_escape {c : Nat} (hc : c < 0x110000) (hhigh : isHigh c = false)
    (hlow : isLow c = false) : Printable (escape false c) := by
  unfold escape
  split
  · next e he =>
    refine printable_cons.mpr ⟨by decide, printable_cons.mpr ⟨?_, printable_nil⟩⟩
    unfold shortEscape at he
    repeat' split at he
    all_goals first
      | cases he; decide
      | cases he
  · split
    · next hprint =>
      refine printable_cons.mpr ⟨?_, printable_nil⟩
      rw [toNat_ofNat_of_valid hc hhigh hlow]
      exact hprint.1
    · split
      · exact printable_unicodeEscape _
      · exact printable_append.mpr ⟨printable_unicodeEscape _, printable_unicodeEscape _⟩

theorem printable_body {s : Str} (h : Encodable s) : Printable (spaced.body s) := by
  intro c hc
  obtain ⟨code, hcode, hmem⟩ := List.mem_flatMap.mp hc
  exact printable_escape (s.bound code hcode) (h code hcode).1 (h code hcode).2 c hmem

mutual

/-- **There is no line break in the text of a value.** -/
theorem printable_write (v : Json) (h : v.Sound) : Printable (write spaced v) := by
  match v with
  | .null => exact printable_of_all rfl
  | .bool true => exact printable_of_all rfl
  | .bool false => exact printable_of_all rfl
  | .int n => exact printable_decimalInt n
  | .float negative mantissa exponent => exact printable_floatText negative mantissa exponent
  | .str s =>
    simp only [write, printable_cons, printable_append]
    exact ⟨by decide, printable_body h, by decide, printable_nil⟩
  | .arr [] =>
    simp only [write, printable_cons]
    exact ⟨by decide, by decide, printable_nil⟩
  | .arr (v :: items) =>
    simp only [write, printable_cons, printable_append]
    exact ⟨by decide, printable_write v h.1, printable_writeItems items h.2⟩
  | .obj [] =>
    simp only [write, printable_cons]
    exact ⟨by decide, by decide, printable_nil⟩
  | .obj ((k, v) :: members) =>
    simp only [write, printable_cons, printable_append]
    exact ⟨by decide, by decide, printable_body h.1, by decide, by decide,
      printable_of_all rfl, printable_write v h.2.1,
      printable_writeMembers members h.2.2⟩

theorem printable_writeItems (items : List Json)
    (h : All.AllItems Encodable (fun _ => Written) items) :
    Printable (write.writeItems spaced items) := by
  match items with
  | [] =>
    simp only [write.writeItems, printable_cons]
    exact ⟨by decide, printable_nil⟩
  | v :: items =>
    simp only [write.writeItems, printable_cons, printable_append]
    exact ⟨by decide, printable_of_all rfl, printable_write v h.1,
      printable_writeItems items h.2⟩

theorem printable_writeMembers (members : List (Str × Json))
    (h : All.AllMembers Encodable (fun _ => Written) members) :
    Printable (write.writeMembers spaced members) := by
  match members with
  | [] =>
    simp only [write.writeMembers, printable_cons]
    exact ⟨by decide, printable_nil⟩
  | (k, v) :: members =>
    simp only [write.writeMembers, printable_cons, printable_append]
    exact ⟨by decide, printable_of_all rfl, by decide, printable_body h.1,
      by decide, by decide, printable_of_all rfl, printable_write v h.2.1,
      printable_writeMembers members h.2.2⟩

end

end DocFlow.Json
