import DocFlow.Lib.Json

/-!
# Reading JSON

`Json.loads` is `json.loads`: blanks may stand between the tokens, escapes are resolved, two escaped
surrogates that make a pair are one character, and of a number the decimal is kept.  The limits of an
interpreter (the nesting, the digits of an integer) are not part of it.

* `scanUnits_quote`, `joinUnits_units`: a quoted string is read back.
* `readNumber_decimal`: an integer is read back.
* `loads_write`: a value is read back in any format that reads back its strings and its numbers.
* `loads_dumps`: a value without other numbers is read back from what `dumps` wrote.
-/

namespace DocFlow.Json

/-! ## Strings -/

def hexVal (c : Char) : Option (Fin 16) :=
  let n := c.toNat
  if 48 ≤ n ∧ n ≤ 57 then some (Fin.ofNat 16 (n - 48))
  else if 97 ≤ n ∧ n ≤ 102 then some (Fin.ofNat 16 (n - 87))
  else if 65 ≤ n ∧ n ≤ 70 then some (Fin.ofNat 16 (n - 55))
  else none

/-- The code of four hexadecimal digits. -/
def hexCode (a b c d : Char) : Option (Fin 65536) := do
  let a ← hexVal a
  let b ← hexVal b
  let c ← hexVal c
  let d ← hexVal d
  return Fin.ofNat 65536 (((a.val * 16 + b.val) * 16 + c.val) * 16 + d.val)

def unescape : Char → Option Char
  | '"' => some '"'
  | '\\' => some '\\'
  | '/' => some '/'
  | 'n' => some '\n'
  | 'r' => some '\r'
  | 't' => some '\t'
  | 'f' => some (Char.ofNat 12)
  | 'b' => some (Char.ofNat 8)
  | _ => none

/-- What stands in a string: a character, or `\uXXXX`. -/
inductive StrUnit
  | char (c : Char)
  | hex (code : Fin 65536)
deriving DecidableEq, Repr

def StrUnit.code : StrUnit → Nat
  | .char c => c.toNat
  | .hex code => code.val

def consUnit (u : StrUnit) (read : Option (List StrUnit × Text)) : Option (List StrUnit × Text) :=
  read.map fun r => (u :: r.1, r.2)

/-- The units up to the closing quote, and the text behind it. -/
def scanUnits : Text → Option (List StrUnit × Text)
  | [] => none
  | '"' :: s => some ([], s)
  | '\\' :: 'u' :: a :: b :: c :: d :: s =>
    match hexCode a b c d with
    | none => none
    | some code => consUnit (.hex code) (scanUnits s)
  | '\\' :: e :: s =>
    match unescape e with
    | none => none
    | some c => consUnit (.char c) (scanUnits s)
  | c :: s => if c.toNat < 32 then none else consUnit (.char c) (scanUnits s)

/-- Escaped surrogates that make a pair become one character. -/
def joinUnits : List StrUnit → Codes
  | [] => []
  | [u] => [u.code]
  | u :: v :: units =>
    if isHigh u.code = true ∧ isLow v.code = true then
      (0x10000 + (u.code - 0xD800) * 0x400 + (v.code - 0xDC00)) :: joinUnits units
    else u.code :: joinUnits (v :: units)

theorem StrUnit.code_lt (u : StrUnit) : u.code < 0x110000 := by
  cases u with
  | char c => exact (toNat_valid c).1
  | hex code =>
    have h := code.isLt
    simp only [StrUnit.code]
    omega

theorem joinUnits_bound (units : List StrUnit) : ∀ c ∈ joinUnits units, c < 0x110000 := by
  induction units using joinUnits.induct with
  | case1 => simp [joinUnits]
  | case2 u => simpa [joinUnits] using u.code_lt
  | case3 u v units h ih =>
    rw [joinUnits, if_pos h, List.forall_mem_cons]
    refine ⟨?_, ih⟩
    simp only [isHigh, isLow, Bool.and_eq_true, decide_eq_true_eq] at h
    omega
  | case4 u v units h ih =>
    rw [joinUnits, if_neg h, List.forall_mem_cons]
    exact ⟨u.code_lt, ih⟩

theorem head_joinUnits {u : StrUnit} {units : List StrUnit} {c : Nat}
    (h : (joinUnits (u :: units)).head? = some c) : c = u.code ∨ 0x10000 ≤ c := by
  cases units with
  | nil =>
    rw [joinUnits, List.head?_cons] at h
    exact .inl (Option.some.inj h).symm
  | cons v units =>
    rw [joinUnits] at h
    split at h
    · rw [List.head?_cons] at h
      have hc := Option.some.inj h
      omega
    · rw [List.head?_cons] at h
      exact .inl (Option.some.inj h).symm

theorem unpaired_cons {c : Nat} {codes : Codes} (h : Unpaired codes)
    (hhead : ∀ d, codes.head? = some d → ¬ (isHigh c = true ∧ isLow d = true)) :
    Unpaired (c :: codes) := by
  cases codes with
  | nil => exact .singleton c
  | cons d codes => exact .cons_cons (hhead d rfl) h

theorem unpaired_joinUnits (units : List StrUnit) : Unpaired (joinUnits units) := by
  induction units using joinUnits.induct with
  | case1 => exact .nil
  | case2 u => exact .singleton _
  | case3 u v units h ih =>
    rw [joinUnits, if_pos h]
    refine unpaired_cons ih fun d _ hpair => ?_
    simp only [isHigh, isLow, Bool.and_eq_true, decide_eq_true_eq] at h hpair
    omega
  | case4 u v units h ih =>
    rw [joinUnits, if_neg h]
    refine unpaired_cons ih fun d hd hpair => ?_
    obtain rfl | hle := head_joinUnits hd
    · exact h hpair
    · simp only [isLow, Bool.and_eq_true, decide_eq_true_eq] at hpair
      omega

/-- A string, behind its opening quote. -/
def readString (s : Text) : Option (Str × Text) :=
  (scanUnits s).map fun r => (⟨joinUnits r.1, joinUnits_bound r.1, unpaired_joinUnits r.1⟩, r.2)

/-! ## Numbers -/

def isBlank (c : Char) : Bool := c = ' ' || c = '\t' || c = '\n' || c = '\r'

def skipBlanks (s : Text) : Text := s.dropWhile isBlank

/-- The value of a run of decimal digits. -/
def digitsValue (ds : Text) : Nat := ds.foldl (fun n c => n * 10 + (c.toNat - 48)) 0

/-- The fraction, with its point, when there is one. -/
def readFraction (s : Text) : Option Text × Text :=
  match s with
  | '.' :: t => if t.takeWhile Char.isDigit = [] then (none, s)
    else (some (t.takeWhile Char.isDigit), t.dropWhile Char.isDigit)
  | _ => (none, s)

/-- The exponent, when there is one. -/
def readExponent (s : Text) : Option Int × Text :=
  match s with
  | e :: t =>
    if e = 'e' ∨ e = 'E' then
      let negative := t.head? = some '-'
      let u := if t.head? = some '-' ∨ t.head? = some '+' then t.tail else t
      let ds := u.takeWhile Char.isDigit
      if ds = [] then (none, s)
      else (some (if negative then -(digitsValue ds : Int) else digitsValue ds),
        u.dropWhile Char.isDigit)
    else (none, s)
  | [] => (none, s)

/-- A number without its sign. -/
def readNumber (negative : Bool) (s : Text) : Option (Json × Text) :=
  let run := s.takeWhile Char.isDigit
  if run = [] then none
  else
    -- no digit follows a leading zero
    let whole := if run.head? = some '0' then ['0'] else run
    let (fraction, afterFraction) := readFraction (s.drop whole.length)
    let (exponent, rest) := readExponent afterFraction
    if fraction = none ∧ exponent = none then
      some (.int (if negative then -(digitsValue whole : Int) else digitsValue whole), rest)
    else
      some (.float negative (digitsValue (whole ++ fraction.getD []))
        (exponent.getD 0 - (fraction.getD []).length), rest)

/-! ## Values -/

/-- One of the words, and what it stands for. -/
def readWord (s : Text) : Option (Json × Text) :=
  if s.take 4 = "null".toList then some (.null, s.drop 4)
  else if s.take 4 = "true".toList then some (.bool true, s.drop 4)
  else if s.take 5 = "false".toList then some (.bool false, s.drop 5)
  else if s.take 3 = "NaN".toList then some (.special "NaN".toList, s.drop 3)
  else if s.take 8 = "Infinity".toList then some (.special "Infinity".toList, s.drop 8)
  else none

/-- A value that is no string, list or object. -/
def readScalar (s : Text) : Option (Json × Text) :=
  match s with
  | [] => none
  | c :: t =>
    if c.isDigit = true then readNumber false s
    else if c = '-' then
      if t.take 8 = "Infinity".toList then some (.special "-Infinity".toList, t.drop 8)
      else readNumber true t
    else readWord s

mutual

/-- A value, from its first character on; each character bounds the nesting by one. -/
def readValue : Nat → Text → Option (Json × Text)
  | 0, _ => none
  | _ + 1, [] => none
  | n + 1, c :: s =>
    if c = '"' then (readString s).map fun r => (.str r.1, r.2)
    else if c = '[' then
      if (skipBlanks s).head? = some ']' then some (.arr [], (skipBlanks s).tail)
      else (readItems n (skipBlanks s)).map fun r => (.arr r.1, r.2)
    else if c = openBrace then
      if (skipBlanks s).head? = some closeBrace then some (.obj [], (skipBlanks s).tail)
      else (readMembers n (skipBlanks s)).map fun r => (.obj r.1, r.2)
    else readScalar (c :: s)

/-- The items of a list, up to its end. -/
def readItems : Nat → Text → Option (List Json × Text)
  | 0, _ => none
  | n + 1, s =>
    match readValue n s with
    | none => none
    | some (v, rest) =>
      if (skipBlanks rest).head? = some ']' then some ([v], (skipBlanks rest).tail)
      else if (skipBlanks rest).head? = some ',' then
        (readItems n (skipBlanks (skipBlanks rest).tail)).map fun r => (v :: r.1, r.2)
      else none

/-- The members of an object, up to its end. -/
def readMembers : Nat → Text → Option (List (Str × Json) × Text)
  | 0, _ => none
  | n + 1, s =>
    if s.head? ≠ some '"' then none
    else
      match readString s.tail with
      | none => none
      | some (k, afterKey) =>
        if (skipBlanks afterKey).head? ≠ some ':' then none
        else
          match readValue n (skipBlanks (skipBlanks afterKey).tail) with
          | none => none
          | some (v, rest) =>
            if (skipBlanks rest).head? = some closeBrace then
              some ([(k, v)], (skipBlanks rest).tail)
            else if (skipBlanks rest).head? = some ',' then
              (readMembers n (skipBlanks (skipBlanks rest).tail)).map fun r => ((k, v) :: r.1, r.2)
            else none

end

/-- `json.loads(s)`; `none` is a `JSONDecodeError`. -/
def loads (s : Text) : Option Json :=
  match readValue (2 * s.length + 2) (skipBlanks s) with
  | none => none
  | some (v, rest) => if skipBlanks rest = [] then some v else none

/-! ## Reading a quoted string -/

/-- The units that a character is written as. -/
def units (c : Nat) : List StrUnit :=
  match shortEscape c with
  | some _ => [.char (Char.ofNat c)]
  | none =>
    if 32 ≤ c ∧ c < 127 then [.char (Char.ofNat c)]
    else if c < 0x10000 then [.hex (Fin.ofNat 65536 c)]
    else [.hex (Fin.ofNat 65536 (highHalf c)), .hex (Fin.ofNat 65536 (lowHalf c))]

theorem hexVal_hexDigit : ∀ d : Fin 16, hexVal (hexDigit d.val) = some d := by decide

theorem hexCode_digits {c : Nat} (hc : c < 0x10000) :
    hexCode (hexDigit (c / 4096 % 16)) (hexDigit (c / 256 % 16)) (hexDigit (c / 16 % 16))
      (hexDigit (c % 16)) = some (Fin.ofNat 65536 c) := by
  have h : ∀ n : Nat, hexVal (hexDigit (n % 16)) = some (Fin.ofNat 16 n) := fun n =>
    hexVal_hexDigit (Fin.ofNat 16 n)
  simp only [hexCode, h, Option.bind_eq_bind, Option.bind_some, Fin.ofNat_eq_cast, Fin.val_natCast]
  refine congrArg some (congrArg _ ?_)
  omega

/-- `\uXXXX` in a string. -/
theorem scanUnits_unicodeEscape {c : Nat} (hc : c < 0x10000) (s : Text) :
    scanUnits (unicodeEscape c ++ s) = consUnit (.hex (Fin.ofNat 65536 c)) (scanUnits s) := by
  simp only [unicodeEscape, List.cons_append, List.nil_append]
  rw [scanUnits, hexCode_digits hc]

theorem toNat_ofNat {c : Nat} (hc : c < 0xD800) : (Char.ofNat c).toNat = c := by
  have h : c.isValidChar := .inl hc
  rw [Char.ofNat, dif_pos h]
  rfl

theorem scanUnits_char {c : Char} (hquote : c ≠ '"') (hback : c ≠ '\\') (hle : 32 ≤ c.toNat)
    (s : Text) : scanUnits (c :: s) = consUnit (.char c) (scanUnits s) := by
  rw [scanUnits, if_neg (by omega)]
  · exact hquote
  · exact fun _ _ _ _ _ h => absurd h hback
  · exact fun _ _ h => absurd h hback

theorem scanUnits_escape {c : Nat} (hc : c < 0x110000) (s : Text) :
    scanUnits (escape true c ++ s) =
      (scanUnits s).map fun r => (units c ++ r.1, r.2) := by
  by_cases hshort : c = 34 ∨ c = 92 ∨ c = 10 ∨ c = 13 ∨ c = 9 ∨ c = 12 ∨ c = 8
  · obtain rfl | rfl | rfl | rfl | rfl | rfl | rfl := hshort <;> rfl
  · push Not at hshort
    have hnone : shortEscape c = none := by
      simp [shortEscape, hshort]
    simp only [escape, units, hnone]
    by_cases hprint : 32 ≤ c ∧ c < 127
    · have hto : (Char.ofNat c).toNat = c := toNat_ofNat (by omega)
      rw [if_pos ⟨hprint.1, .inr hprint.2⟩, if_pos hprint]
      refine scanUnits_char ?_ ?_ (by omega) s
      · intro h
        rw [h] at hto
        exact hshort.1 hto.symm
      · intro h
        rw [h] at hto
        exact hshort.2.1 hto.symm
    · rw [if_neg (fun h => hprint ⟨h.1, h.2.resolve_left (by simp)⟩), if_neg hprint]
      by_cases hplane : c < 0x10000
      · rw [if_pos hplane, if_pos hplane]
        exact scanUnits_unicodeEscape hplane s
      · rw [if_neg hplane, if_neg hplane, List.append_assoc,
          scanUnits_unicodeEscape (by unfold highHalf; omega),
          scanUnits_unicodeEscape (by unfold lowHalf; omega), consUnit, consUnit, Option.map_map]
        rfl

theorem scanUnits_quote (s : Str) (rest : Text) :
    scanUnits (s.codes.flatMap (escape true) ++ '"' :: rest) = some (s.codes.flatMap units, rest) := by
  have h : ∀ codes : Codes, (∀ c ∈ codes, c < 0x110000) →
      scanUnits (codes.flatMap (escape true) ++ '"' :: rest) = some (codes.flatMap units, rest) := by
    intro codes hbound
    induction codes with
    | nil => rfl
    | cons c codes ih =>
      obtain ⟨hc, hbound⟩ := List.forall_mem_cons.mp hbound
      rw [List.flatMap_cons, List.append_assoc, scanUnits_escape hc, ih hbound]
      rfl
  exact h s.codes s.bound

/-- A character of the first plane is one unit, another one is its two halves. -/
theorem units_eq {c : Nat} (hc : c < 0x110000) :
    (∃ u, units c = [u] ∧ u.code = c) ∨
      (0x10000 ≤ c ∧ ∃ u v, units c = [u, v] ∧ u.code = highHalf c ∧ v.code = lowHalf c) := by
  have hchar : c < 127 → ∃ u, [StrUnit.char (Char.ofNat c)] = [u] ∧ u.code = c := fun h =>
    ⟨_, rfl, toNat_ofNat (by omega)⟩
  unfold units
  split
  · next e hshort =>
    refine .inl (hchar ?_)
    unfold shortEscape at hshort
    repeat' split at hshort
    all_goals first
      | omega
      | cases hshort
  · split
    · next hprint => exact .inl (hchar hprint.2)
    · split
      · next hplane => exact .inl ⟨_, rfl, Nat.mod_eq_of_lt hplane⟩
      · next hplane =>
        refine .inr ⟨by omega, _, _, rfl, Nat.mod_eq_of_lt ?_, Nat.mod_eq_of_lt ?_⟩
        · unfold highHalf
          omega
        · unfold lowHalf
          omega

theorem highHalf_bounds {c : Nat} (h : 0x10000 ≤ c) (hc : c < 0x110000) :
    isHigh (highHalf c) = true ∧ isLow (highHalf c) = false ∧ isLow (lowHalf c) = true := by
  have hdiv : (c - 0x10000) / 0x400 < 0x400 := by omega
  have hmod : (c - 0x10000) % 0x400 < 0x400 := by omega
  refine ⟨?_, ?_, ?_⟩
  · rw [isHigh, highHalf, Bool.and_eq_true, decide_eq_true_eq, decide_eq_true_eq]
    omega
  · rw [isLow, highHalf, Bool.and_eq_false_iff, decide_eq_false_iff_not]
    omega
  · rw [isLow, lowHalf, Bool.and_eq_true, decide_eq_true_eq, decide_eq_true_eq]
    omega

/-- A unit that does not begin a pair. -/
theorem joinUnits_cons (u : StrUnit) {us : List StrUnit}
    (h : ∀ v, us.head? = some v → ¬ (isHigh u.code = true ∧ isLow v.code = true)) :
    joinUnits (u :: us) = u.code :: joinUnits us := by
  cases us with
  | nil => rfl
  | cons v us => rw [joinUnits, if_neg (h v rfl)]

/-- **The units of a string make the string.** -/
theorem joinUnits_units {codes : Codes} (hbound : ∀ c ∈ codes, c < 0x110000)
    (hunpaired : Unpaired codes) : joinUnits (codes.flatMap units) = codes := by
  induction codes with
  | nil => rfl
  | cons c codes ih =>
    obtain ⟨hc, hbound⟩ := List.forall_mem_cons.mp hbound
    have htail := ih hbound hunpaired.tail
    rw [List.flatMap_cons]
    obtain ⟨u, hu, hcode⟩ | ⟨hle, u, v, huv, hhigh, hlow⟩ := units_eq hc
    · rw [hu, List.singleton_append, joinUnits_cons, htail, hcode]
      intro v hv
      rw [hcode]
      cases codes with
      | nil => cases hv
      | cons d codes =>
        -- the next unit is the next character, or the high half of it
        have hpair : ¬ (isHigh c = true ∧ isLow d = true) :=
          (List.isChain_cons_cons.mp hunpaired).1
        have hd := hbound d List.mem_cons_self
        rw [List.flatMap_cons] at hv
        obtain ⟨w, hw, hwcode⟩ | ⟨hled, w, w', hw, hwcode, -⟩ := units_eq hd
        · rw [hw] at hv
          obtain rfl := Option.some.inj hv
          rw [hwcode]
          exact hpair
        · rw [hw] at hv
          obtain rfl := Option.some.inj hv
          rw [hwcode, (highHalf_bounds hled hd).2.1]
          simp
    · obtain ⟨hhighc, -, hlowc⟩ := highHalf_bounds hle hc
      have hjoin : 0x10000 + (highHalf c - 0xD800) * 0x400 + (lowHalf c - 0xDC00) = c := by
        unfold highHalf lowHalf
        omega
      rw [huv, List.cons_append, List.cons_append, List.nil_append, joinUnits, hhigh, hlow,
        if_pos ⟨hhighc, hlowc⟩, htail, hjoin]

theorem readString_quote (s : Str) (rest : Text) :
    readString (s.codes.flatMap (escape true) ++ '"' :: rest) = some (s, rest) := by
  rw [readString, scanUnits_quote, Option.map_some]
  exact congrArg some (Prod.ext (Str.ext (joinUnits_units s.bound s.unpaired)) rfl)

/-! ## Reading an integer -/

theorem digitChar_spec : ∀ d < 10, (digitChar d).isDigit = true ∧ (digitChar d).toNat - 48 = d ∧
    (digitChar d = '0' → d = 0) := by
  decide

theorem isDigit_of_mem_decimal {n : Nat} {c : Char} (h : c ∈ decimal n) : c.isDigit = true := by
  unfold decimal at h
  split at h
  · rw [List.mem_singleton.mp h]
    rfl
  · obtain ⟨d, hd, rfl⟩ := List.mem_map.mp (List.mem_reverse.mp h)
    exact (digitChar_spec d (Nat.digits_lt_base (by omega) hd)).1

theorem decimal_ne_nil (n : Nat) : decimal n ≠ [] := by
  unfold decimal
  split
  · exact List.cons_ne_nil _ _
  · next h =>
    rw [ne_eq, List.reverse_eq_nil_iff, List.map_eq_nil_iff]
    exact Nat.digits_ne_nil_iff_ne_zero.mpr h

theorem digitsValue_reverse {ds : List Nat} (h : ∀ d ∈ ds, d < 10) :
    digitsValue (ds.map digitChar).reverse = Nat.ofDigits 10 ds := by
  induction ds with
  | nil => rfl
  | cons d ds ih =>
    obtain ⟨hd, hds⟩ := List.forall_mem_cons.mp h
    have ih := ih hds
    rw [digitsValue] at ih
    rw [List.map_cons, List.reverse_cons, digitsValue, List.foldl_append, ih, Nat.ofDigits_cons,
      List.foldl_cons, List.foldl_nil, (digitChar_spec d hd).2.1]
    omega

theorem digitsValue_decimal (n : Nat) : digitsValue (decimal n) = n := by
  unfold decimal
  split
  · next h => exact h.symm
  · rw [digitsValue_reverse fun d hd => Nat.digits_lt_base (by omega) hd, Nat.ofDigits_digits]

/-- Only zero has a leading zero. -/
theorem head_decimal {n : Nat} (h : (decimal n).head? = some '0') : n = 0 := by
  unfold decimal at h
  split at h
  · next h0 => exact h0
  · next h0 =>
    exfalso
    have hne := Nat.digits_ne_nil_iff_ne_zero (b := 10).mpr h0
    rw [List.head?_reverse, List.getLast?_map, List.getLast?_eq_some_getLast hne,
      Option.map_some] at h
    have hlast := List.getLast_mem hne
    have hzero := (digitChar_spec _ (Nat.digits_lt_base (by omega) hlast)).2.2 (Option.some.inj h)
    exact Nat.getLast_digit_ne_zero 10 h0 hzero

/-- Nothing that belongs to a number stands at the head. -/
def Stops (s : Text) : Prop :=
  ∀ c, s.head? = some c → c.isDigit = false ∧ c ≠ '.' ∧ c ≠ 'e' ∧ c ≠ 'E'

theorem Stops.readFraction {s : Text} (h : Stops s) : readFraction s = (none, s) := by
  cases s with
  | nil => rfl
  | cons c s =>
    rw [Json.readFraction]
    exact fun t heq => absurd (List.cons.inj heq).1 (h c rfl).2.1

theorem Stops.readExponent {s : Text} (h : Stops s) : readExponent s = (none, s) := by
  cases s with
  | nil => rfl
  | cons c s =>
    rw [Json.readExponent, if_neg]
    exact fun heq => heq.elim (h c rfl).2.2.1 (h c rfl).2.2.2

/-- A run of digits ends where something else begins. -/
theorem span_digits {ds rest : Text} (hds : ∀ c ∈ ds, c.isDigit = true)
    (hrest : ∀ c, rest.head? = some c → c.isDigit = false) :
    (ds ++ rest).takeWhile Char.isDigit = ds ∧ (ds ++ rest).dropWhile Char.isDigit = rest := by
  rw [List.takeWhile_append_of_pos hds, List.dropWhile_append_of_pos hds]
  cases rest with
  | nil => simp
  | cons c rest =>
    have hc := hrest c rfl
    rw [List.takeWhile_cons_of_neg (by simp [hc]), List.dropWhile_cons_of_neg (by simp [hc]),
      List.append_nil]
    exact ⟨rfl, rfl⟩

theorem readNumber_decimal (negative : Bool) (n : Nat) {rest : Text} (h : Stops rest) :
    readNumber negative (decimal n ++ rest) =
      some (.int (if negative then -(n : Int) else n), rest) := by
  have hwhole : (if (decimal n).head? = some '0' then ['0'] else decimal n) = decimal n := by
    split
    · next hzero =>
      rw [head_decimal hzero]
      rfl
    · rfl
  have hrun := (span_digits (fun c => isDigit_of_mem_decimal (n := n)) fun c hc => (h c hc).1).1
  unfold readNumber
  simp only [hrun, if_neg (decimal_ne_nil n), hwhole, List.drop_left',
    h.readFraction, h.readExponent, digitsValue_decimal, and_self, if_true]

/-! ## Formats -/

/-- What a writer may choose. -/
structure Format where
  /-- what stands behind a comma or a colon -/
  gap : Text
  gap_blank : ∀ c ∈ gap, isBlank c = true
  /-- the characters of a string -/
  body : Str → Text
  float : Bool → Nat → Int → Text

/-- The text of a value. -/
def write (f : Format) : Json → Text
  | .null => "null".toList
  | .bool true => "true".toList
  | .bool false => "false".toList
  | .int n => decimalInt n
  | .float negative mantissa exponent => f.float negative mantissa exponent
  | .special name => name
  | .str s => '"' :: (f.body s ++ ['"'])
  | .arr [] => ['[', ']']
  | .arr (v :: items) => '[' :: (write f v ++ writeItems f items)
  | .obj [] => [openBrace, closeBrace]
  | .obj ((k, v) :: members) =>
    openBrace :: '"' :: (f.body k ++ '"' :: ':' :: (f.gap ++ (write f v ++ writeMembers f members)))
where
  writeItems (f : Format) : List Json → Text
    | [] => [']']
    | v :: items => ',' :: (f.gap ++ (write f v ++ writeItems f items))
  writeMembers (f : Format) : List (Str × Json) → Text
    | [] => [closeBrace]
    | (k, v) :: members =>
      ',' :: (f.gap ++ '"' :: (f.body k ++ '"' :: ':' ::
        (f.gap ++ (write f v ++ writeMembers f members))))

/-- The string is read back. -/
def ReadsString (f : Format) (s : Str) : Prop :=
  ∀ rest, readString (f.body s ++ '"' :: rest) = some (s, rest)

/-- The number is read back. -/
structure ReadsFloat (f : Format) (negative : Bool) (mantissa : Nat) (exponent : Int) : Prop where
  head : ∃ c s, f.float negative mantissa exponent = c :: s ∧ (c = '-' ∨ c.isDigit = true)
  read : ∀ rest, Stops rest → readScalar (f.float negative mantissa exponent ++ rest) =
    some (.float negative mantissa exponent, rest)

/-- The strings of the value, the keys among them, and its numbers have the properties. -/
def All (string : Str → Prop) (float : Bool → Nat → Int → Prop) : Json → Prop
  | .float negative mantissa exponent => float negative mantissa exponent
  | .special _ => False
  | .str s => string s
  | .arr items => AllItems string float items
  | .obj members => AllMembers string float members
  | _ => True
where
  AllItems (string : Str → Prop) (float : Bool → Nat → Int → Prop) : List Json → Prop
    | [] => True
    | v :: items => All string float v ∧ AllItems string float items
  AllMembers (string : Str → Prop) (float : Bool → Nat → Int → Prop) : List (Str × Json) → Prop
    | [] => True
    | (k, v) :: members => string k ∧ All string float v ∧ AllMembers string float members

section

variable {string string' : Str → Prop} {float float' : Bool → Nat → Int → Prop}

mutual

theorem All.imp (hs : ∀ s, string s → string' s)
    (hf : ∀ negative mantissa exponent, float negative mantissa exponent →
      float' negative mantissa exponent) (v : Json) (h : All string float v) :
    All string' float' v := by
  match v with
  | .null => trivial
  | .bool _ => trivial
  | .int _ => trivial
  | .float negative mantissa exponent => exact hf negative mantissa exponent h
  | .str s => exact hs s h
  | .arr items => exact All.impItems hs hf items h
  | .obj members => exact All.impMembers hs hf members h

theorem All.impItems (hs : ∀ s, string s → string' s)
    (hf : ∀ negative mantissa exponent, float negative mantissa exponent →
      float' negative mantissa exponent) (items : List Json) (h : All.AllItems string float items) :
    All.AllItems string' float' items := by
  match items with
  | [] => trivial
  | v :: items => exact ⟨All.imp hs hf v h.1, All.impItems hs hf items h.2⟩

theorem All.impMembers (hs : ∀ s, string s → string' s)
    (hf : ∀ negative mantissa exponent, float negative mantissa exponent →
      float' negative mantissa exponent) (members : List (Str × Json))
    (h : All.AllMembers string float members) : All.AllMembers string' float' members := by
  match members with
  | [] => trivial
  | (k, v) :: members =>
    exact ⟨hs k h.1, All.imp hs hf v h.2.1, All.impMembers hs hf members h.2.2⟩

end

end

/-- The strings and the numbers of a value are read back. -/
def Reads (f : Format) : Json → Prop := All (ReadsString f) (ReadsFloat f)

/-! ## Reading what was written -/

theorem stops_of_head {s : Text} {c : Char} (h : s.head? = some c) (hc : c.isDigit = false)
    (hdot : c ≠ '.') (he : c ≠ 'e') (hE : c ≠ 'E') : Stops s := by
  intro d hd
  rw [h] at hd
  obtain rfl := Option.some.inj hd
  exact ⟨hc, hdot, he, hE⟩

theorem skipBlanks_cons {c : Char} (h : isBlank c = false) (s : Text) :
    skipBlanks (c :: s) = c :: s :=
  List.dropWhile_cons_of_neg (by simp [h])

theorem head_decimalInt (n : Int) :
    ∃ c s, decimalInt n = c :: s ∧ (c = '-' ∨ c.isDigit = true) := by
  rw [decimalInt]
  split
  · exact ⟨_, _, rfl, .inl rfl⟩
  · obtain ⟨c, s, hcs⟩ := List.exists_cons_of_ne_nil (decimal_ne_nil n.natAbs)
    exact ⟨c, s, hcs, .inr (isDigit_of_mem_decimal (hcs ▸ List.mem_cons_self))⟩

/-- A character of a number is none of the others. -/
theorem ne_of_number {c d : Char} (hc : c = '-' ∨ c.isDigit = true) (hd : d ≠ '-')
    (hdigit : d.isDigit = false) : c ≠ d := by
  rintro rfl
  obtain rfl | hc := hc
  · exact hd rfl
  · rw [hdigit] at hc
    cases hc

theorem isBlank_of_number {c : Char} (hc : c = '-' ∨ c.isDigit = true) : isBlank c = false := by
  simp only [isBlank, Bool.or_eq_false_iff, decide_eq_false_iff_not]
  exact ⟨⟨⟨ne_of_number hc (by decide) (by decide), ne_of_number hc (by decide) (by decide)⟩,
    ne_of_number hc (by decide) (by decide)⟩, ne_of_number hc (by decide) (by decide)⟩

/-- The sign of a number, and its first digit. -/
theorem readScalar_number {c : Char} (hc : c.isDigit = true) (s : Text) :
    readScalar ('-' :: c :: s) = readNumber true (c :: s) ∧
      readScalar (c :: s) = readNumber false (c :: s) := by
  have hinf : (c :: s).take 8 ≠ "Infinity".toList := by
    intro htake
    have hhead : c = 'I' := (List.cons.inj htake).1
    rw [hhead] at hc
    exact absurd hc (by decide)
  constructor
  · rw [readScalar, if_neg (by decide), if_pos rfl, if_neg hinf]
  · rw [readScalar, if_pos hc]

theorem readScalar_int (n : Int) {rest : Text} (h : Stops rest) :
    readScalar (decimalInt n ++ rest) = some (.int n, rest) := by
  obtain ⟨c, s, hcs⟩ := List.exists_cons_of_ne_nil (decimal_ne_nil n.natAbs)
  have hdigit := isDigit_of_mem_decimal (n := n.natAbs) (c := c) (hcs ▸ List.mem_cons_self)
  obtain ⟨hminus, hplus⟩ := readScalar_number hdigit (s ++ rest)
  rw [decimalInt]
  by_cases hn : n < 0
  · have hread := readNumber_decimal true n.natAbs h
    rw [hcs, List.cons_append, if_pos rfl] at hread
    rw [if_pos hn, hcs, List.cons_append, List.cons_append, hminus, hread]
    congr 3
    omega
  · have hread := readNumber_decimal false n.natAbs h
    rw [hcs, List.cons_append, if_neg Bool.false_ne_true] at hread
    rw [if_neg hn, hcs, List.cons_append, hplus, hread]
    congr 3
    omega

/-- An opening bracket before something that is not a closing one. -/
theorem readValue_arr {n : Nat} {s : Text} (hblank : skipBlanks s = s) (hend : s.head? ≠ some ']') :
    readValue (n + 1) ('[' :: s) = (readItems n s).map fun r => (.arr r.1, r.2) := by
  rw [readValue, if_neg (by decide), if_pos rfl, hblank, if_neg hend]

theorem readValue_obj {n : Nat} {s : Text} :
    readValue (n + 1) (openBrace :: '"' :: s) =
      (readMembers n ('"' :: s)).map fun r => (.obj r.1, r.2) := by
  have hblank : skipBlanks ('"' :: s) = '"' :: s := skipBlanks_cons (by decide) s
  rw [readValue, if_neg (by decide), if_neg (by decide), if_pos rfl, hblank,
    if_neg (by rw [List.head?_cons]; decide)]

/-- A number, from its first character on. -/
theorem readValue_scalar {n : Nat} {c : Char} {s : Text} (hc : c = '-' ∨ c.isDigit = true) :
    readValue (n + 1) (c :: s) = readScalar (c :: s) := by
  rw [readValue, if_neg (ne_of_number hc (by decide) (by decide)),
    if_neg (ne_of_number hc (by decide) (by decide)),
    if_neg (ne_of_number hc (by decide) (by decide))]

section

variable {f : Format}

/-- The first character of a value. -/
theorem head_write {v : Json} (h : Reads f v) :
    ∃ c s, write f v = c :: s ∧ isBlank c = false ∧ c ≠ ']' := by
  cases v with
  | null => exact ⟨_, _, rfl, by decide, by decide⟩
  | bool b => cases b <;> exact ⟨_, _, rfl, by decide, by decide⟩
  | int n =>
    obtain ⟨c, s, hcs, hc⟩ := head_decimalInt n
    exact ⟨c, s, hcs, isBlank_of_number hc, ne_of_number hc (by decide) (by decide)⟩
  | float negative mantissa exponent =>
    obtain ⟨c, s, hcs, hc⟩ := ReadsFloat.head h
    exact ⟨c, s, hcs, isBlank_of_number hc, ne_of_number hc (by decide) (by decide)⟩
  | special => exact h.elim
  | str s => exact ⟨_, _, rfl, by decide, by decide⟩
  | arr items => cases items <;> exact ⟨_, _, rfl, by decide, by decide⟩
  | obj members => cases members <;> exact ⟨_, _, rfl, by decide, by decide⟩

theorem skipBlanks_write {v : Json} (h : Reads f v) (rest : Text) :
    skipBlanks (write f v ++ rest) = write f v ++ rest := by
  obtain ⟨c, s, hcs, hc, -⟩ := head_write h
  rw [hcs, List.cons_append, skipBlanks_cons hc]

/-- A gap is skipped. -/
theorem skipBlanks_gap (f : Format) (s : Text) : skipBlanks (f.gap ++ s) = skipBlanks s :=
  List.dropWhile_append_of_pos f.gap_blank

mutual

/-- A value, with what stands behind it. -/
theorem readValue_write (v : Json) (h : Reads f v) {n : Nat} (hn : (write f v).length < n)
    {rest : Text} (hrest : Stops rest) : readValue n (write f v ++ rest) = some (v, rest) := by
  obtain ⟨n, rfl⟩ : ∃ m, n = m + 1 := ⟨n - 1, by omega⟩
  match v with
  | .null => rfl
  | .bool true => rfl
  | .bool false => rfl
  | .int k =>
    have hread := readScalar_int k hrest
    obtain ⟨c, s, hcs, hc⟩ := head_decimalInt k
    rw [write]
    rw [hcs, List.cons_append] at hread ⊢
    rw [readValue_scalar hc, hread]
  | .float negative mantissa exponent =>
    have hread := ReadsFloat.read h rest hrest
    obtain ⟨c, s, hcs, hc⟩ := ReadsFloat.head h
    rw [write]
    rw [hcs, List.cons_append] at hread ⊢
    rw [readValue_scalar hc, hread]
  | .str s =>
    rw [write, List.cons_append, List.append_assoc, List.singleton_append, readValue, if_pos rfl,
      h rest, Option.map_some]
  | .arr [] => rfl
  | .arr (v :: items) =>
    obtain ⟨hv, hitems⟩ := h
    obtain ⟨c, s, hcs, hblank, hend⟩ := head_write hv
    rw [write, List.length_cons, List.length_append] at hn
    have hread := readItems_write v hv items hitems (n := n) (by omega) rest
    rw [write, List.cons_append, List.append_assoc, readValue_arr, hread, Option.map_some]
    · exact skipBlanks_write hv _
    · rw [hcs, List.cons_append, List.head?_cons]
      exact fun heq => hend (Option.some.inj heq)
  | .obj [] => rfl
  | .obj ((k, v) :: members) =>
    obtain ⟨hk, hv, hmembers⟩ := h
    simp only [write, List.length_cons, List.length_append] at hn
    have hread := readMembers_write k v hk hv members hmembers (n := n) (by omega) rest
    simp only [write, List.cons_append, List.append_assoc] at hread ⊢
    rw [readValue_obj, hread, Option.map_some]
termination_by n

/-- The items of a list, up to its end. -/
theorem readItems_write (v : Json) (hv : Reads f v) (items : List Json)
    (h : All.AllItems (ReadsString f) (ReadsFloat f) items) {n : Nat}
    (hn : (write f v).length + (write.writeItems f items).length < n) (rest : Text) :
    readItems n (write f v ++ (write.writeItems f items ++ rest)) = some (v :: items, rest) := by
  obtain ⟨n, rfl⟩ : ∃ m, n = m + 1 := ⟨n - 1, by omega⟩
  match items with
  | [] =>
    rw [write.writeItems, List.length_singleton] at hn
    have hread := readValue_write v hv (n := n) (by omega)
      (stops_of_head (s := ']' :: rest) rfl (by decide) (by decide) (by decide) (by decide))
    have hblank : skipBlanks (']' :: rest) = ']' :: rest := skipBlanks_cons (by decide) rest
    rw [write.writeItems, List.singleton_append, readItems, hread]
    simp only [hblank, List.head?_cons, if_true, List.tail_cons]
  | w :: items =>
    obtain ⟨hw, hitems⟩ := h
    simp only [write.writeItems, List.length_cons, List.length_append] at hn
    have htail := readItems_write w hw items hitems (n := n) (by omega) rest
    have hread := readValue_write v hv (n := n) (by omega) (stops_of_head
      (s := ',' :: (f.gap ++ (write f w ++ (write.writeItems f items ++ rest)))) rfl
      (by decide) (by decide) (by decide) (by decide))
    have hcomma : ∀ t, skipBlanks (',' :: t) = ',' :: t := skipBlanks_cons (by decide)
    have hne : some ',' ≠ some ']' := by decide
    simp only [write.writeItems, List.cons_append, List.append_assoc, readItems, hread, hcomma,
      List.head?_cons, if_neg hne, if_true, List.tail_cons, skipBlanks_gap, skipBlanks_write hw,
      htail, Option.map_some]
termination_by n

/-- The members of an object, up to its end. -/
theorem readMembers_write (k : Str) (v : Json) (hk : ReadsString f k) (hv : Reads f v)
    (members : List (Str × Json)) (h : All.AllMembers (ReadsString f) (ReadsFloat f) members) {n : Nat}
    (hn : (write f v).length + (write.writeMembers f members).length < n) (rest : Text) :
    readMembers n ('"' :: (f.body k ++ '"' :: ':' :: (f.gap ++
      (write f v ++ (write.writeMembers f members ++ rest))))) = some ((k, v) :: members, rest) := by
  obtain ⟨n, rfl⟩ : ∃ m, n = m + 1 := ⟨n - 1, by omega⟩
  have hcolon : ∀ t, skipBlanks (':' :: t) = ':' :: t := skipBlanks_cons (by decide)
  rw [readMembers, List.head?_cons, if_neg (not_not.mpr rfl), List.tail_cons, hk]
  simp only [hcolon, List.head?_cons, not_true_eq_false, ne_eq, if_false, List.tail_cons,
    skipBlanks_gap, skipBlanks_write hv]
  match members with
  | [] =>
    rw [write.writeMembers, List.length_singleton] at hn
    have hread := readValue_write v hv (n := n) (by omega)
      (stops_of_head (s := closeBrace :: rest) rfl (by decide) (by decide) (by decide) (by decide))
    have hblank : skipBlanks (closeBrace :: rest) = closeBrace :: rest :=
      skipBlanks_cons (by decide) rest
    rw [write.writeMembers, List.singleton_append, hread]
    simp only [hblank, List.head?_cons, if_true, List.tail_cons]
  | (l, w) :: members =>
    obtain ⟨hl, hw, hmembers⟩ := h
    simp only [write.writeMembers, List.length_cons, List.length_append] at hn
    have htail := readMembers_write l w hl hw members hmembers (n := n) (by omega) rest
    have hread := readValue_write v hv (n := n) (by omega) (stops_of_head
      (s := ',' :: (f.gap ++ '"' :: (f.body l ++ '"' :: ':' :: (f.gap ++ (write f w ++
        (write.writeMembers f members ++ rest)))))) rfl
      (by decide) (by decide) (by decide) (by decide))
    have hcomma : ∀ t, skipBlanks (',' :: t) = ',' :: t := skipBlanks_cons (by decide)
    have hquote : ∀ t, skipBlanks ('"' :: t) = '"' :: t := skipBlanks_cons (by decide)
    have hne : some ',' ≠ some closeBrace := by decide
    simp only [write.writeMembers, List.cons_append, List.append_assoc, hread, hcomma,
      List.head?_cons, if_neg hne, if_true, List.tail_cons, skipBlanks_gap, hquote, htail,
      Option.map_some]
termination_by n

end

/-- **What was written is read back**, also with blanks behind it. -/
theorem loads_write {v : Json} (h : Reads f v) (rest : Text) (hrest : skipBlanks rest = [])
    (hstops : Stops rest) : loads (write f v ++ rest) = some v := by
  have hfuel : (write f v).length < 2 * (write f v ++ rest).length + 2 := by
    rw [List.length_append]
    omega
  rw [loads, skipBlanks_write h, readValue_write v h hfuel hstops]
  simp only [hrest, if_true]

end

/-! ## The format without blanks -/

def compact : Format where
  gap := []
  gap_blank := List.forall_mem_nil _
  body s := s.codes.flatMap (escape true)
  float negative mantissa exponent :=
    (if negative then ['-'] else []) ++ decimal mantissa ++ 'e' :: decimalInt exponent

mutual

theorem write_compact (v : Json) : write compact v = dumps true v := by
  match v with
  | .null => rfl
  | .bool true => rfl
  | .bool false => rfl
  | .int k => rfl
  | .float negative mantissa exponent => rfl
  | .special name => rfl
  | .str s => rfl
  | .arr [] => rfl
  | .arr (v :: items) => rw [write, dumps, write_compact v, writeItems_compact items]
  | .obj [] => rfl
  | .obj ((k, v) :: members) =>
    rw [write, dumps, write_compact v, writeMembers_compact members, quote, List.cons_append,
      List.append_assoc]
    rfl

theorem writeItems_compact (items : List Json) :
    write.writeItems compact items = dumps.dumpsItems true items := by
  match items with
  | [] => rfl
  | v :: items =>
    rw [write.writeItems, dumps.dumpsItems, write_compact v, writeItems_compact items]
    rfl

theorem writeMembers_compact (members : List (Str × Json)) :
    write.writeMembers compact members = dumps.dumpsMembers true members := by
  match members with
  | [] => rfl
  | (k, v) :: members =>
    rw [write.writeMembers, dumps.dumpsMembers, write_compact v, writeMembers_compact members, quote,
      List.cons_append, List.append_assoc]
    rfl

end

/-- A value without numbers that are no integers. -/
def Plain : Json → Prop := All (fun _ => True) fun _ _ _ => False

/-- **A plain value is read back.** -/
theorem loads_dumps (v : Json) (h : v.Plain) : loads (dumps true v) = some v := by
  have hreads : Reads compact v :=
    All.imp (fun s _ => readString_quote s) (fun _ _ _ hfloat => hfloat.elim) v h
  have hread := loads_write hreads [] rfl fun c hc => by cases hc
  rwa [List.append_nil, write_compact] at hread

end DocFlow.Json
