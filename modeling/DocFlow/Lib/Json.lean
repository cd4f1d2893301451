import DocFlow.Lib.Text
import Mathlib.Data.List.Chain
import Mathlib.Data.Nat.Digits.Lemmas
import Mathlib.Order.Lex

/-!
# JSON values and their texts

A string that was decoded (`Str`) is a list of code points.  It may have single surrogates: JSON can
escape one, and the name of a file may have one for a byte that is not UTF-8.  A high surrogate never
stands before a low one: JSON reads the two as one character, and the name of a file has only low
ones.

`Json.dumps` is `json.dumps` without blanks.
-/

namespace DocFlow

/-! ## Strings -/

/-- A string, by its code points. -/
abbrev Codes := List Nat

def isHigh (c : Nat) : Bool := 0xD800 ≤ c && c ≤ 0xDBFF
def isLow (c : Nat) : Bool := 0xDC00 ≤ c && c ≤ 0xDFFF

/-- No high surrogate stands before a low one. -/
def Unpaired (codes : Codes) : Prop :=
  codes.IsChain fun c d => ¬ (isHigh c = true ∧ isLow d = true)

/-- A string that was decoded. -/
structure Str where
  codes : Codes
  bound : ∀ c ∈ codes, c < 0x110000
  unpaired : Unpaired codes
deriving DecidableEq

theorem Str.ext {s t : Str} (h : s.codes = t.codes) : s = t := by
  cases s
  cases t
  cases h
  rfl

theorem toNat_valid (c : Char) :
    c.toNat < 0x110000 ∧ isHigh c.toNat = false ∧ isLow c.toNat = false := by
  have h : c.toNat < 0xD800 ∨ (0xDFFF < c.toNat ∧ c.toNat < 0x110000) := c.valid
  simp only [isHigh, isLow, Bool.and_eq_false_iff, decide_eq_false_iff_not]
  omega

/-- The code points of a text. -/
def Text.codes (s : Text) : Codes := s.map Char.toNat

/-- A text has no surrogates at all. -/
def Text.str (s : Text) : Str where
  codes := codes s
  bound := by
    intro c hc
    obtain ⟨ch, -, rfl⟩ := List.mem_map.mp hc
    exact (toNat_valid ch).1
  unpaired := by
    induction s with
    | nil => exact .nil
    | cons c s ih =>
      cases s with
      | nil => exact .singleton _
      | cons d s =>
        refine .cons_cons ?_ ih
        rw [(toNat_valid c).2.1]
        simp

theorem Unpaired.tail {c : Nat} {codes : Codes} (h : Unpaired (c :: codes)) : Unpaired codes :=
  List.IsChain.of_cons h

namespace Str

/-- Strings are compared by their code points. -/
instance : LinearOrder Str := LinearOrder.lift' Str.codes fun _ _ h => Str.ext h

end Str

/-! ## Values -/

/-- A value.  A number with a fraction or an exponent is kept as the decimal `mantissa * 10 ^ exponent`
that is written. -/
inductive Json
  | null
  | bool (b : Bool)
  | int (n : Int)
  | float (negative : Bool) (mantissa : Nat) (exponent : Int)
  /-- `NaN`, `Infinity` and `-Infinity` -/
  | special (name : Text)
  | str (s : Str)
  | arr (items : List Json)
  | obj (members : List (Str × Json))

namespace Json

/-! ## Writing -/

def hexDigit (n : Nat) : Char := if n < 10 then Char.ofNat (48 + n) else Char.ofNat (87 + n)

/-- `\uXXXX`. -/
def unicodeEscape (c : Nat) : Text :=
  ['\\', 'u', hexDigit (c / 4096 % 16), hexDigit (c / 256 % 16), hexDigit (c / 16 % 16),
    hexDigit (c % 16)]

/-- The two halves of a code point above the first plane. -/
def highHalf (c : Nat) : Nat := 0xD800 + (c - 0x10000) / 0x400
def lowHalf (c : Nat) : Nat := 0xDC00 + (c - 0x10000) % 0x400

/-- The letter that stands behind the backslash for this character. -/
def shortEscape (c : Nat) : Option Char :=
  if c = 34 then some '"'
  else if c = 92 then some '\\'
  else if c = 10 then some 'n'
  else if c = 13 then some 'r'
  else if c = 9 then some 't'
  else if c = 12 then some 'f'
  else if c = 8 then some 'b'
  else none

/-- A character in a string. -/
def escape (ensureAscii : Bool) (c : Nat) : Text :=
  match shortEscape c with
  | some e => ['\\', e]
  | none =>
    if 32 ≤ c ∧ (ensureAscii = false ∨ c < 127) then [Char.ofNat c]
    else if c < 0x10000 then unicodeEscape c
    else unicodeEscape (highHalf c) ++ unicodeEscape (lowHalf c)

def quote (ensureAscii : Bool) (s : Str) : Text :=
  '"' :: (s.codes.flatMap (escape ensureAscii) ++ ['"'])

def openBrace : Char := Char.ofNat 123
def closeBrace : Char := Char.ofNat 125

def digitChar (d : Nat) : Char := Char.ofNat (48 + d)

/-- The decimal digits. -/
def decimal (n : Nat) : Text :=
  if n = 0 then ['0'] else ((Nat.digits 10 n).map digitChar).reverse

def decimalInt (n : Int) : Text :=
  if n < 0 then '-' :: decimal n.natAbs else decimal n.natAbs

/-- `json.dumps(value, separators=(",", ":"))`; the source writes no number but integers. -/
def dumps (ensureAscii : Bool) : Json → Text
  | .null => "null".toList
  | .bool true => "true".toList
  | .bool false => "false".toList
  | .int n => decimalInt n
  | .float negative mantissa exponent =>
    (if negative then ['-'] else []) ++ decimal mantissa ++ 'e' :: decimalInt exponent
  | .special name => name
  | .str s => quote ensureAscii s
  | .arr [] => ['[', ']']
  | .arr (v :: items) => '[' :: (dumps ensureAscii v ++ dumpsItems ensureAscii items)
  | .obj [] => [openBrace, closeBrace]
  | .obj ((k, v) :: members) =>
    openBrace :: (quote ensureAscii k ++ ':' ::
      (dumps ensureAscii v ++ dumpsMembers ensureAscii members))
where
  dumpsItems (ensureAscii : Bool) : List Json → Text
    | [] => [']']
    | v :: items => ',' :: (dumps ensureAscii v ++ dumpsItems ensureAscii items)
  dumpsMembers (ensureAscii : Bool) : List (Str × Json) → Text
    | [] => [closeBrace]
    | (k, v) :: members =>
      ',' :: (quote ensureAscii k ++ ':' ::
        (dumps ensureAscii v ++ dumpsMembers ensureAscii members))

end Json

end DocFlow
