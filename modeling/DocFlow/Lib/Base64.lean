import DocFlow.Lib.Text
import Mathlib.Data.List.DropRight

/-!
# Base64 for URLs

`encode` is `base64.urlsafe_b64encode`, and `decode` is `base64.urlsafe_b64decode`: it takes the
characters of both alphabets, skips every other one, and stops at a padding that is complete.

* `decode_encode`: what was encoded is decoded.
* `pad_unpad`: the padding can be left out, and put back by the length (`unpad`, `pad`).
-/

namespace DocFlow.Base64

/-! ## Encoding -/

/-- A character for six bits. -/
def sextet (n : Nat) : Char :=
  if n < 26 then Char.ofNat (65 + n)
  else if n < 52 then Char.ofNat (71 + n)
  else if n < 62 then Char.ofNat (n - 4)
  else if n = 62 then '-'
  else '_'

def encode : List UInt8 → Text
  | [] => []
  | [a] => [sextet (a.toNat / 4), sextet (a.toNat % 4 * 16), '=', '=']
  | [a, b] =>
    [sextet (a.toNat / 4), sextet (a.toNat % 4 * 16 + b.toNat / 16), sextet (b.toNat % 16 * 4), '=']
  | a :: b :: c :: bytes =>
    sextet (a.toNat / 4) :: sextet (a.toNat % 4 * 16 + b.toNat / 16) ::
      sextet (b.toNat % 16 * 4 + c.toNat / 64) :: sextet (c.toNat % 64) :: encode bytes

example : encode [77, 97, 110, 255] = "TWFu_w==".toList := by decide

/-! ## Decoding -/

/-- The six bits of a character; `none` is a character of neither alphabet. -/
def ofSextet (c : Char) : Option Nat :=
  let n := c.toNat
  if 65 ≤ n ∧ n ≤ 90 then some (n - 65)
  else if 97 ≤ n ∧ n ≤ 122 then some (n - 71)
  else if 48 ≤ n ∧ n ≤ 57 then some (n + 4)
  else if c = '-' ∨ c = '+' then some 62
  else if c = '_' ∨ c = '/' then some 63
  else none

/-- The loop of `binascii.a2b_base64`: the place in the group of four, the bits that are left of the
last character, and the padding so far. -/
def decodeFrom (quadPos leftChar pads : Nat) : Text → Option (List UInt8)
  | [] => if quadPos = 0 then some [] else none
  | c :: s =>
    if c = '=' then
      if quadPos < 2 then decodeFrom quadPos leftChar pads s
      else if 4 ≤ quadPos + (pads + 1) then some []
      else decodeFrom quadPos leftChar (pads + 1) s
    else
      match ofSextet c with
      | none => decodeFrom quadPos leftChar pads s
      | some v =>
        match quadPos with
        | 0 => decodeFrom 1 v 0 s
        | 1 => (decodeFrom 2 (v % 16) 0 s).map (UInt8.ofNat (leftChar * 4 + v / 16) :: ·)
        | 2 => (decodeFrom 3 (v % 4) 0 s).map (UInt8.ofNat (leftChar * 16 + v / 4) :: ·)
        | _ => (decodeFrom 0 0 0 s).map (UInt8.ofNat (leftChar * 64 + v) :: ·)

/-- A character that is not ASCII is an error. -/
def decode (s : Text) : Option (List UInt8) :=
  if s.all (fun c => c.toNat < 128) = true then decodeFrom 0 0 0 s else none

/-! ## Decoding what was encoded -/

theorem sextet_spec : ∀ n < 64,
    sextet n ≠ '=' ∧ ofSextet (sextet n) = some n ∧ (sextet n).toNat < 128 := by
  decide

theorem decodeFrom_sextet {quadPos leftChar pads n : Nat} (hn : n < 64) (s : Text) :
    decodeFrom quadPos leftChar pads (sextet n :: s) =
      match quadPos with
      | 0 => decodeFrom 1 n 0 s
      | 1 => (decodeFrom 2 (n % 16) 0 s).map (UInt8.ofNat (leftChar * 4 + n / 16) :: ·)
      | 2 => (decodeFrom 3 (n % 4) 0 s).map (UInt8.ofNat (leftChar * 16 + n / 4) :: ·)
      | _ => (decodeFrom 0 0 0 s).map (UInt8.ofNat (leftChar * 64 + n) :: ·) := by
  obtain ⟨hpad, hsextet, -⟩ := sextet_spec n hn
  rw [decodeFrom, if_neg hpad, hsextet]

theorem ofNat_eq {a : UInt8} {n : Nat} (h : n = a.toNat) : UInt8.ofNat n = a := by
  rw [h, UInt8.ofNat_toNat]

theorem decodeFrom_encode (bytes : List UInt8) : decodeFrom 0 0 0 (encode bytes) = some bytes := by
  induction bytes using encode.induct with
  | case1 => rfl
  | case2 a =>
    have ha := a.toNat_lt
    have hbyte : UInt8.ofNat (a.toNat / 4 * 4 + a.toNat % 4 * 16 / 16) = a := ofNat_eq (by omega)
    rw [encode, decodeFrom_sextet (by omega)]
    simp only
    rw [decodeFrom_sextet (by omega)]
    simp only [hbyte]
    rfl
  | case3 a b =>
    have ha := a.toNat_lt
    have hb := b.toNat_lt
    have hfirst : UInt8.ofNat (a.toNat / 4 * 4 + (a.toNat % 4 * 16 + b.toNat / 16) / 16) = a :=
      ofNat_eq (by omega)
    have hsecond : UInt8.ofNat ((a.toNat % 4 * 16 + b.toNat / 16) % 16 * 16 +
        b.toNat % 16 * 4 / 4) = b := ofNat_eq (by omega)
    rw [encode, decodeFrom_sextet (by omega)]
    simp only
    rw [decodeFrom_sextet (by omega)]
    simp only [hfirst]
    rw [decodeFrom_sextet (by omega)]
    simp only [hsecond]
    rfl
  | case4 a b c bytes ih =>
    have ha := a.toNat_lt
    have hb := b.toNat_lt
    have hc := c.toNat_lt
    have hfirst : UInt8.ofNat (a.toNat / 4 * 4 + (a.toNat % 4 * 16 + b.toNat / 16) / 16) = a :=
      ofNat_eq (by omega)
    have hsecond : UInt8.ofNat ((a.toNat % 4 * 16 + b.toNat / 16) % 16 * 16 +
        (b.toNat % 16 * 4 + c.toNat / 64) / 4) = b := ofNat_eq (by omega)
    have hthird : UInt8.ofNat ((b.toNat % 16 * 4 + c.toNat / 64) % 4 * 64 + c.toNat % 64) = c :=
      ofNat_eq (by omega)
    rw [encode, decodeFrom_sextet (by omega)]
    simp only
    rw [decodeFrom_sextet (by omega)]
    simp only [hfirst]
    rw [decodeFrom_sextet (by omega)]
    simp only [hsecond]
    rw [decodeFrom_sextet (by omega)]
    simp only [hthird, ih, Option.map_some]

theorem ascii_encode (bytes : List UInt8) : ∀ c ∈ encode bytes, c.toNat < 128 := by
  have hpad : '='.toNat < 128 := by decide
  induction bytes using encode.induct with
  | case1 => simp [encode]
  | case2 a =>
    have ha := a.toNat_lt
    simp only [encode, List.forall_mem_cons]
    exact ⟨(sextet_spec _ (by omega)).2.2, (sextet_spec _ (by omega)).2.2, hpad, hpad,
      List.forall_mem_nil _⟩
  | case3 a b =>
    have ha := a.toNat_lt
    have hb := b.toNat_lt
    simp only [encode, List.forall_mem_cons]
    exact ⟨(sextet_spec _ (by omega)).2.2, (sextet_spec _ (by omega)).2.2,
      (sextet_spec _ (by omega)).2.2, hpad, List.forall_mem_nil _⟩
  | case4 a b c bytes ih =>
    have ha := a.toNat_lt
    have hb := b.toNat_lt
    have hc := c.toNat_lt
    simp only [encode, List.forall_mem_cons]
    exact ⟨(sextet_spec _ (by omega)).2.2, (sextet_spec _ (by omega)).2.2,
      (sextet_spec _ (by omega)).2.2, (sextet_spec _ (by omega)).2.2, ih⟩

/-- **What was encoded is decoded.** -/
theorem decode_encode (bytes : List UInt8) : decode (encode bytes) = some bytes := by
  rw [decode, if_pos, decodeFrom_encode]
  rw [List.all_eq_true]
  exact fun c hc => decide_eq_true (ascii_encode bytes c hc)

/-! ## Padding -/

/-- `s.rstrip("=")`. -/
def unpad (s : Text) : Text := s.rdropWhile fun c => c = '='

/-- `s + "=" * (-len(s) % 4)`. -/
def pad (s : Text) : Text := s ++ List.replicate ((4 - s.length % 4) % 4) '='

/-- Some characters, none of them a padding, and at most two paddings that complete them. -/
theorem encode_eq (bytes : List UInt8) : ∃ s k, encode bytes = s ++ List.replicate k '=' ∧
    (∀ c ∈ s, c ≠ '=') ∧ k ≤ 2 ∧ (s.length + k) % 4 = 0 := by
  induction bytes using encode.induct with
  | case1 => exact ⟨[], 0, rfl, by simp, by omega, rfl⟩
  | case2 a =>
    have ha := a.toNat_lt
    refine ⟨[sextet (a.toNat / 4), sextet (a.toNat % 4 * 16)], 2, rfl, ?_, le_rfl, by simp⟩
    simp only [List.forall_mem_cons]
    exact ⟨(sextet_spec _ (by omega)).1, (sextet_spec _ (by omega)).1, by simp⟩
  | case3 a b =>
    have ha := a.toNat_lt
    have hb := b.toNat_lt
    refine ⟨[sextet (a.toNat / 4), sextet (a.toNat % 4 * 16 + b.toNat / 16),
      sextet (b.toNat % 16 * 4)], 1, rfl, ?_, by omega, by simp⟩
    simp only [List.forall_mem_cons]
    exact ⟨(sextet_spec _ (by omega)).1, (sextet_spec _ (by omega)).1,
      (sextet_spec _ (by omega)).1, by simp⟩
  | case4 a b c bytes ih =>
    have ha := a.toNat_lt
    have hb := b.toNat_lt
    have hc := c.toNat_lt
    obtain ⟨s, k, heq, hs, hk, hlength⟩ := ih
    refine ⟨sextet (a.toNat / 4) :: sextet (a.toNat % 4 * 16 + b.toNat / 16) ::
      sextet (b.toNat % 16 * 4 + c.toNat / 64) :: sextet (c.toNat % 64) :: s, k, ?_, ?_, hk, ?_⟩
    · rw [encode, heq]
      rfl
    · simp only [List.forall_mem_cons]
      exact ⟨(sextet_spec _ (by omega)).1, (sextet_spec _ (by omega)).1,
        (sextet_spec _ (by omega)).1, (sextet_spec _ (by omega)).1, hs⟩
    · simp only [List.length_cons]
      omega

/-- **The padding is put back.** -/
theorem pad_unpad (bytes : List UInt8) : pad (unpad (encode bytes)) = encode bytes := by
  obtain ⟨s, k, heq, hs, hk, hlength⟩ := encode_eq bytes
  have hunpad : unpad (s ++ List.replicate k '=') = s := by
    rw [unpad, List.rdropWhile, List.reverse_append, List.reverse_replicate,
      List.dropWhile_append_of_pos fun c hc => by simp [List.eq_of_mem_replicate hc]]
    cases hrev : s.reverse with
    | nil =>
      rw [List.reverse_eq_nil_iff] at hrev
      rw [hrev]
      rfl
    | cons c rest =>
      have hc : c ∈ s := by
        rw [← List.mem_reverse, hrev]
        exact List.mem_cons_self
      rw [List.dropWhile_cons_of_neg (by simpa using hs c hc), ← hrev, List.reverse_reverse]
  have hcount : (4 - s.length % 4) % 4 = k := by omega
  rw [heq, hunpad, pad, hcount]

end DocFlow.Base64
