import Chrony.Lib.Bytes

/-!
# Hexadecimal Strings

Conversion between bytes and hexadecimal strings in keys and dump files, from `util.c`. Each pair
of characters is converted by `strtol`, which accepts more than two digits.

## Main results

* `hexToBytes_bytesToHex`: bytes are converted back to the same bytes.
* `hexToBytes_strict_iff`: which strings are converted although they are not hexadecimal.
-/

namespace Chrony

open Lib Bytes

/-- A hexadecimal digit in the format `%02hhX`. -/
def hexDigit (n : ℕ) : Char :=
  if n < 10 then Char.ofNat (48 + n) else Char.ofNat (55 + n)

/-- The value of a hexadecimal digit. -/
def hexValue (c : Char) : Option ℕ :=
  if '0' ≤ c ∧ c ≤ '9' then some (c.toNat - 48)
  else if 'A' ≤ c ∧ c ≤ 'F' then some (c.toNat - 55)
  else if 'a' ≤ c ∧ c ≤ 'f' then some (c.toNat - 87)
  else none

/-- `isspace` in the C locale. -/
def isSpace (c : Char) : Bool := c = ' ' || ('\t' ≤ c && c ≤ '\r')

/-- `strtol` of two characters with base 16, which must all be parsed. A sign or a space can
be before a digit. -/
def strtolByte (a b : Char) : Option Byte :=
  match hexValue a, hexValue b with
  | some x, some y => some (BitVec.ofNat 8 (16 * x + y))
  | none, some y =>
      if a = '+' ∨ isSpace a then some (BitVec.ofNat 8 y)
      else if a = '-' then some (-BitVec.ofNat 8 y)
      else none
  | _, none => none

/-- `UTI_BytesToHex`. It returns none if the string does not fit in the buffer. -/
def bytesToHex (bytes : List Byte) (hexLength : ℕ) : Option (List Char) :=
  if hexLength < 1 ∨ 2 * bytes.length ≥ hexLength then none
  else some (bytes.flatMap fun b => [hexDigit (b.toNat / 16), hexDigit (b.toNat % 16)])

/-- The loop of `UTI_HexToBytes`. It returns none if a byte cannot be converted, or there is
not enough space. -/
def hexToBytesLoop : ℕ → List Char → Option (List Byte)
  | _, [] => some []
  | 0, _ :: _ => none
  | _ + 1, [_] => none
  | n + 1, a :: b :: hex =>
      match strtolByte a b, hexToBytesLoop n hex with
      | some byte, some bytes => some (byte :: bytes)
      | _, _ => none

/-- `UTI_HexToBytes`, with the bytes which are converted. There are none if it failed. -/
def hexToBytes (hex : List Char) (length : ℕ) : List Byte := (hexToBytesLoop length hex).getD []

theorem hexValue_hexDigit : ∀ n < 16, hexValue (hexDigit n) = some n := by decide

theorem strtolByte_hexDigit (b : Byte) :
    strtolByte (hexDigit (b.toNat / 16)) (hexDigit (b.toNat % 16)) = some b := by
  have hb := b.isLt
  rw [strtolByte, hexValue_hexDigit _ (by omega), hexValue_hexDigit _ (by omega)]
  refine congrArg some ?_
  rw [Nat.div_add_mod]
  exact BitVec.ofNat_toNat 8 b

/-- **Bytes are converted back to the same bytes.** -/
theorem hexToBytes_bytesToHex {bytes : List Byte} {hexLength length : ℕ} {hex : List Char}
    (h : bytesToHex bytes hexLength = some hex) (hlength : bytes.length ≤ length) :
    hexToBytes hex length = bytes := by
  suffices hloop : hexToBytesLoop length hex = some bytes by
    rw [hexToBytes, hloop]
    rfl
  rw [bytesToHex] at h
  split at h
  · cases h
  next hfits =>
      obtain rfl := Option.some.inj h
      clear h hfits
      induction bytes generalizing length with
      | nil => cases length <;> rfl
      | cons b bytes ih =>
          cases length with
          | zero => cases hlength
          | succ length =>
              rw [List.flatMap_cons]
              simp only [List.cons_append, List.nil_append]
              rw [hexToBytesLoop, strtolByte_hexDigit, ih (Nat.le_of_succ_le_succ hlength)]

/-! ### Accepted strings -/

/-- A non-empty sequence of an even number of hexadecimal digits. -/
structure IsHex (hex : List Char) : Prop where
  ne_nil : hex ≠ []
  even : hex.length % 2 = 0
  digits : ∀ c ∈ hex, (hexValue c).isSome = true

/-- A string which is made of pairs of characters with a property. -/
def Paired (p : Char → Char → Prop) : List Char → Prop
  | [] => True
  | [_] => False
  | a :: b :: s => p a b ∧ Paired p s

/-- What is converted from two characters: the second one is a digit, and a digit, a space or a
sign is before it. -/
def Convertible (a b : Char) : Prop :=
  (hexValue b).isSome = true ∧
    ((hexValue a).isSome = true ∨ isSpace a = true ∨ a = '+' ∨ a = '-')

/-- **A string which is converted although it has a character that is not a digit**: a space or a
sign is before a digit in some pairs, the other pairs have two digits, and there is enough
space. -/
structure Lenient (hex : List Char) (length : ℕ) : Prop where
  fits : hex.length ≤ 2 * length
  convertible : Paired Convertible hex
  not_digit : ∃ c ∈ hex, hexValue c = none

theorem isSome_strtolByte_iff (a b : Char) : (strtolByte a b).isSome = true ↔ Convertible a b := by
  rw [strtolByte, Convertible]
  cases ha : hexValue a with
  | some x =>
      cases hexValue b with
      | some y => simp
      | none => simp
  | none =>
      cases hexValue b with
      | none => simp
      | some y =>
          dsimp only
          split
          next h => exact iff_of_true rfl ⟨rfl, .inr (h.elim (fun h => .inr (.inl h)) .inl)⟩
          next h =>
              rw [not_or] at h
              split
              next hminus => simp [hminus]
              next hminus => simp [h.1, h.2, hminus]

/-- The loop converts each pair to a byte. -/
theorem length_hexToBytesLoop {n : ℕ} {hex : List Char} {bytes : List Byte}
    (h : hexToBytesLoop n hex = some bytes) : 2 * bytes.length = hex.length := by
  induction hex using Paired.induct generalizing n bytes with
  | case1 =>
      rw [hexToBytesLoop] at h
      obtain rfl := Option.some.inj h
      rfl
  | case2 c =>
      cases n with
      | zero => cases h
      | succ n => cases h
  | case3 a b hex ih =>
      cases n with
      | zero => cases h
      | succ n =>
          rw [hexToBytesLoop] at h
          split at h
          next byte bytes' _ hloop =>
              obtain rfl := Option.some.inj h
              have hlength := ih hloop
              simp only [List.length_cons]
              omega
          next => cases h

/-- **Which strings are converted**: those whose pairs can all be converted, if there is enough
space. -/
theorem isSome_hexToBytesLoop_iff (n : ℕ) (hex : List Char) :
    (hexToBytesLoop n hex).isSome = true ↔ hex.length ≤ 2 * n ∧ Paired Convertible hex := by
  induction hex using Paired.induct generalizing n with
  | case1 =>
      rw [hexToBytesLoop]
      exact iff_of_true rfl ⟨Nat.zero_le _, True.intro⟩
  | case2 c =>
      cases n with
      | zero => exact iff_of_false Bool.false_ne_true And.right
      | succ n => exact iff_of_false Bool.false_ne_true And.right
  | case3 a b hex ih =>
      cases n with
      | zero => exact iff_of_false Bool.false_ne_true fun h => absurd h.1 (by simp)
      | succ n =>
          have hstep : (hexToBytesLoop (n + 1) (a :: b :: hex)).isSome = true ↔
              (strtolByte a b).isSome = true ∧ (hexToBytesLoop n hex).isSome = true := by
            rw [hexToBytesLoop]
            cases strtolByte a b with
            | none => simp
            | some byte =>
                cases hexToBytesLoop n hex with
                | none => simp
                | some bytes => simp
          rw [hstep, isSome_strtolByte_iff, ih, Paired, List.length_cons, List.length_cons]
          constructor
          · rintro ⟨hpair, hlength, hrest⟩
            exact ⟨by omega, hpair, hrest⟩
          · rintro ⟨hlength, hpair, hrest⟩
            exact ⟨hpair, by omega, hrest⟩

/-- A pair can be split from an even number of digits. -/
theorem isHex_iff_paired (hex : List Char) : IsHex hex ↔ hex ≠ [] ∧
    Paired Convertible hex ∧ ∀ c ∈ hex, (hexValue c).isSome = true := by
  have hpaired : ∀ hex : List Char, (∀ c ∈ hex, (hexValue c).isSome = true) →
      (Paired Convertible hex ↔ hex.length % 2 = 0) := by
    intro hex hdigits
    induction hex using Paired.induct with
    | case1 => exact iff_of_true True.intro rfl
    | case2 => exact iff_of_false id (by simp)
    | case3 a b hex ih =>
        obtain ⟨ha, hdigits⟩ := List.forall_mem_cons.mp hdigits
        obtain ⟨hb, hdigits⟩ := List.forall_mem_cons.mp hdigits
        rw [Paired, ih hdigits, List.length_cons, List.length_cons]
        constructor
        · rintro ⟨-, heven⟩
          omega
        · intro heven
          exact ⟨⟨hb, .inl ha⟩, by omega⟩
  constructor
  · rintro ⟨hne, heven, hdigits⟩
    exact ⟨hne, (hpaired hex hdigits).mpr heven, hdigits⟩
  · rintro ⟨hne, hpairs, hdigits⟩
    exact ⟨hne, (hpaired hex hdigits).mp hpairs, hdigits⟩

/-- The number of converted bytes is not zero if something was converted. -/
theorem length_hexToBytes_ne_zero_iff (hex : List Char) (length : ℕ) :
    (hexToBytes hex length).length ≠ 0 ↔
      hex ≠ [] ∧ hex.length ≤ 2 * length ∧ Paired Convertible hex := by
  rw [← isSome_hexToBytesLoop_iff, hexToBytes]
  cases hloop : hexToBytesLoop length hex with
  | none => simp
  | some bytes =>
      have hlength := length_hexToBytesLoop hloop
      rw [← List.length_pos_iff]
      simp only [Option.getD_some, Option.isSome_some, and_true]
      omega

/-- **Hexadecimal decoding.** A string is converted to a non-zero number of bytes exactly when it
is a non-empty sequence of an even number of digits which fits in the buffer, and the number is
half of its length, if and only if the string is not one of those which `strtol` accepts with a
space or a sign in place of a digit. The conversion inverts `UTI_BytesToHex`. -/
theorem hexToBytes_strict_iff (hex : List Char) (length : ℕ) :
    (((hexToBytes hex length).length ≠ 0 ↔ IsHex hex ∧ hex.length / 2 ≤ length) ∧
      ((hexToBytes hex length).length ≠ 0 → (hexToBytes hex length).length = hex.length / 2) ∧
      ∀ bytes hexLength, bytesToHex bytes hexLength = some hex → bytes.length ≤ length →
        hexToBytes hex length = bytes) ↔ ¬Lenient hex length := by
  have hinverse : ∀ bytes hexLength, bytesToHex bytes hexLength = some hex →
      bytes.length ≤ length → hexToBytes hex length = bytes := fun _ _ => hexToBytes_bytesToHex
  have hcount : (hexToBytes hex length).length ≠ 0 →
      (hexToBytes hex length).length = hex.length / 2 := by
    rw [hexToBytes]
    cases hloop : hexToBytesLoop length hex with
    | none => exact fun h => absurd rfl h
    | some bytes =>
        have hlength := length_hexToBytesLoop hloop
        intro _
        rw [Option.getD_some]
        omega
  rw [and_iff_left ⟨hcount, hinverse⟩, length_hexToBytes_ne_zero_iff, isHex_iff_paired]
  constructor
  · rintro hiff ⟨hfits, hpairs, c, hc, hnone⟩
    have hne : hex ≠ [] := List.ne_nil_of_mem hc
    obtain ⟨⟨-, -, hdigits⟩, -⟩ := hiff.mp ⟨hne, hfits, hpairs⟩
    exact absurd (hdigits c hc) (by simp [hnone])
  · intro hlenient
    constructor
    · rintro ⟨hne, hfits, hpairs⟩
      refine ⟨⟨hne, hpairs, fun c hc => ?_⟩, by omega⟩
      by_contra hnone
      exact hlenient ⟨hfits, hpairs, c, hc, by simpa using hnone⟩
    · rintro ⟨⟨hne, hpairs, hdigits⟩, hfits⟩
      have heven := ((isHex_iff_paired hex).mpr ⟨hne, hpairs, hdigits⟩).even
      exact ⟨hne, by omega, hpairs⟩

/-- **A sign is taken for a digit**: two characters which are no byte are converted to one. -/
theorem hexToBytes_sign : hexToBytes ['+', '5'] 16 = [5#8] ∧ ¬IsHex ['+', '5'] := by
  refine ⟨by decide, fun h => ?_⟩
  exact absurd (h.digits '+' List.mem_cons_self) (by decide)

end Chrony
