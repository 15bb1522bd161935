import Mathlib.Algebra.Order.Ring.Nat
import Mathlib.Data.List.Basic
import Mathlib.Tactic.Common

/-!
# Byte Strings

Unsigned integers in the network order, and the parts of a byte string which are read from
it. A value which is read from a prefix of a byte string is the same in the whole string.

## Main results

* `decode16_encode16`, `decode32_encode32`: an encoded value is decoded to the same value.
* `decode16_drop_take`: reading from a prefix.
* `take_overwrite`, `take_overwrite_add`: what a copy to a position changes and what it keeps.
-/

namespace Chrony.Lib.Bytes

/-- A byte. -/
abbrev Byte := BitVec 8

/-- The bytes of a 16-bit value. -/
def encode16 (n : ℕ) : List Byte := [BitVec.ofNat 8 (n / 256), BitVec.ofNat 8 n]

/-- The value of the first two bytes. -/
def decode16 : List Byte → ℕ
  | a :: b :: _ => a.toNat * 256 + b.toNat
  | _ => 0

/-- The bytes of a 32-bit value. -/
def encode32 (n : ℕ) : List Byte := encode16 (n / 65536) ++ encode16 n

/-- The value of the first four bytes. -/
def decode32 (data : List Byte) : ℕ := decode16 data * 65536 + decode16 (data.drop 2)

/-- The bytes at a position. -/
def slice (data : List Byte) (start length : ℕ) : List Byte := (data.drop start).take length

/-- A buffer with other bytes at a position. What does not fit in the buffer is not copied. -/
def overwrite (data : List Byte) (start : ℕ) (new : List Byte) : List Byte :=
  data.take start ++ (new.take (data.length - start) ++ data.drop (start + new.length))

variable {data : List Byte} {n : ℕ}

@[simp] theorem length_encode16 (n : ℕ) : (encode16 n).length = 2 := rfl

@[simp] theorem length_encode32 (n : ℕ) : (encode32 n).length = 4 := rfl

theorem decode16_lt (data : List Byte) : decode16 data < 65536 := by
  unfold decode16
  split
  next a b _ =>
      have := a.isLt
      have := b.isLt
      omega
  next => omega

/-- **An encoded value is decoded to its lower bits.** -/
theorem decode16_encode16 (n : ℕ) (data : List Byte) :
    decode16 (encode16 n ++ data) = n % 65536 := by
  change (BitVec.ofNat 8 (n / 256)).toNat * 256 + (BitVec.ofNat 8 n).toNat = _
  rw [BitVec.toNat_ofNat, BitVec.toNat_ofNat]
  omega

theorem decode16_encode16_of_lt (h : n < 65536) (data : List Byte) :
    decode16 (encode16 n ++ data) = n := by
  rw [decode16_encode16, Nat.mod_eq_of_lt h]

/-- What was decoded is encoded to the same bytes. -/
theorem encode16_decode16 (a b : Byte) (data : List Byte) :
    encode16 (decode16 (a :: b :: data)) = [a, b] := by
  have ha := a.isLt
  have hb := b.isLt
  have hdiv : decode16 (a :: b :: data) / 256 = a.toNat := by
    rw [decode16]
    omega
  rw [encode16, hdiv, BitVec.ofNat_toNat, BitVec.setWidth_eq]
  refine congrArg (fun x => [a, x]) (BitVec.eq_of_toNat_eq ?_)
  rw [decode16, BitVec.toNat_ofNat]
  omega

/-- The first two bytes are those of their value. -/
theorem exists_eq_encode16 (data : List Byte) (h : 2 ≤ data.length) :
    ∃ rest, data = encode16 (decode16 data) ++ rest ∧ rest = data.drop 2 := by
  rcases data with _ | ⟨a, _ | ⟨b, rest⟩⟩
  · cases h
  · exact absurd h (Nat.lt_irrefl 1 ∘ Nat.lt_of_succ_le)
  · refine ⟨rest, ?_, rfl⟩
    rw [encode16_decode16]
    rfl

theorem decode32_encode32 (h : n < 2 ^ 32) (data : List Byte) :
    decode32 (encode32 n ++ data) = n := by
  have hdrop : (encode16 (n / 65536) ++ (encode16 n ++ data)).drop 2 = encode16 n ++ data := rfl
  rw [decode32, encode32, List.append_assoc, hdrop, decode16_encode16_of_lt (by omega),
    decode16_encode16]
  omega

/-- Two bytes of a prefix. -/
theorem decode16_drop_take {i k : ℕ} (h : i + 2 ≤ k) :
    decode16 ((data.take k).drop i) = decode16 (data.drop i) := by
  rw [List.drop_take]
  obtain ⟨m, hm⟩ : ∃ m, k - i = m + 2 := ⟨k - i - 2, by omega⟩
  rw [hm]
  rcases data.drop i with _ | ⟨a, _ | ⟨b, l⟩⟩
  · rfl
  · rfl
  · rfl

@[simp] theorem length_slice (data : List Byte) (start length : ℕ) :
    (slice data start length).length = min length (data.length - start) := by
  rw [slice, List.length_take, List.length_drop]

/-- The bytes between others are read back. -/
theorem slice_append (before data after : List Byte) :
    slice (before ++ (data ++ after)) before.length data.length = data := by
  rw [slice, List.drop_left, List.take_left]

theorem slice_take {start length k : ℕ} (h : start + length ≤ k) :
    slice (data.take k) start length = slice data start length := by
  rw [slice, slice, List.drop_take, List.take_take, Nat.min_eq_left (by omega)]

@[simp] theorem length_overwrite (data : List Byte) (start : ℕ) (new : List Byte) :
    (overwrite data start new).length = data.length := by
  simp only [overwrite, List.length_append, List.length_take, List.length_drop]
  omega

/-- **What is before the position is kept.** -/
theorem take_overwrite {start k : ℕ} {new : List Byte} (hk : k ≤ start) :
    (overwrite data start new).take k = data.take k := by
  rcases Nat.le_total start data.length with hle | hle
  · have hlength : (data.take start).length = start := List.length_take_of_le hle
    rw [overwrite, List.take_append_of_le_length (by omega), List.take_take, Nat.min_eq_left hk]
  · rw [overwrite, List.take_of_length_le hle, Nat.sub_eq_zero_of_le hle, List.take_zero,
      List.nil_append, List.drop_of_length_le (by omega), List.append_nil]

/-- **The bytes are at the position**, if they fit in the buffer. -/
theorem take_overwrite_add {start : ℕ} {new : List Byte}
    (h : start + new.length ≤ data.length) :
    (overwrite data start new).take (start + new.length) = data.take start ++ new := by
  have hlength : (data.take start ++ new).length = start + new.length := by
    rw [List.length_append, List.length_take_of_le (by omega)]
  rw [overwrite, List.take_of_length_le (l := new) (by omega), ← List.append_assoc, ← hlength,
    List.take_left]

end Chrony.Lib.Bytes
