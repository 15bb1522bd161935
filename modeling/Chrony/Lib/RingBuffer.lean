import Mathlib.Data.Nat.Bitwise
import Mathlib.Data.List.Basic
import Mathlib.Data.Nat.ModEq

/-!
# Ring Buffers

A ring buffer keeps a sequence in an array of `cap` slots, starting at the slot `first`
and going around at the end of the array. The slots are a function of their index, of
which only the indices below `cap` are used; what stands outside of the sequence is
arbitrary.

## Main results

* `view_update`: writing one element of the sequence.
* `view_advance`: dropping the first element.
* `view_shift`: making room in the middle.
-/

namespace Chrony.Lib.RingBuffer

variable {α : Type*}

/-- The slot of the element `i`. -/
def pos (first cap i : ℕ) : ℕ :=
  (first + i) % cap

/-- **The sequence kept in the buffer.** -/
def view (slots : ℕ → α) (first cap size : ℕ) : List α :=
  (List.range size).map fun i => slots (pos first cap i)

/-- A mask selects the slot when the capacity is a power of two. -/
theorem and_sub_one_eq_pos (first k i : ℕ) :
    (first + i) &&& (2 ^ k - 1) = pos first (2 ^ k) i :=
  Nat.and_two_pow_sub_one_eq_mod _ k

@[simp] theorem length_view (slots : ℕ → α) (first cap size : ℕ) :
    (view slots first cap size).length = size := by
  rw [view, List.length_map, List.length_range]

@[simp] theorem getElem_view {slots : ℕ → α} {first cap size i : ℕ}
    (h : i < (view slots first cap size).length) :
    (view slots first cap size)[i] = slots (pos first cap i) := by
  simp only [view, List.getElem_map, List.getElem_range]

/-- Different elements have different slots. -/
theorem pos_injective {first cap i j : ℕ} (hi : i < cap) (hj : j < cap)
    (h : pos first cap i = pos first cap j) : i = j := by
  have hmod : i % cap = j % cap := Nat.ModEq.add_left_cancel' first h
  rwa [Nat.mod_eq_of_lt hi, Nat.mod_eq_of_lt hj] at hmod

/-- After the start moves by one, every element is where its successor was. -/
theorem pos_advance (first cap i : ℕ) :
    pos ((first + 1) % cap) cap i = pos first cap (i + 1) := by
  rw [pos, pos, Nat.mod_add_mod, Nat.add_assoc, Nat.add_comm 1 i]

/-- Writing an element of the sequence. -/
theorem view_update (slots : ℕ → α) (a : α) {first cap size i : ℕ} (hi : i < cap)
    (hcap : size ≤ cap) :
    view (Function.update slots (pos first cap i) a) first cap size =
      (view slots first cap size).set i a := by
  refine List.ext_getElem (by simp) ?_
  intro j hj _
  rw [length_view] at hj
  rw [getElem_view, List.getElem_set]
  split
  next hij =>
      rw [hij, Function.update_self]
  next hij =>
      rw [Function.update_of_ne, getElem_view]
      exact fun h => hij (pos_injective (by omega) hi h).symm

/-- Writing after the last element. -/
theorem view_push (slots : ℕ → α) (a : α) {first cap size : ℕ} (h : size < cap) :
    view (Function.update slots (pos first cap size) a) first cap (size + 1) =
      view slots first cap size ++ [a] := by
  have hview : view (Function.update slots (pos first cap size) a) first cap size =
      view slots first cap size := by
    rw [view_update slots a h h.le, List.set_eq_of_length_le (length_view ..).le]
  conv_lhs => rw [view, List.range_succ, List.map_append, List.map_singleton]
  rw [Function.update_self]
  exact congrArg (· ++ [a]) hview

/-- A shorter sequence is a prefix. -/
theorem take_view (slots : ℕ → α) {first cap size n : ℕ} (h : n ≤ size) :
    (view slots first cap size).take n = view slots first cap n := by
  rw [view, ← List.map_take, List.take_range, Nat.min_eq_left h]
  rfl

/-- When the start moves by one, the first element is dropped. -/
theorem view_advance (slots : ℕ → α) (first cap size : ℕ) :
    view slots ((first + 1) % cap) cap size = (view slots first cap (size + 1)).tail := by
  rw [view, view, List.range_succ_eq_map, List.map_cons, List.tail_cons, List.map_map]
  simp only [pos_advance]
  rfl

/-- Elements are moved up by one from the end down to `index`, where room is made. -/
def shift (first cap index : ℕ) (slots : ℕ → α) : ℕ → ℕ → α
  | 0 => slots
  | i + 1 =>
      if index < i + 1 then
        shift first cap index
          (Function.update slots (pos first cap (i + 1)) (slots (pos first cap i))) i
      else slots

theorem shift_apply (first cap index : ℕ) {n j : ℕ} (hn : n < cap) (hj : j < cap)
    (slots : ℕ → α) :
    shift first cap index slots n (pos first cap j) =
      if index < j ∧ j ≤ n then slots (pos first cap (j - 1)) else slots (pos first cap j) := by
  induction n generalizing slots with
  | zero =>
      rw [shift, if_neg (by omega)]
  | succ n ih =>
      rw [shift]
      by_cases hlt : index < n + 1
      · rw [if_pos hlt, ih (by omega)]
        by_cases hjn : j = n + 1
        · subst hjn
          rw [if_neg (by omega), if_pos ⟨hlt, le_refl _⟩, Function.update_self,
            Nat.add_sub_cancel]
        · have hne : pos first cap j ≠ pos first cap (n + 1) :=
            fun h => hjn (pos_injective hj hn h)
          by_cases hmid : index < j ∧ j ≤ n
          · rw [if_pos hmid, if_pos ⟨hmid.1, by omega⟩, Function.update_of_ne]
            exact fun h => absurd (pos_injective (by omega) hn h) (by omega)
          · rw [if_neg hmid, if_neg (by omega), Function.update_of_ne hne]
      · rw [if_neg hlt, if_neg (by omega)]

/-- Making room at `index` and writing there is an insertion which drops what was last. -/
theorem view_shift (slots : ℕ → α) (a : α) {first cap size index : ℕ} (hsize : size < cap)
    (hi : index ≤ size) :
    view (Function.update (shift first cap index slots size) (pos first cap index) a)
        first cap (size + 1) =
      (view slots first cap size).insertIdx index a := by
  have hins : ((view slots first cap size).insertIdx index a).length = size + 1 := by
    rw [List.length_insertIdx, length_view, if_pos hi]
  rw [view_update _ _ (by omega) hsize]
  refine List.ext_getElem (by rw [List.length_set, length_view, hins]) ?_
  intro j hj hj'
  rw [List.length_set, length_view] at hj
  rw [List.getElem_set, List.getElem_insertIdx]
  rcases Nat.lt_trichotomy j index with hlt | rfl | hgt
  · rw [if_neg (by omega), dif_pos hlt, getElem_view, getElem_view,
      shift_apply _ _ _ hsize (by omega), if_neg (by omega)]
  · rw [if_pos rfl, dif_neg (by omega), dif_pos rfl]
  · rw [if_neg (by omega), dif_neg (by omega), dif_neg (by omega), getElem_view, getElem_view,
      shift_apply _ _ _ hsize (by omega), if_pos ⟨hgt, by omega⟩]

end Chrony.Lib.RingBuffer
