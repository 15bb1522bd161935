import Mathlib.Order.Lattice

/-!
# The First Least Value

A loop over a sequence which replaces its candidate only by a value that is strictly less ends
with the first one of the least values.

## Main results

* `FirstLeast.succ_of_lt`, `FirstLeast.succ_of_le`: the two outcomes of one turn of the loop.
-/

namespace Chrony.Lib

variable {α : Type*} [LinearOrder α] {f : ℕ → α} {n i : ℕ}

/-- **The first of the least values** among the first `n` values of a sequence. -/
structure FirstLeast (f : ℕ → α) (n i : ℕ) : Prop where
  lt : i < n
  le : ∀ j < n, f i ≤ f j
  lt_of_lt : ∀ j < i, f i < f j

namespace FirstLeast

theorem single (f : ℕ → α) : FirstLeast f 1 0 where
  lt := Nat.one_pos
  le := fun j hj => by rw [Nat.lt_one_iff.mp hj]
  lt_of_lt := fun j hj => absurd hj (Nat.not_lt_zero j)

/-- The next value is less than the candidate. -/
theorem succ_of_lt (h : FirstLeast f n i) (hlt : f n < f i) : FirstLeast f (n + 1) n where
  lt := Nat.lt_succ_self n
  le := by
    intro j hj
    rcases Nat.lt_succ_iff_lt_or_eq.mp hj with hj | rfl
    · exact hlt.le.trans (h.le j hj)
    · exact le_rfl
  lt_of_lt := fun j hj => hlt.trans_le (h.le j hj)

/-- The next value is not less than the candidate. -/
theorem succ_of_le (h : FirstLeast f n i) (hle : f i ≤ f n) : FirstLeast f (n + 1) i where
  lt := Nat.lt_succ_of_lt h.lt
  le := by
    intro j hj
    rcases Nat.lt_succ_iff_lt_or_eq.mp hj with hj | rfl
    · exact h.le j hj
    · exact hle
  lt_of_lt := h.lt_of_lt

end FirstLeast

end Chrony.Lib
