import Mathlib.Data.BitVec
import Mathlib.Data.Nat.Notation

/-!
# The Order of Wrapping Timestamps

Timestamps of a fixed width are compared by the sign of their difference, so that the
order goes on when they wrap around. The order is not transitive. It is compatible with
the distances from a common base as long as these are less than a half of the range
(`before_of_dist_lt`, `dist_lt_of_before`), which is how sets of such timestamps are
reasoned about.
-/

namespace Chrony.Lib.WrapOrder

variable {w : ℕ}

/-- How much later `b` is than `a`, without a sign. -/
def dist (a b : BitVec w) : ℕ :=
  (b - a).toNat

/-- The timestamp `a` is before `b` when their difference is positive. -/
def Before (a b : BitVec w) : Prop :=
  0 < (b - a).toInt

instance (a b : BitVec w) : Decidable (Before a b) :=
  inferInstanceAs (Decidable (0 < (b - a).toInt))

/-- The distance in terms of the values. -/
theorem dist_cases (a b : BitVec w) :
    (a.toNat ≤ b.toNat ∧ dist a b = b.toNat - a.toNat) ∨
      (b.toNat < a.toNat ∧ dist a b = 2 ^ w + b.toNat - a.toNat) := by
  have ha := a.isLt
  have hb := b.isLt
  rw [dist, BitVec.toNat_sub]
  by_cases h : a.toNat ≤ b.toNat
  · refine .inl ⟨h, ?_⟩
    rw [show 2 ^ w - a.toNat + b.toNat = b.toNat - a.toNat + 2 ^ w by omega,
      Nat.add_mod_right, Nat.mod_eq_of_lt (by omega)]
  · refine .inr ⟨by omega, ?_⟩
    rw [Nat.mod_eq_of_lt (by omega)]
    omega

theorem dist_lt (a b : BitVec w) : dist a b < 2 ^ w :=
  (b - a).isLt

@[simp] theorem dist_self (a : BitVec w) : dist a a = 0 := by
  have := dist_cases a a
  omega

theorem dist_eq_zero_iff {a b : BitVec w} : dist a b = 0 ↔ a = b := by
  constructor
  · intro h
    have ha := a.isLt
    refine BitVec.eq_of_toNat_eq ?_
    have := dist_cases a b
    omega
  · rintro rfl
    exact dist_self a

theorem dist_pos_iff {a b : BitVec w} : 0 < dist a b ↔ a ≠ b := by
  rw [Nat.pos_iff_ne_zero, ne_eq, dist_eq_zero_iff]

/-- Distances from a common base. -/
theorem dist_eq_sub {base a b : BitVec w} (h : dist base a ≤ dist base b) :
    dist a b = dist base b - dist base a := by
  have h1 := dist_cases base a
  have h2 := dist_cases base b
  have h3 := dist_cases a b
  have := a.isLt
  have := b.isLt
  have := base.isLt
  omega

/-- The distance to what is farther from the base goes around. -/
theorem dist_eq_add {base a b : BitVec w} (h : dist base b < dist base a) :
    dist a b = 2 ^ w - dist base a + dist base b := by
  have h1 := dist_cases base a
  have h2 := dist_cases base b
  have h3 := dist_cases a b
  have := a.isLt
  have := b.isLt
  have := base.isLt
  omega

theorem before_iff {a b : BitVec w} : Before a b ↔ 0 < dist a b ∧ 2 * dist a b < 2 ^ w := by
  have := dist_lt a b
  rw [Before, BitVec.toInt_eq_toNat_cond, dist] at *
  split <;> omega

/-- A negative difference. -/
theorem toInt_sub_neg_iff {a b : BitVec w} : (b - a).toInt < 0 ↔ 2 ^ w ≤ 2 * dist a b := by
  have := dist_lt a b
  rw [BitVec.toInt_eq_toNat_cond, dist] at *
  split <;> omega

theorem Before.ne {a b : BitVec w} (h : Before a b) : a ≠ b :=
  dist_pos_iff.mp (before_iff.mp h).1

/-- Within a half of the range from a base, a smaller distance means before. -/
theorem before_of_dist_lt {base a b : BitVec w} (hb : 2 * dist base b < 2 ^ w)
    (h : dist base a < dist base b) : Before a b := by
  rw [before_iff, dist_eq_sub h.le]
  omega

/-- Within a half of the range from a base, before means a smaller distance. -/
theorem dist_lt_of_before {base a b : BitVec w} (ha : 2 * dist base a < 2 ^ w)
    (h : Before a b) : dist base a < dist base b := by
  rw [before_iff] at h
  by_contra hle
  rcases Nat.lt_or_eq_of_le (Nat.le_of_not_lt hle) with hlt | heq
  · rw [dist_eq_add hlt] at h
    have := dist_lt base a
    omega
  · rw [dist_eq_sub heq.ge] at h
    omega

/-- A difference which is not positive. -/
theorem toInt_sub_le_iff {a b : BitVec w} : (b - a).toInt ≤ 0 ↔ ¬Before a b := by
  rw [Before, not_lt]

/-! ### Increasing sequences -/

/-- The first `n` timestamps of a sequence are ordered. -/
def Increasing (e : ℕ → BitVec w) (n : ℕ) : Prop :=
  ∀ i j, i < j → j < n → Before (e i) (e j)

namespace Increasing

variable {e : ℕ → BitVec w} {n i j : ℕ}

/-- The whole sequence is within a half of the range from its start. -/
theorem two_mul_dist_lt (h : Increasing e n) (hi : i < n) : 2 * dist (e 0) (e i) < 2 ^ w := by
  rcases Nat.eq_zero_or_pos i with rfl | hpos
  · rw [dist_self]
    exact Nat.two_pow_pos w
  · exact (before_iff.mp (h 0 i hpos hi)).2

theorem dist_lt_dist (h : Increasing e n) (hij : i < j) (hj : j < n) :
    dist (e 0) (e i) < dist (e 0) (e j) :=
  dist_lt_of_before (h.two_mul_dist_lt (hij.trans hj)) (h i j hij hj)

theorem dist_le_dist (h : Increasing e n) (hij : i ≤ j) (hj : j < n) :
    dist (e 0) (e i) ≤ dist (e 0) (e j) := by
  rcases Nat.lt_or_eq_of_le hij with hlt | rfl
  · exact (h.dist_lt_dist hlt hj).le
  · exact le_refl _

end Increasing

end Chrony.Lib.WrapOrder
