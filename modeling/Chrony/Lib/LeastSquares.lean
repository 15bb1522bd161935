import Mathlib.Algebra.BigOperators.Ring.Finset
import Mathlib.Algebra.Order.BigOperators.Ring.Finset
import Mathlib.Algebra.Order.Field.Basic
import Mathlib.Tactic.FieldSimp
import Mathlib.Tactic.LinearCombination

/-!
# Weighted Least Squares

A line `a + b * x` is fitted to points with positive weights by the least sum of weighted squared
residuals. A line whose residuals are orthogonal to the constants and to `x` (the normal
equations) is a minimiser, and it is the only one if two points have different `x`. The usual way
to solve the equations is to centre `x` at its weighted mean first.

## Main results

* `Normal.isBest`: a solution of the normal equations is the unique minimiser.
* `normal_of_centred`: the centred formulas solve the normal equations.
-/

namespace Chrony.Lib.LeastSquares

variable {ι K : Type*} [Field K] (s : Finset ι) (v x y : ι → K)

/-- **The weighted sum of squared residuals** of a line. -/
def squares (a b : K) : K :=
  ∑ i ∈ s, v i * (y i - a - b * x i) ^ 2

/-- **The normal equations** of a line. -/
structure Normal (a b : K) : Prop where
  sum_eq_zero : ∑ i ∈ s, v i * (y i - a - b * x i) = 0
  sum_mul_eq_zero : ∑ i ∈ s, v i * (y i - a - b * x i) * x i = 0

variable {s v x y}

/-- The sum of squares of any line, relative to a line with orthogonal residuals. -/
theorem Normal.squares_eq {a b : K} (h : Normal s v x y a b) (a' b' : K) :
    squares s v x y a' b' =
      squares s v x y a b + ∑ i ∈ s, v i * ((a - a') + (b - b') * x i) ^ 2 := by
  have hcross : ∑ i ∈ s, 2 * ((a - a') * (v i * (y i - a - b * x i)) +
      (b - b') * (v i * (y i - a - b * x i) * x i)) = 0 := by
    rw [← Finset.mul_sum, Finset.sum_add_distrib, ← Finset.mul_sum, ← Finset.mul_sum,
      h.sum_eq_zero, h.sum_mul_eq_zero, mul_zero, mul_zero, add_zero, mul_zero]
  calc squares s v x y a' b'
      = ∑ i ∈ s, (v i * (y i - a - b * x i) ^ 2 + v i * ((a - a') + (b - b') * x i) ^ 2 +
          2 * ((a - a') * (v i * (y i - a - b * x i)) +
            (b - b') * (v i * (y i - a - b * x i) * x i))) :=
        Finset.sum_congr rfl fun i _ => by ring
    _ = squares s v x y a b + ∑ i ∈ s, v i * ((a - a') + (b - b') * x i) ^ 2 := by
        rw [Finset.sum_add_distrib, hcross, add_zero, Finset.sum_add_distrib, squares]

/-- The weighted mean is centred. -/
theorem sum_centred_eq_zero {W u : K} (hW : ∑ i ∈ s, v i = W) (hW0 : W ≠ 0)
    (hu : u = (∑ i ∈ s, v i * x i) / W) : ∑ i ∈ s, v i * (x i - u) = 0 := by
  simp only [mul_sub, Finset.sum_sub_distrib]
  rw [← Finset.sum_mul, hW, hu, mul_div_cancel₀ _ hW0, sub_self]

/-- **The centred formulas** solve the normal equations. -/
theorem normal_of_centred {W u V a b : K} (hW : ∑ i ∈ s, v i = W) (hW0 : W ≠ 0)
    (hu : u = (∑ i ∈ s, v i * x i) / W) (hV : ∑ i ∈ s, v i * (x i - u) ^ 2 = V) (hV0 : V ≠ 0)
    (hb : b = (∑ i ∈ s, v i * (y i * (x i - u))) / V)
    (ha : a = (∑ i ∈ s, v i * y i) / W - b * u) : Normal s v x y a b := by
  have hcentred := sum_centred_eq_zero hW hW0 hu
  have hzero : ∑ i ∈ s, v i * (y i - a - b * x i) = 0 := by
    have hsum : ∑ i ∈ s, v i * (y i - a - b * x i) =
        ∑ i ∈ s, v i * y i - (∑ i ∈ s, v i) * (a + b * u) - b * ∑ i ∈ s, v i * (x i - u) := by
      rw [Finset.sum_mul, Finset.mul_sum, ← Finset.sum_sub_distrib, ← Finset.sum_sub_distrib]
      exact Finset.sum_congr rfl fun i _ => by ring
    rw [hsum, hcentred, hW, ha, sub_add_cancel, mul_div_cancel₀ _ hW0]
    ring
  refine ⟨hzero, ?_⟩
  have hsum : ∑ i ∈ s, v i * (y i - a - b * x i) * x i =
      ∑ i ∈ s, v i * (y i * (x i - u)) - (a + b * u) * ∑ i ∈ s, v i * (x i - u) -
        b * ∑ i ∈ s, v i * (x i - u) ^ 2 + u * ∑ i ∈ s, v i * (y i - a - b * x i) := by
    rw [Finset.mul_sum, Finset.mul_sum, Finset.mul_sum, ← Finset.sum_sub_distrib,
      ← Finset.sum_sub_distrib, ← Finset.sum_add_distrib]
    exact Finset.sum_congr rfl fun i _ => by ring
  rw [hsum, hcentred, hzero, hV, hb, div_mul_cancel₀ _ hV0]
  ring

/-- A line which is zero at two points is zero. -/
theorem eq_zero_of_two_roots {c d p q : K} (hne : p ≠ q) (hp : c + d * p = 0) (hq : c + d * q = 0) :
    c = 0 ∧ d = 0 := by
  have hd : d = 0 := by
    have hmul : d * (p - q) = 0 := by linear_combination hp - hq
    exact (mul_eq_zero.mp hmul).resolve_right (sub_ne_zero.mpr hne)
  rw [hd, zero_mul, add_zero] at hp
  exact ⟨hp, hd⟩

variable [LinearOrder K]

variable (s v x y) in
/-- **The best line**: its sum of squares is less than that of any other line. -/
def IsBest (a b : K) : Prop :=
  ∀ a' b', (a', b') ≠ (a, b) → squares s v x y a b < squares s v x y a' b'

theorem IsBest.unique {a b a' b' : K} (h : IsBest s v x y a b) (h' : IsBest s v x y a' b') :
    (a', b') = (a, b) := by
  by_contra hne
  exact lt_asymm (h a' b' hne) (h' a b (Ne.symm hne))

variable [IsStrictOrderedRing K]

/-- **A solution of the normal equations** is the best line if two points have different `x`. -/
theorem Normal.isBest {a b : K} (h : Normal s v x y a b) (hv : ∀ i ∈ s, 0 < v i) {j k : ι}
    (hj : j ∈ s) (hk : k ∈ s) (hne : x j ≠ x k) : IsBest s v x y a b := by
  intro a' b' hline
  rw [h.squares_eq a' b']
  refine lt_add_of_pos_right _ ?_
  have hnonneg : ∀ i ∈ s, 0 ≤ v i * ((a - a') + (b - b') * x i) ^ 2 :=
    fun i hi => mul_nonneg (hv i hi).le (sq_nonneg _)
  refine (Finset.sum_nonneg hnonneg).lt_of_ne fun hsum => hline ?_
  have hroot : ∀ i ∈ s, (a - a') + (b - b') * x i = 0 := by
    intro i hi
    have hterm := (Finset.sum_eq_zero_iff_of_nonneg hnonneg).mp hsum.symm i hi
    exact pow_eq_zero_iff two_ne_zero |>.mp ((mul_eq_zero.mp hterm).resolve_left (hv i hi).ne')
  obtain ⟨hc, hd⟩ := eq_zero_of_two_roots hne (hroot j hj) (hroot k hk)
  rw [sub_eq_zero.mp hc, sub_eq_zero.mp hd]

/-- The sum of centred squares is positive if two points have different `x`. -/
theorem sum_sq_pos (hv : ∀ i ∈ s, 0 < v i) {j k : ι} (hj : j ∈ s) (hk : k ∈ s)
    (hne : x j ≠ x k) (u : K) : 0 < ∑ i ∈ s, v i * (x i - u) ^ 2 := by
  have hnonneg : ∀ i ∈ s, 0 ≤ v i * (x i - u) ^ 2 :=
    fun i hi => mul_nonneg (hv i hi).le (sq_nonneg _)
  refine (Finset.sum_nonneg hnonneg).lt_of_ne fun hsum => hne ?_
  have heq : ∀ i ∈ s, x i = u := by
    intro i hi
    have hterm := (Finset.sum_eq_zero_iff_of_nonneg hnonneg).mp hsum.symm i hi
    have hzero := (mul_eq_zero.mp hterm).resolve_left (hv i hi).ne'
    exact sub_eq_zero.mp (pow_eq_zero_iff two_ne_zero |>.mp hzero)
  rw [heq j hj, heq k hk]

end Chrony.Lib.LeastSquares
