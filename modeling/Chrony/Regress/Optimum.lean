import Mathlib.Algebra.Order.BigOperators.Group.Finset
import Mathlib.Order.ConditionallyCompleteLattice.Basic
import Mathlib.Order.Interval.Finset.Nat
import Chrony.Lib.LeastSquares
import Chrony.Regress.Arrays
import Mathlib.Data.Int.ConditionallyCompleteOrder

/-!
# The Optimum of the Best Regression

The line of `RGR_FindBestRegression` is computed from sums with centred `x`. It is the unique
minimiser of the weighted sum of squared residuals, and the number of samples which are dropped
is the least one with which the runs test passes, if it is not limited by the minimum number of
samples.

## Main results

* `rgrFindBestRegression_best`: what the regression finds, and that it finds it.
-/

namespace Chrony.Regress

open Chrony.Lib

variable {x y w : ℤ → ℚ} {n m : ℕ}

/-- **The best line** through the points from an index on: the unique minimiser of the sum of
squared residuals over the weights. -/
def BestLine (x y w : ℤ → ℚ) (n start : ℕ) (b0 b1 : ℚ) : Prop :=
  LeastSquares.IsBest (Finset.Ico start n) (fun i : ℕ => 1 / w i) (fun i : ℕ => x i)
    (fun i : ℕ => y i) b0 b1

/-- The number of points before an index which extend the runs test: as many as are kept, if
there are so many. -/
def olderPoints (n m start : ℕ) : ℕ :=
  min (n - start) (m + start)

/-- The residuals of a line at the points which are kept and at the older points. -/
def testedResiduals (x y : ℤ → ℚ) (n m start : ℕ) (b0 b1 : ℚ) : List ℚ :=
  (List.range (olderPoints n m start + (n - start))).map fun k : ℕ =>
    let i : ℤ := start - olderPoints n m start + k
    y i - b0 - b1 * x i

/-- **The samples from an index on are kept**: the residuals of their best line have more runs
than the critical value, or there are only as many samples as are needed. -/
def Kept (x y w : ℤ → ℚ) (n m : ℕ) (minSamples : ℤ) (start : ℕ) : Prop :=
  (∃ b0 b1, BestLine x y w n start b0 b1 ∧
      criticalRuns.getD (olderPoints n m start + (n - start)) 0 <
        nRunsFromResiduals (testedResiduals x y n m start b0 b1)) ∨
    (n : ℤ) - start ≤ max (minSamplesForRegress : ℤ) minSamples

/-! ### The line -/

theorem sumFrom_eq_sum (n start : ℕ) (f : ℤ → ℚ) :
    sumFrom n start f = ∑ i ∈ Finset.Ico start n, f i := by
  rw [sumFrom_eq]
  rfl

/-- **The line of a turn is the best line**, if it is through two points at least. -/
theorem bestLine_fit {start : ℕ} (hstart : start + 2 ≤ n) (hw : ∀ i : ℕ, i < n → 0 < w i)
    (hx : StrictMonoOn x (Set.Ico (-m : ℤ) n)) :
    BestLine x y w n start (fit x y w n start).a (fit x y w n start).b := by
  set points := Finset.Ico start n
  have hfirst : start ∈ points := Finset.mem_Ico.mpr ⟨le_rfl, by omega⟩
  have hsecond : start + 1 ∈ points := Finset.mem_Ico.mpr ⟨by omega, by omega⟩
  have hne : x start ≠ x (start + 1 : ℕ) := by
    refine (hx ?_ ?_ ?_).ne
    · exact Set.mem_Ico.mpr (by omega)
    · exact Set.mem_Ico.mpr (by omega)
    · omega
  have hv : ∀ i ∈ points, (0 : ℚ) < 1 / w i :=
    fun i hi => one_div_pos.mpr (hw i (Finset.mem_Ico.mp hi).2)
  have hW : ∑ i ∈ points, 1 / w i = (fit x y w n start).sumW :=
    (sumFrom_eq_sum n start fun i => 1 / w i).symm
  have hW0 : (fit x y w n start).sumW ≠ 0 := by
    rw [← hW]
    exact (Finset.sum_pos hv ⟨start, hfirst⟩).ne'
  have hu : (fit x y w n start).u =
      (∑ i ∈ points, 1 / w i * x i) / (fit x y w n start).sumW := by
    change sumFrom n start (fun i => x i / w i) / _ = _
    rw [sumFrom_eq_sum]
    congr 1
    exact Finset.sum_congr rfl fun i _ => by rw [one_div_mul_eq_div]
  have hV : ∑ i ∈ points, 1 / w i * (x i - (fit x y w n start).u) ^ 2 =
      (fit x y w n start).sumV := by
    change _ = sumFrom n start fun i =>
      (x i - (fit x y w n start).u) * (x i - (fit x y w n start).u) / w i
    rw [sumFrom_eq_sum]
    exact Finset.sum_congr rfl fun i _ => by rw [one_div_mul_eq_div, sq]
  have hV0 : (fit x y w n start).sumV ≠ 0 := by
    rw [← hV]
    exact (LeastSquares.sum_sq_pos hv hfirst hsecond hne _).ne'
  have hb : (fit x y w n start).b =
      (∑ i ∈ points, 1 / w i * (y i * (x i - (fit x y w n start).u))) /
        (fit x y w n start).sumV := by
    change sumFrom n start (fun i => y i * (x i - (fit x y w n start).u) / w i) / _ = _
    rw [sumFrom_eq_sum]
    congr 1
    exact Finset.sum_congr rfl fun i _ => by rw [one_div_mul_eq_div]
  have ha : (fit x y w n start).a =
      (∑ i ∈ points, 1 / w i * y i) / (fit x y w n start).sumW -
        (fit x y w n start).b * (fit x y w n start).u := by
    change sumFrom n start (fun i => y i / w i) / _ - _ = _
    rw [sumFrom_eq_sum]
    congr 2
    exact Finset.sum_congr rfl fun i _ => by rw [one_div_mul_eq_div]
  exact (LeastSquares.normal_of_centred hW hW0 hu hV hV0 hb ha).isBest hv hfirst hsecond hne

/-! ### The loop -/

theorem residStart_eq {start : ℕ} (hstart : start ≤ n) :
    residStart n m start = start - olderPoints n m start := by
  rw [residStart, olderPoints, regressRunsRatio]
  omega

/-- The tested residuals are those of the loop. -/
theorem residuals_eq_tested {start : ℕ} (hstart : start ≤ n) (line : Fit) :
    residuals x y n line (residStart n m start) = testedResiduals x y n m start line.a line.b := by
  rw [residuals_eq, residStart_eq hstart, testedResiduals]
  congr 2
  omega

/-- **The loop ends** at an index exactly if the samples from it on are kept. -/
theorem endsAt_iff_kept {start : ℕ} {minSamples : ℤ} (hstart : start + 2 ≤ n)
    (hw : ∀ i : ℕ, i < n → 0 < w i) (hx : StrictMonoOn x (Set.Ico (-m : ℤ) n)) :
    endsAt x y w n m minSamples.toNat start = true ↔ Kept x y w n m minSamples start := by
  have hbest := bestLine_fit (y := y) hstart hw hx
  have hlength : ((n : ℤ) - residStart n m start).toNat = olderPoints n m start + (n - start) := by
    rw [residStart_eq (by omega)]
    omega
  rw [endsAt_iff, residuals_eq_tested (by omega), hlength]
  refine or_congr ⟨fun h => ⟨_, _, hbest, h⟩, ?_⟩ ?_
  · rintro ⟨b0, b1, hline, h⟩
    obtain ⟨rfl, rfl⟩ := Prod.mk.inj (hbest.unique hline)
    exact h
  · rw [le_max_iff]
    omega

/-- **The loop finds the first index** at which it ends. -/
theorem findStart_first (minSamples : ℕ) {left : ℕ} (hleft : minSamplesForRegress ≤ left)
    (hn : left ≤ n) :
    endsAt x y w n m minSamples (findStart x y w n m minSamples left) = true ∧
      ∀ start, n - left ≤ start → endsAt x y w n m minSamples start = true →
        findStart x y w n m minSamples left ≤ start := by
  induction left with
  | zero => exact absurd hleft (by decide)
  | succ left ih =>
      rw [findStart]
      split
      next hend => exact ⟨hend, fun start hstart _ => hstart⟩
      next hnot =>
          have hmore : ¬n - (n - (left + 1)) ≤ minSamplesForRegress := by
            intro hle
            exact hnot (endsAt_iff.mpr (.inr (.inl hle)))
          obtain ⟨hend, hfirst⟩ := ih (by omega) (by omega)
          refine ⟨hend, fun start hstart hstop => hfirst start ?_ hstop⟩
          have hne : start ≠ n - (left + 1) := fun heq => hnot (heq ▸ hstop)
          omega

/-- **What `RGR_FindBestRegression` finds**: the first index from which on the samples are kept,
and the best line through the points from it on. The square root and the contents of the stack
do not matter. -/
theorem rgrFindBestRegression_best (sqrt : ℚ → ℚ) (stack x y w : ℤ → ℚ) (n m : ℕ) (minSamples : ℤ)
    (hn : n ≤ maxPoints) (hthree : minSamplesForRegress ≤ n) (hw : ∀ i : ℕ, i < n → 0 < w i)
    (hx : StrictMonoOn x (Set.Ico (-m : ℤ) n)) :
    ∃ r, rgrFindBestRegression ⟨-m, n, x⟩ ⟨-m, n, y⟩ ⟨0, n, w⟩ n m minSamples sqrt stack =
        .ok (some r) ∧
      IsLeast ({start : ℕ | Kept x y w n m minSamples start}) r.newStart ∧
      BestLine x y w n r.newStart r.b0 r.b1 ∧
      min (n : ℤ) (max (minSamplesForRegress : ℤ) minSamples) ≤ n - r.newStart ∧
      (r.dof : ℤ) = n - r.newStart - 2 ∧ 1 ≤ r.dof := by
  obtain ⟨hend, hfirst⟩ := findStart_first (x := x) (y := y) (w := w) (m := m)
    minSamples.toNat hthree le_rfl
  have hthree' : findStart x y w n m minSamples.toNat n + minSamplesForRegress ≤ n :=
    findStart_le hthree le_rfl
  rw [minSamplesForRegress] at hthree'
  set start := findStart x y w n m minSamples.toNat n with hstart
  have hresult : ∃ r, findBestRegression sqrt x y w n m minSamples.toNat = some r ∧
      r.newStart = start ∧ r.b0 = (fit x y w n start).a ∧ r.b1 = (fit x y w n start).b ∧
      r.dof = n - start - 2 := by
    rw [findBestRegression, if_neg (not_lt.mpr hthree)]
    exact ⟨_, rfl, rfl, rfl, rfl, rfl⟩
  obtain ⟨r, hr, hnew, hb0, hb1, hdof⟩ := hresult
  refine ⟨r, ?_, ⟨?_, ?_⟩, ?_, ?_, ?_, ?_⟩
  · rw [rgrFindBestRegression_eq sqrt stack x y w n m minSamples hn, hr]
  · rw [hnew]
    exact (endsAt_iff_kept (by omega) hw hx).mp hend
  · -- A smaller index leaves enough points for a line.
    intro earlier hkept
    rw [hnew]
    by_contra hlt
    exact hlt (hfirst earlier (by omega) ((endsAt_iff_kept (by omega) hw hx).mpr hkept))
  · rw [hnew, hb0, hb1]
    exact bestLine_fit (by omega) hw hx
  · rw [hnew]
    rcases Nat.eq_zero_or_pos start with hzero | hpos
    · rw [hzero]
      exact (min_le_left _ _).trans (by omega)
    · -- The previous index would have been found if there were not more samples.
      refine (min_le_right _ _).trans ?_
      by_contra hless
      have hkept : Kept x y w n m minSamples (start - 1) := .inr (by omega)
      have hle := hfirst (start - 1) (by omega) ((endsAt_iff_kept (by omega) hw hx).mpr hkept)
      omega
  · rw [hnew, hdof]
    omega
  · rw [hdof]
    omega

/-- Four points on a line, and two older ones. -/
theorem rgrFindBestRegression_best_line :
    ∃ r, rgrFindBestRegression ⟨-2, 4, fun i => i⟩ ⟨-2, 4, fun i => 2 * i⟩ ⟨0, 4, fun _ => 1⟩ 4 2 1
        id (fun _ => 0) = .ok (some r) ∧
      IsLeast {start : ℕ | Kept (fun i => i) (fun i => 2 * i) (fun _ => 1) 4 2 1 start} r.newStart ∧
      BestLine (fun i => i) (fun i => 2 * i) (fun _ => 1) 4 r.newStart r.b0 r.b1 ∧
      min (4 : ℤ) (max (minSamplesForRegress : ℤ) 1) ≤ 4 - r.newStart ∧
      (r.dof : ℤ) = 4 - r.newStart - 2 ∧ 1 ≤ r.dof :=
  rgrFindBestRegression_best id (fun _ => 0) (fun i => i) (fun i => 2 * i) (fun _ => 1) 4 2 1
    (by decide) (by decide) (fun _ _ => one_pos) fun _ _ _ _ h => Int.cast_lt.mpr h

end Chrony.Regress
