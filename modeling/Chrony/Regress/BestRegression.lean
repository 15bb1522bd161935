import Mathlib.Algebra.Order.Ring.Rat
import Mathlib.Algebra.BigOperators.Group.List.Basic

/-!
# The Best Regression

The functions of `regress.c` which fit a line to the samples of a source, in exact
arithmetic. An array which is also used with negative indices is a function of an integer.
The square roots of the source are taken by a function that is given.

## Main results

* `findBestRegression_newStart`: the fit keeps the minimum number of samples.
-/

namespace Chrony.Regress

/-- `REGRESS_RUNS_RATIO`. -/
def regressRunsRatio : ℕ := 2

/-- `MIN_SAMPLES_FOR_REGRESS`. -/
def minSamplesForRegress : ℕ := 3

/-- `critical_runs`. -/
def criticalRuns : List ℕ :=
  [0, 0, 0, 0, 0, 0, 0, 0, 2, 3,
    3, 3, 4, 4, 5, 5, 5, 6, 6, 7,
    7, 7, 8, 8, 9, 9, 9, 10, 10, 11,
    11, 11, 12, 12, 13, 13, 14, 14, 14, 15,
    15, 16, 16, 17, 17, 18, 18, 18, 19, 19,
    20, 20, 21, 21, 21, 22, 22, 23, 23, 24,
    24, 25, 25, 26, 26, 26, 27, 27, 28, 28,
    29, 29, 30, 30, 30, 31, 31, 32, 32, 33,
    33, 34, 34, 35, 35, 35, 36, 36, 37, 37,
    38, 38, 39, 39, 40, 40, 40, 41, 41, 42,
    42, 43, 43, 44, 44, 45, 45, 46, 46, 46,
    47, 47, 48, 48, 49, 49, 50, 50, 51, 51,
    52, 52, 52, 53, 53, 54, 54, 55, 55, 56]

/-- The coefficients of `RGR_GetTCoef`, in thousandths. -/
def tCoefs : List ℕ :=
  [636600, 31600, 12920, 8610, 6869,
    5959, 5408, 5041, 4781, 4587,
    4437, 4318, 4221, 4140, 4073,
    4015, 3965, 3922, 3883, 3850,
    3819, 3792, 3768, 3745, 3725,
    3707, 3690, 3674, 3659, 3646,
    3633, 3622, 3611, 3601, 3591,
    3582, 3574, 3566, 3558, 3551]

/-- `RGR_GetTCoef`. -/
def getTCoef (dof : ℕ) : ℚ :=
  if dof ≤ 40 then (tCoefs.getD (dof - 1) 0 : ℚ) / 1000 else 7 / 2

/-- `n_runs_from_residuals`. -/
def nRunsFromResiduals (resid : List ℚ) : ℕ :=
  1 + (resid.zip resid.tail).countP fun (a, b) => ¬((a < 0 ∧ b < 0) ∨ (a > 0 ∧ b > 0))

/-- The line fitted to the points from `start` on, with the sums which are used later. -/
structure Fit where
  a : ℚ
  b : ℚ
  u : ℚ
  sumV : ℚ
  sumW : ℚ

/-- The results of `RGR_FindBestRegression`. -/
structure Regression where
  b0 : ℚ
  b1 : ℚ
  s2 : ℚ
  sb0 : ℚ
  sb1 : ℚ
  newStart : ℕ
  nRuns : ℕ
  dof : ℕ

section FindBestRegression

variable (sqrt : ℚ → ℚ) (x y w : ℤ → ℚ) (n m minSamples : ℕ)

/-- The sum of a function over the points from `start` on. -/
def sumFrom (start : ℕ) (f : ℤ → ℚ) : ℚ :=
  ((List.range' start (n - start)).map fun i => f (i : ℤ)).sum

/-- The sums of one turn of the loop of `RGR_FindBestRegression`. -/
def fit (start : ℕ) : Fit :=
  let sumU := sumFrom n start fun i => x i / w i
  let sumW := sumFrom n start fun i => 1 / w i
  let u := sumU / sumW
  let sumP := sumFrom n start fun i => y i / w i
  let sumQ := sumFrom n start fun i => y i * (x i - u) / w i
  let sumV := sumFrom n start fun i => (x i - u) * (x i - u) / w i
  let b := sumQ / sumV
  { a := sumP / sumW - b * u, b, u, sumV, sumW }

/-- `resid_start`. -/
def residStart (start : ℕ) : ℤ :=
  max ((n : ℤ) - (n - start : ℤ) * regressRunsRatio) (-m)

/-- The residuals of the points from an index on. -/
def residuals (line : Fit) (first : ℤ) : List ℚ :=
  (List.range (n - first).toNat).map fun k =>
    y (first + k) - line.a - line.b * x (first + k)

/-- The condition of the loop of `RGR_FindBestRegression` to end. -/
def endsAt (start : ℕ) : Bool :=
  let first := residStart n m start
  nRunsFromResiduals (residuals x y n (fit x y w n start) first) >
      criticalRuns.getD ((n : ℤ) - first).toNat 0 ∨
    n - start ≤ minSamplesForRegress ∨ n - start ≤ minSamples

/-- The loop of `RGR_FindBestRegression`, with the number of the points that are left. -/
def findStart : ℕ → ℕ
  | 0 => n
  | left + 1 =>
      if endsAt x y w n m minSamples (n - (left + 1)) then n - (left + 1) else findStart left

/-- `RGR_FindBestRegression`. -/
def findBestRegression : Option Regression :=
  if n < minSamplesForRegress then none
  else
    let start := findStart x y w n m minSamples n
    let line := fit x y w n start
    -- without the extra samples, which may have been used by the loop
    let nruns := nRunsFromResiduals (residuals x y n line start)
    let npoints := n - start
    let ss := (sumFrom n start fun i =>
      (y i - line.a - line.b * x i) * (y i - line.a - line.b * x i) / w i) / (npoints - 2 : ℚ)
    let sb1 := sqrt (ss / line.sumV)
    let aa := line.u * sb1
    some
      { b0 := line.a
        b1 := line.b
        s2 := ss * npoints / line.sumW
        sb0 := sqrt (ss / line.sumW + aa * aa)
        sb1
        newStart := start
        nRuns := nruns
        dof := npoints - 2 }

variable {x y w n m minSamples}

/-- The loop leaves three points. -/
theorem findStart_le {left : ℕ} (hleft : minSamplesForRegress ≤ left) (hn : left ≤ n) :
    findStart x y w n m minSamples left + minSamplesForRegress ≤ n := by
  induction left with
  | zero => exact absurd hleft (by decide)
  | succ left ih =>
      rw [findStart]
      split
      · rw [minSamplesForRegress] at hleft ⊢
        omega
      next hnot =>
          have hmore : ¬n - (n - (left + 1)) ≤ minSamplesForRegress := by
            intro hle
            exact hnot (by simp [endsAt, hle])
          refine ih ?_ ?_
          · omega
          · omega

/-- **The start of the best regression** leaves the minimum number of samples. -/
theorem findBestRegression_newStart {r : Regression}
    (h : findBestRegression sqrt x y w n m minSamples = some r) :
    r.newStart + minSamplesForRegress ≤ n := by
  rw [findBestRegression] at h
  split at h
  · cases h
  next hn =>
      cases h
      exact findStart_le (not_lt.mp hn) le_rfl

end FindBestRegression

/-- The results of `RGR_WeightedRegression`. -/
structure WeightedFit where
  b0 : ℚ
  b1 : ℚ
  s2 : ℚ
  sb0 : ℚ
  sb1 : ℚ

/-- `RGR_WeightedRegression`, with its assertion. -/
def weightedRegression (sqrt : ℚ → ℚ) (x y w : ℤ → ℚ) (n : ℕ) : Option WeightedFit :=
  if n ≥ 3 then
    let line := fit x y w n 0
    let diff (i : ℤ) : ℚ := y i - line.a - line.b * x i
    let s2 := sumFrom n 0 (fun i => diff i * diff i / w i) / (n - 2 : ℚ)
    let sb1 := sqrt (s2 / line.sumV)
    let aa := line.u * sb1
    some {
      b0 := line.a
      b1 := line.b
      s2 := s2 * (n / line.sumW)
      sb0 := sqrt (s2 / line.sumW + aa * aa)
      sb1 }
  else none

/-- The coefficients of `RGR_GetChi2Coef`, in thousandths. -/
def chi2Coefs : List ℕ :=
  [2706, 4605, 6251, 7779, 9236, 10645, 12017, 13362,
    14684, 15987, 17275, 18549, 19812, 21064, 22307, 23542,
    24769, 25989, 27204, 28412, 29615, 30813, 32007, 33196,
    34382, 35563, 36741, 37916, 39087, 40256, 41422, 42585,
    43745, 44903, 46059, 47212, 48363, 49513, 50660, 51805,
    52949, 54090, 55230, 56369, 57505, 58641, 59774, 60907,
    62038, 63167, 64295, 65422, 66548, 67673, 68796, 69919,
    71040, 72160, 73279, 74397, 75514, 76630, 77745, 78860]

/-- `RGR_GetChi2Coef`. -/
def getChi2Coef (dof : ℕ) : ℚ :=
  if dof ≤ 64 then (chi2Coefs.getD (dof - 1) 0 : ℚ) / 1000 else 6 / 5 * dof

/-- `RGR_MultipleRegress`. -/
def multipleRegress (x1 x2 y : ℕ → ℚ) (n : ℕ) : Option ℚ :=
  if n < 4 then none
  else
    let sum (f : ℕ → ℚ) : ℚ := ((List.range n).map f).sum
    let sx1 := sum x1
    let sx2 := sum x2
    let sx1x1 := sum fun i => x1 i * x1 i
    let sx1x2 := sum fun i => x1 i * x2 i
    let sx2x2 := sum fun i => x2 i * x2 i
    let sx1y := sum fun i => x1 i * y i
    let sx2y := sum fun i => x2 i * y i
    let sy := sum y
    let u := n * (sx1x2 * sx1y - sx1x1 * sx2y) + sx1 * sx1 * sx2y - sx1 * sx2 * sx1y +
      sy * (sx2 * sx1x1 - sx1 * sx1x2)
    let v1 := n * (sx1x2 * sx1x2 - sx1x1 * sx2x2)
    let v2 := sx1 * sx1 * sx2x2 + sx2 * sx2 * sx1x1
    let v3 := -2 * sx1 * sx2 * sx1x2
    let v := v1 + v2 + v3
    if |v| * 10 ^ 10 ≤ -v1 + v2 + |v3| then none else some (u / v)

end Chrony.Regress
