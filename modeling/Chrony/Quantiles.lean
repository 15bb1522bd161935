import Chrony.Regress.Median

/-!
# Estimation of Quantiles

The quantiles of a sequence of values are estimated without keeping the values. Each quantile has
several estimates, which are updated with different random numbers, and their median is used. The
functions are from `quantiles.c`, with exact numbers. A failed assertion gives `none`.

## Main results

* `Instance.accumulate_isSome`: a value can always be accumulated.
* `Instance.getQuantile_isSome`: each quantile has an estimate.
-/

namespace Chrony.Quantiles

open Regress

/-- `MAX_REPEAT`. -/
def maxRepeat : ℕ := 64

/-- `struct Quantile`. -/
structure Quantile where
  est : ℚ
  step : ℚ
  sign : ℤ
  deriving DecidableEq

/-- **The parameters of `QNT_CreateInstance`**, with its assertion. -/
structure Config where
  minK : ℕ
  maxK : ℕ
  q : ℕ
  repeats : ℕ
  largeStepDelay : ℕ
  minStep : ℚ
  two_le_q : 2 ≤ q
  minK_le_maxK : minK ≤ maxK
  one_le_minK : 1 ≤ minK
  maxK_lt_q : maxK < q
  one_le_repeats : 1 ≤ repeats
  repeats_le : repeats ≤ maxRepeat
  minStep_pos : 0 < minStep

/-- `n_quants`. -/
def Config.nQuants (config : Config) : ℕ :=
  (config.maxK - config.minK + 1) * config.repeats

/-- `neg_step_limit`. -/
def Config.negStepLimit (config : Config) : ℚ :=
  -config.largeStepDelay * config.minStep

/-- `struct QNT_Instance_Record`. The array is a function with the quantiles below `n_quants`. -/
structure Instance where
  config : Config
  quants : ℕ → Quantile
  nSet : ℕ

namespace Instance

/-- `QNT_Reset`. -/
def reset (inst : Instance) : Instance :=
  { inst with
    nSet := 0
    quants := fun i =>
      if i < inst.config.nQuants then ⟨0, inst.config.minStep, 1⟩ else inst.quants i }

/-- `QNT_CreateInstance`. -/
def create (config : Config) : Instance :=
  reset ⟨config, fun _ => ⟨0, 0, 0⟩, 0⟩

end Instance

/-! ### Initial values -/

/-- An assignment to an estimate. -/
def setEst (quants : ℕ → Quantile) (i : ℕ) (est : ℚ) : ℕ → Quantile :=
  Function.update quants i { quants i with est }

/-- The first `n` estimates of a quantile are set. -/
def setGroup (first : ℕ) (est : ℚ) : ℕ → (ℕ → Quantile) → ℕ → Quantile
  | 0, quants => quants
  | j + 1, quants => setEst (setGroup first est j quants) (first + j) est

/-- The first loop of `insert_initial_value`, which moves larger values. It returns the position
of the new value. -/
def moveLarger (repeats : ℕ) (value : ℚ) : ℕ → (ℕ → Quantile) → ℕ × (ℕ → Quantile)
  | 0, quants => (0, quants)
  | i + 1, quants =>
      if (quants (i * repeats)).est > value then
        moveLarger repeats value i
          (setGroup ((i + 1) * repeats) (quants (i * repeats)).est repeats quants)
      else (i + 1, quants)

/-- The last loop of `insert_initial_value`, for the next `n` estimates. -/
def duplicateLast : ℕ → ℕ → (ℕ → Quantile) → ℕ → Quantile
  | _, 0, quants => quants
  | i, n + 1, quants => duplicateLast (i + 1) n (setEst quants i (quants (i - 1)).est)

/-- `insert_initial_value`. -/
def Instance.insertInitialValue (inst : Instance) (value : ℚ) : Option Instance :=
  let r := inst.config.repeats
  if inst.nSet * r < inst.config.nQuants then
    let (i, quants) := moveLarger r value inst.nSet inst.quants
    let quants := setGroup (i * r) value r quants
    let nSet := inst.nSet + 1
    some { inst with
      nSet
      quants := duplicateLast (nSet * r) (inst.config.nQuants - nSet * r) quants }
  else none

/-! ### Updates -/

/-- `update_estimate`. -/
def updateEstimate (quantile : Quantile) (value p rand minStep negStepLimit : ℚ) : Quantile :=
  let limit := fun quantile : Quantile =>
    if quantile.step < negStepLimit then { quantile with step := negStepLimit } else quantile
  if value ≥ quantile.est then
    if rand < 1 - p then quantile
    else
      let step := quantile.step + if quantile.sign > 0 then minStep else -minStep
      let est := quantile.est + if step > minStep then step else minStep
      let (step, est) :=
        if est > value then (step + (value - est), value + minStep / 4) else (step, est)
      let step := if quantile.sign < 0 ∧ step > minStep then minStep else step
      limit ⟨est, step, 1⟩
  else
    if rand < p then quantile
    else
      let step := quantile.step + if quantile.sign < 0 then minStep else -minStep
      let est := quantile.est - if step > minStep then step else minStep
      let (step, est) :=
        if est < value then (step + (est - value), value - minStep / 4) else (step, est)
      let step := if quantile.sign > 0 ∧ step > minStep then minStep else step
      limit ⟨est, step, -1⟩

namespace Instance

variable (inst : Instance)

/-- `QNT_Accumulate`, with the random numbers between 0 and 1 for the estimates. -/
def accumulate (value : ℚ) (rand : ℕ → ℚ) : Option Instance :=
  let config := inst.config
  if inst.nSet * config.repeats < config.nQuants then inst.insertInitialValue value
  else
    some { inst with
      quants := fun i =>
        if i < config.nQuants then
          updateEstimate (inst.quants i) value
            (((i / config.repeats + config.minK : ℕ) : ℚ) / config.q) (rand i)
            config.minStep config.negStepLimit
        else inst.quants i }

/-- `QNT_GetMinK`. -/
def getMinK : ℕ := inst.config.minK

/-- `QNT_GetMaxK`. -/
def getMaxK : ℕ := inst.config.minK + inst.config.nQuants / inst.config.repeats - 1

/-- `QNT_GetMinStep`. -/
def getMinStep : ℚ := inst.config.minStep

/-- `QNT_GetQuantile`. -/
def getQuantile (leftFirst : Bool) (k : ℕ) : Option ℚ :=
  let config := inst.config
  if k ≥ config.minK ∧ (k - config.minK) * config.repeats < config.nQuants then
    rgrFindMedian config.repeats maxPoints leftFirst fun i =>
      (inst.quants ((k - config.minK) * config.repeats + i)).est
  else none

/-- **A value can always be accumulated.** -/
theorem accumulate_isSome (value : ℚ) (rand : ℕ → ℚ) :
    ∃ inst', inst.accumulate value rand = some inst' ∧ inst'.config = inst.config := by
  rw [accumulate]
  split
  next hset =>
      rw [insertInitialValue, if_pos hset]
      exact ⟨_, rfl, rfl⟩
  next => exact ⟨_, rfl, rfl⟩

/-- **Each quantile has an estimate.** -/
theorem getQuantile_isSome (leftFirst : Bool) {k : ℕ} (hmin : inst.config.minK ≤ k)
    (hmax : k ≤ inst.config.maxK) : ∃ est, inst.getQuantile leftFirst k = some est := by
  have hrepeats := inst.config.one_le_repeats
  have hrange : (k - inst.config.minK) * inst.config.repeats < inst.config.nQuants := by
    rw [Config.nQuants]
    exact Nat.mul_lt_mul_of_pos_right (by omega) hrepeats
  rw [getQuantile, if_pos ⟨hmin, hrange⟩]
  exact rgrFindMedian_isSome hrepeats inst.config.repeats_le inst.config.repeats_le leftFirst _

theorem getMaxK_eq : inst.getMaxK = inst.config.maxK := by
  have hle := inst.config.minK_le_maxK
  rw [getMaxK, Config.nQuants, Nat.mul_div_cancel _ inst.config.one_le_repeats]
  omega

end Instance

end Chrony.Quantiles
