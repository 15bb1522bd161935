import Chrony.Lib.Run
import Chrony.Quantiles
import Mathlib.Algebra.Order.Field.Basic
import Mathlib.Data.List.MinMax
import Mathlib.Tactic.FieldSimp
import Mathlib.Tactic.Linarith
import Mathlib.Tactic.Ring

/-!
# Readings of Hardware Clocks

A hardware clock is read between two readings of the system clock, several times at once. The
readings whose delay is expected are combined. When there are none, the reading with the minimum
delay is used, and it has a better quality when it disagrees with the time predicted from the
previous samples. The comparison has only one side. The functions are from `hwclock.c`, with
exact times.

## Main results

* `finishReadings_eq`: what is returned after the delays were accumulated.
* `processReadings_meets_iff`: when the quality is right.
* `processReadings_wrong_quality`: a wrong clock which is not detected.
-/

namespace Chrony.HwClock

open Lib Quantiles

/-- One reading: the times of the system clock before and after the time of the hardware
clock. -/
structure Reading where
  before : ℚ
  hw : ℚ
  after : ℚ
  deriving DecidableEq

/-- `struct HCL_Instance_Record`, without the samples. -/
structure Clock where
  hwRef : ℚ
  localRef : ℚ
  lastErr : ℚ
  precision : ℚ
  validCoefs : Bool
  offset : ℚ
  frequency : ℚ
  delayQuants : Quantiles.Instance

/-- What is used of other modules. -/
structure Env where
  /-- `LCL_CookTime`. -/
  cookTime : ℚ → ℚ
  /-- `LCL_GetSysPrecisionAsQuantum`. -/
  sysPrecision : ℚ
  /-- The order of the calls in `RGR_FindMedian`. -/
  leftFirst : Bool
  /-- The random numbers used for each reading. -/
  rand : ℕ → ℕ → ℚ

/-- What `HCL_ProcessReadings` returns when it returns 1. -/
structure Processed where
  hwTs : ℚ
  localTs : ℚ
  err : ℚ
  quality : ℕ
  deriving DecidableEq

/-- `HCL_CookTime`, without the error. -/
def Clock.cookTime (clock : Clock) (raw : ℚ) : Option ℚ :=
  if clock.validCoefs then
    let elapsed := raw - clock.hwRef
    some (clock.localRef + (elapsed / clock.frequency - clock.offset))
  else none

/-- The delay measured by the system clock. -/
def Reading.rawDelay (r : Reading) : ℚ := r.after - r.before

/-- The multiplier needed to get cooked delays, from the first time and the last one. -/
def correction (env : Env) (first last : ℚ) : ℚ :=
  if first < last then (env.cookTime first - env.cookTime last) / (first - last) else 1

/-- The end of the first loop. -/
inductive Scan
  /-- A delay is negative. -/
  | bad (quants : Quantiles.Instance)
  /-- The minimum delay, and the reading which has it. -/
  | done (best : Option (ℚ × Reading)) (quants : Quantiles.Instance)

/-- The minimum delay and its reading, with one more reading. -/
def keepMin (best : Option (ℚ × Reading)) (delay : ℚ) (r : Reading) : Option (ℚ × Reading) :=
  match best with
  | none => some (delay, r)
  | some (minDelay, minReading) =>
      if minDelay > delay then some (delay, r) else some (minDelay, minReading)

/-- The first loop of `HCL_ProcessReadings`. -/
def scanReadings (env : Env) (freq : ℚ) :
    ℕ → Option (ℚ × Reading) → Quantiles.Instance → List Reading → Option Scan
  | _, best, quants, [] => some (.done best quants)
  | i, best, quants, r :: readings =>
      let delay := freq * r.rawDelay
      if delay < 0 then some (.bad quants)
      else
        match quants.accumulate delay (env.rand i) with
        | none => none
        | some quants => scanReadings env freq (i + 1) (keepMin best delay r) quants readings

/-- The interval of expected delays. -/
def expectedDelays (env : Env) (quants : Quantiles.Instance) : Option (ℚ × ℚ) := do
  let low ← quants.getQuantile env.leftFirst quants.getMinK
  let high ← quants.getQuantile env.leftFirst quants.getMaxK
  let lowDelay := low - quants.getMinStep / 2
  let highDelay := high + quants.getMinStep / 2
  let lowDelay := min lowDelay highDelay
  some (lowDelay, max highDelay (lowDelay + env.sysPrecision))

/-- The sums of the second loop. -/
structure Sums where
  delay : ℚ
  hw : ℚ
  localTime : ℚ
  combined : ℕ

/-- The second loop of `HCL_ProcessReadings`, with the first reading. -/
def combineReadings (freq low high : ℚ) (first : Reading) (readings : List Reading) : Sums :=
  readings.foldl (fun sums r =>
    let delay := freq * r.rawDelay
    if delay < low ∨ delay > high then sums
    else
      { delay := sums.delay + delay
        hw := sums.hw + (r.hw - first.hw)
        localTime := sums.localTime + (r.before - first.before + r.rawDelay / 2)
        combined := sums.combined + 1 }) ⟨0, 0, 0, 0⟩

/-- The reading with the minimum delay, whose quality depends on the prediction. -/
def useMinReading (env : Env) (clock : Clock) (freq minDelay : ℚ) (r : Reading) : Processed :=
  let localTs := r.before + minDelay / freq / 2
  let err := max (minDelay / 2) clock.precision
  let quality :=
    match clock.cookTime r.hw with
    | none => 1
    | some predicted => if env.cookTime localTs - predicted > err then 1 else 0
  ⟨r.hw, localTs, err, quality⟩

/-- `HCL_ProcessReadings` after the first loop. -/
def finishReadings (env : Env) (clock : Clock) (freq : ℚ) (first : Reading)
    (readings : List Reading) (best : Option (ℚ × Reading)) : Option Processed := do
  let (low, high) ← expectedDelays env clock.delayQuants
  let sums := combineReadings freq low high first readings
  if sums.combined > 0 then
    some ⟨first.hw + sums.hw / sums.combined, first.before + sums.localTime / sums.combined,
      max (sums.delay / sums.combined / 2) clock.precision, 2⟩
  else
    let (minDelay, r) ← best
    some (useMinReading env clock freq minDelay r)

/-- `HCL_ProcessReadings`. It returns the result, unless it returns 0, with the state of the
clock, and nothing if an assertion fails. -/
def processReadings (env : Env) (clock : Clock) (readings : List Reading) :
    Option (Option Processed × Clock) :=
  match readings with
  | [] => some (none, clock)
  | first :: rest =>
      let freq := correction env first.before ((first :: rest).getLast (List.cons_ne_nil _ _)).after
      match scanReadings env freq 0 none clock.delayQuants (first :: rest) with
      | none => none
      | some (.bad quants) => some (none, { clock with delayQuants := quants })
      | some (.done best quants) =>
          let clock := { clock with delayQuants := quants }
          (finishReadings env clock freq first (first :: rest) best).map fun p => (some p, clock)

/-! ### What is expected -/

/-- The time of the system clock in the middle of a reading. -/
def Reading.middle (r : Reading) : ℚ := r.before + r.rawDelay / 2

/-- The delay of a reading in cooked time. -/
def Reading.delay (freq : ℚ) (r : Reading) : ℚ := freq * r.rawDelay

/-- The multiplier for the readings. -/
def frequency (env : Env) (readings : List Reading) : ℚ :=
  match readings with
  | [] => 1
  | first :: rest =>
      correction env first.before ((first :: rest).getLast (List.cons_ne_nil _ _)).after

/-- The delays of the readings are accumulated. -/
def accumulateDelays (env : Env) (freq : ℚ) :
    ℕ → Quantiles.Instance → List Reading → Option Quantiles.Instance
  | _, quants, [] => some quants
  | i, quants, r :: readings =>
      (quants.accumulate (r.delay freq) (env.rand i)).bind fun quants =>
        accumulateDelays env freq (i + 1) quants readings

/-- The readings with a delay in an interval. -/
def selected (freq : ℚ) (interval : ℚ × ℚ) (readings : List Reading) : List Reading :=
  readings.filter fun r => interval.1 ≤ r.delay freq ∧ r.delay freq ≤ interval.2

/-- The mean of numbers. -/
def mean (l : List ℚ) : ℚ := l.sum / l.length

/-- **The result of readings.** The selected ones are combined. If there are none, then the one
with the minimum delay has a low quality if and only if the clock is tracked and the predicted
time is within the error from the measured one. -/
structure Meets (env : Env) (clock : Clock) (interval : ℚ × ℚ) (readings : List Reading)
    (p : Processed) : Prop where
  combined : selected (frequency env readings) interval readings ≠ [] →
    p.hwTs = mean ((selected (frequency env readings) interval readings).map Reading.hw) ∧
    p.localTs = mean ((selected (frequency env readings) interval readings).map Reading.middle) ∧
    p.quality = 2
  single : selected (frequency env readings) interval readings = [] →
    ∃ r, readings.argmin (Reading.delay (frequency env readings)) = some r ∧
      p.hwTs = r.hw ∧ p.localTs = r.middle ∧ (p.quality = 0 ∨ p.quality = 1) ∧
      (p.quality = 0 ↔ ∃ predicted, clock.cookTime r.hw = some predicted ∧
        |env.cookTime r.middle - predicted| ≤ p.err)

/-- **The time is predicted too late**: no reading is selected, the clock is tracked, and the
predicted time is later than the measured one by more than the error of the reading with the
minimum delay. -/
def PredictedLate (env : Env) (clock : Clock) (interval : ℚ × ℚ) (readings : List Reading) :
    Prop :=
  selected (frequency env readings) interval readings = [] ∧ ∃ r predicted,
    readings.argmin (Reading.delay (frequency env readings)) = some r ∧
    clock.cookTime r.hw = some predicted ∧
    predicted - env.cookTime r.middle >
      max (r.delay (frequency env readings) / 2) clock.precision

/-! ### The loops -/

variable {env : Env} {clock : Clock} {freq : ℚ}

theorem correction_pos (hcook : StrictMono env.cookTime) (first last : ℚ) :
    0 < correction env first last := by
  rw [correction]
  split
  next hlt => exact div_pos_of_neg_of_neg (sub_neg.mpr (hcook hlt)) (sub_neg.mpr hlt)
  next => exact one_pos

theorem frequency_pos (hcook : StrictMono env.cookTime) (readings : List Reading) :
    0 < frequency env readings := by
  cases readings with
  | nil => exact one_pos
  | cons first rest => exact correction_pos hcook _ _

/-- What is kept of the readings before. -/
def keepBest (freq : ℚ) (best : Option Reading) (r : Reading) : Option Reading :=
  List.argAux (fun b c => b.delay freq < c.delay freq) best r

/-- **The first loop ends** when no delay is negative, with the reading which is found by the
comparisons of delays. -/
theorem scanReadings_eq {readings : List Reading} (hdelay : ∀ r ∈ readings, 0 ≤ r.delay freq)
    (i : ℕ) (best : Option Reading) (quants : Quantiles.Instance) :
    ∃ quants', accumulateDelays env freq i quants readings = some quants' ∧
      scanReadings env freq i (best.map fun r => (r.delay freq, r)) quants readings =
        some (.done ((readings.foldl (keepBest freq) best).map fun r => (r.delay freq, r))
          quants') := by
  induction readings generalizing i best quants with
  | nil => exact ⟨quants, rfl, rfl⟩
  | cons r readings ih =>
      have hr := hdelay r List.mem_cons_self
      obtain ⟨quants₁, haccumulate, -⟩ := quants.accumulate_isSome (r.delay freq) (env.rand i)
      obtain ⟨quants', hquants', hscan⟩ :=
        ih (fun r hr => hdelay r (List.mem_cons_of_mem _ hr)) (i + 1) (keepBest freq best r) quants₁
      have hbest : keepMin (best.map fun r => (r.delay freq, r)) (r.delay freq) r =
          (keepBest freq best r).map fun r => (r.delay freq, r) := by
        cases best with
        | none => rfl
        | some c =>
            dsimp only [Option.map_some, keepMin, keepBest, List.argAux]
            split
            · rfl
            · rfl
      refine ⟨quants', ?_, ?_⟩
      · rw [accumulateDelays, haccumulate]
        exact hquants'
      · have hcons : scanReadings env freq i (best.map fun r => (r.delay freq, r)) quants
            (r :: readings) = scanReadings env freq (i + 1)
              (keepMin (best.map fun r => (r.delay freq, r)) (r.delay freq) r) quants₁
                readings := by
          conv => lhs; unfold scanReadings
          dsimp only
          rw [Reading.delay] at haccumulate hr
          rw [if_neg (not_lt.mpr hr), haccumulate]
          rfl
        rw [hcons, hbest, hscan, List.foldl_cons]

theorem foldl_keepBest (freq : ℚ) (readings : List Reading) :
    readings.foldl (keepBest freq) none = readings.argmin (Reading.delay freq) :=
  rfl

/-- **The interval of expected delays is known.** -/
theorem expectedDelays_isSome (env : Env) (quants : Quantiles.Instance) :
    ∃ interval, expectedDelays env quants = some interval := by
  have hle := quants.config.minK_le_maxK
  obtain ⟨low, hlow⟩ := quants.getQuantile_isSome env.leftFirst (le_refl _) hle
  obtain ⟨high, hhigh⟩ := quants.getQuantile_isSome env.leftFirst hle (le_refl _)
  rw [expectedDelays, Instance.getMaxK_eq, Instance.getMinK, hlow, hhigh]
  exact ⟨_, rfl⟩

/-- **The second loop** adds up the selected readings. -/
theorem combineReadings_eq (freq low high : ℚ) (first : Reading) (readings : List Reading) :
    combineReadings freq low high first readings =
      ⟨((selected freq (low, high) readings).map (Reading.delay freq)).sum,
        ((selected freq (low, high) readings).map fun r => r.hw - first.hw).sum,
        ((selected freq (low, high) readings).map fun r =>
          r.before - first.before + r.rawDelay / 2).sum,
        (selected freq (low, high) readings).length⟩ := by
  induction readings using List.reverseRecOn with
  | nil => rfl
  | append_singleton readings r ih =>
      rw [combineReadings] at ih ⊢
      rw [List.foldl_append, ih, List.foldl_cons, List.foldl_nil]
      dsimp only
      have hfilter : selected freq (low, high) (readings ++ [r]) =
          selected freq (low, high) readings ++ selected freq (low, high) [r] :=
        List.filter_append _ _
      rw [hfilter]
      by_cases hr : low ≤ r.delay freq ∧ r.delay freq ≤ high
      · have hsingle : selected freq (low, high) [r] = [r] :=
          List.filter_cons_of_pos (decide_eq_true hr)
        have hnot : ¬(freq * r.rawDelay < low ∨ freq * r.rawDelay > high) := by
          rw [not_or, not_lt, not_lt]
          exact hr
        rw [if_neg hnot, hsingle]
        simp only [List.map_append, List.map_cons, List.map_nil, List.sum_append, List.sum_cons,
          List.sum_nil, add_zero, List.length_append, List.length_cons, List.length_nil,
          Nat.zero_add, Reading.delay]
      · have hsingle : selected freq (low, high) [r] = [] :=
          List.filter_cons_of_neg (by simpa using hr)
        have hout : freq * r.rawDelay < low ∨ freq * r.rawDelay > high := by
          rw [not_and_or, not_le, not_le] at hr
          exact hr
        rw [if_pos hout, hsingle, List.append_nil]

/-! ### Results -/

/-- A mean can be computed from differences. -/
theorem add_sum_sub_div {α : Type} {l : List α} (hl : l ≠ []) (f : α → ℚ) (c : ℚ) :
    c + (l.map fun a => f a - c).sum / l.length = mean (l.map f) := by
  have hpos : (l.length : ℚ) ≠ 0 := Nat.cast_ne_zero.mpr (List.length_pos_iff.mpr hl).ne'
  have hsum : (l.map fun a => f a - c).sum = (l.map f).sum - l.length * c := by
    clear hl hpos
    induction l with
    | nil => simp
    | cons a l ih =>
        rw [List.map_cons, List.sum_cons, ih, List.map_cons, List.sum_cons, List.length_cons]
        push_cast
        ring
  rw [hsum, mean, List.length_map]
  field_simp
  ring

/-- **What is returned after the first loop.** -/
theorem finishReadings_eq {readings : List Reading} {low high : ℚ} {first r : Reading}
    (hinterval : expectedDelays env clock.delayQuants = some (low, high)) :
    ∃ p, finishReadings env clock freq first readings (some (r.delay freq, r)) = some p ∧
      (selected freq (low, high) readings ≠ [] →
        p.hwTs = mean ((selected freq (low, high) readings).map Reading.hw) ∧
        p.localTs = mean ((selected freq (low, high) readings).map Reading.middle) ∧
        p.quality = 2) ∧
      (selected freq (low, high) readings = [] →
        p = useMinReading env clock freq (r.delay freq) r) := by
  have hsums := combineReadings_eq freq low high first readings
  rw [finishReadings, hinterval, Option.bind_eq_bind, Option.bind_some]
  dsimp only
  rw [hsums]
  dsimp only
  by_cases hselected : selected freq (low, high) readings = []
  · rw [hselected, List.length_nil, if_neg (Nat.lt_irrefl 0)]
    exact ⟨_, rfl, fun h => absurd rfl h, fun _ => rfl⟩
  · rw [if_pos (List.length_pos_iff.mpr hselected)]
    refine ⟨_, rfl, fun _ => ⟨add_sum_sub_div hselected _ _, ?_, rfl⟩, fun h => absurd h hselected⟩
    have hmiddle : ∀ r : Reading, r.before - first.before + r.rawDelay / 2 =
        r.middle - first.before := by
      intro r
      rw [Reading.middle]
      ring
    simp only [hmiddle]
    exact add_sum_sub_div hselected _ _

/-- The time of the reading with the minimum delay is in its middle. -/
theorem useMinReading_localTs (hfreq : freq ≠ 0) (r : Reading) :
    (useMinReading env clock freq (r.delay freq) r).localTs = r.middle := by
  rw [useMinReading, Reading.delay, Reading.middle]
  dsimp only
  rw [mul_div_cancel_left₀ _ hfreq]

/-- The quality depends on one side of the interval. -/
theorem useMinReading_quality (hfreq : freq ≠ 0) (r : Reading) :
    (useMinReading env clock freq (r.delay freq) r).quality =
      match clock.cookTime r.hw with
      | none => 1
      | some predicted =>
          if env.cookTime r.middle - predicted >
            (useMinReading env clock freq (r.delay freq) r).err then 1 else 0 := by
  have hmiddle : (useMinReading env clock freq (r.delay freq) r).localTs = r.middle :=
    useMinReading_localTs hfreq r
  rw [← hmiddle]
  rfl

/-- **When the quality is right**: the clock is not tracked, or the predicted time is not later
than the measured one by more than the error. -/
theorem useMinReading_quality_iff (hfreq : freq ≠ 0) {r : Reading} (hdelay : 0 ≤ r.delay freq) :
    ((useMinReading env clock freq (r.delay freq) r).quality = 0 ↔
      ∃ predicted, clock.cookTime r.hw = some predicted ∧
        |env.cookTime r.middle - predicted| ≤
          (useMinReading env clock freq (r.delay freq) r).err) ↔
    ¬∃ predicted, clock.cookTime r.hw = some predicted ∧
      predicted - env.cookTime r.middle >
        (useMinReading env clock freq (r.delay freq) r).err := by
  have herr : 0 ≤ (useMinReading env clock freq (r.delay freq) r).err :=
    (div_nonneg hdelay zero_le_two).trans (le_max_left _ _)
  rw [useMinReading_quality hfreq]
  generalize (useMinReading env clock freq (r.delay freq) r).err = err at herr ⊢
  cases hcook : clock.cookTime r.hw with
  | none => simp
  | some predicted =>
      simp only [Option.some.injEq, exists_eq_left', gt_iff_lt, abs_le]
      split
      next hlate =>
          refine ⟨fun _ hearly => ?_, fun _ => ⟨fun h => absurd h one_ne_zero, fun h => ?_⟩⟩
          · linarith
          · exact absurd h.2 (not_le.mpr hlate)
      next hlate =>
          rw [not_lt] at hlate ⊢
          refine ⟨fun h => ?_, fun h => ⟨fun _ => ⟨?_, hlate⟩, fun _ => rfl⟩⟩
          · have hnear := (h.mp rfl).1
            linarith
          · linarith

/-- **When the result of the readings is right**: the time is not predicted too late. -/
theorem processReadings_meets_iff {readings : List Reading} (hcook : StrictMono env.cookTime)
    (hne : readings ≠ []) (hdelay : ∀ r ∈ readings, 0 ≤ r.rawDelay) (clock : Clock) :
    ∃ quants interval p,
      accumulateDelays env (frequency env readings) 0 clock.delayQuants readings = some quants ∧
      expectedDelays env quants = some interval ∧
      processReadings env clock readings = some (some p, { clock with delayQuants := quants }) ∧
      (Meets env clock interval readings p ↔ ¬PredictedLate env clock interval readings) := by
  have hpos := frequency_pos hcook readings
  have hcooked : ∀ r ∈ readings, 0 ≤ r.delay (frequency env readings) :=
    fun r hr => mul_nonneg hpos.le (hdelay r hr)
  obtain ⟨quants, hquants, hscan⟩ := scanReadings_eq hcooked 0 none clock.delayQuants
  obtain ⟨⟨low, high⟩, hinterval⟩ := expectedDelays_isSome env quants
  obtain ⟨r, hr⟩ := Option.ne_none_iff_exists'.mp
    (mt List.argmin_eq_none.mp hne :
      readings.argmin (Reading.delay (frequency env readings)) ≠ none)
  rw [foldl_keepBest, hr] at hscan
  have hprocess : ∃ first, processReadings env clock readings =
      (finishReadings env { clock with delayQuants := quants } (frequency env readings)
        first readings (some (r.delay (frequency env readings), r))).map
          fun p => (some p, { clock with delayQuants := quants }) := by
    cases readings with
    | nil => exact absurd rfl hne
    | cons first rest =>
        refine ⟨first, ?_⟩
        rw [frequency] at hscan ⊢
        rw [processReadings]
        dsimp only
        rw [Option.map_none, Option.map_some] at hscan
        rw [hscan]
  obtain ⟨first, hprocess⟩ := hprocess
  have hinterval' : expectedDelays env { clock with delayQuants := quants : Clock }.delayQuants =
      some (low, high) := hinterval
  obtain ⟨p, hfinish, hcombined, hsingle⟩ := finishReadings_eq hinterval'
  rw [hfinish] at hprocess
  refine ⟨quants, (low, high), p, hquants, hinterval, hprocess, ?_⟩
  by_cases hselected : selected (frequency env readings) (low, high) readings = []
  · obtain rfl := hsingle hselected
    have hquality := @useMinReading_quality_iff env { clock with delayQuants := quants }
      (frequency env readings) hpos.ne' r (hcooked r (List.argmin_mem hr))
    constructor
    · rintro hmeets ⟨-, r', predicted, hr', hpredicted, hlate⟩
      obtain ⟨r'', hr'', -, -, -, hiff⟩ := hmeets.single hselected
      obtain rfl := Option.some.inj (hr.symm.trans hr')
      obtain rfl := Option.some.inj (hr.symm.trans hr'')
      exact hquality.mp hiff ⟨predicted, hpredicted, hlate⟩
    · intro hnot
      refine ⟨fun h => absurd hselected h, fun _ => ⟨r, hr, rfl, ?_, ?_, hquality.mpr ?_⟩⟩
      · exact useMinReading_localTs hpos.ne' r
      · rw [useMinReading_quality hpos.ne']
        split
        · exact .inr rfl
        · split
          · exact .inr rfl
          · exact .inl rfl
      · rintro ⟨predicted, hpredicted, hlate⟩
        exact hnot ⟨hselected, r, predicted, hr, hpredicted, hlate⟩
  · exact ⟨fun _ hlate => hselected hlate.1, fun _ => ⟨hcombined, fun h => absurd h hselected⟩⟩

/-- The parameters used by `HCL_CreateInstance`. -/
def delayConfig : Quantiles.Config where
  minK := 1
  maxK := 2
  q := 10
  repeats := 7
  largeStepDelay := 1000
  minStep := 1 / 1000000000
  two_le_q := by decide
  minK_le_maxK := by decide
  one_le_minK := by decide
  maxK_lt_q := by decide
  one_le_repeats := by decide
  repeats_le := by decide
  minStep_pos := by norm_num

/-- The clock of the system has no error, and the estimates of short delays are not changed. -/
def sampleEnv : Env := ⟨id, 1 / 1000000, true, fun _ _ => 0⟩

/-- A clock which agrees with the system clock, after two readings with the delay of one second. -/
def sampleClock : Clock :=
  ⟨0, 0, 0, 1 / 1000000, true, 0, 1, ⟨delayConfig, fun _ => ⟨1, 1 / 1000000000, 1⟩, 2⟩⟩

/-- A reading with the delay of ten seconds. -/
def sampleReading (hw : ℚ) : Reading := ⟨0, hw, 10⟩

/-- The prediction of a clock which agrees with the system clock. -/
theorem sampleClock_cookTime (raw : ℚ) : sampleClock.cookTime raw = some raw := by
  refine congrArg some ?_
  change 0 + ((raw - 0) / 1 - 0) = raw
  ring

/-- A reading which agrees with the prediction has a low quality. -/
theorem processReadings_meets_sample : ∃ quants interval p,
    processReadings sampleEnv sampleClock [sampleReading 5] =
      some (some p, { sampleClock with delayQuants := quants }) ∧
    Meets sampleEnv sampleClock interval [sampleReading 5] p := by
  have hdelay : ∀ r ∈ [sampleReading 5], 0 ≤ r.rawDelay := by
    intro r hr
    obtain rfl := List.mem_singleton.mp hr
    norm_num [sampleReading, Reading.rawDelay]
  have hcook : StrictMono sampleEnv.cookTime := strictMono_id
  obtain ⟨quants, interval, p, -, -, hprocess, hiff⟩ :=
    processReadings_meets_iff hcook (List.cons_ne_nil _ _) hdelay sampleClock
  refine ⟨quants, interval, p, hprocess, hiff.mpr ?_⟩
  rintro ⟨-, r, predicted, hr, hpredicted, hlate⟩
  rw [List.argmin_singleton] at hr
  obtain rfl := Option.some.inj hr
  rw [sampleClock_cookTime] at hpredicted
  obtain rfl := Option.some.inj hpredicted
  have hmax := lt_of_le_of_lt (le_max_right _ _) hlate
  norm_num [sampleReading, Reading.middle, Reading.rawDelay, sampleEnv, sampleClock] at hmax

/-- **A wrong clock is not detected** if its time is predicted too late: the predicted time is
100 seconds, the measured one is 5 seconds, and the error is 5 seconds. -/
theorem processReadings_wrong_quality : ∃ quants interval clock',
    accumulateDelays sampleEnv (frequency sampleEnv [sampleReading 100]) 0
      sampleClock.delayQuants [sampleReading 100] = some quants ∧
    expectedDelays sampleEnv quants = some interval ∧
    processReadings sampleEnv sampleClock [sampleReading 100] =
      some (some ⟨100, 5, 5, 0⟩, clock') ∧
    ¬Meets sampleEnv sampleClock interval [sampleReading 100] ⟨100, 5, 5, 0⟩ := by
  have hview : ((accumulateDelays sampleEnv (frequency sampleEnv [sampleReading 100]) 0
      sampleClock.delayQuants [sampleReading 100]).bind (expectedDelays sampleEnv)).map
        (fun interval => decide (selected (frequency sampleEnv [sampleReading 100]) interval
          [sampleReading 100] = [])) = some true := by
    decide +kernel
  have hprocess : (processReadings sampleEnv sampleClock [sampleReading 100]).map Prod.fst =
      some (some ⟨100, 5, 5, 0⟩) := by
    decide +kernel
  obtain ⟨interval, hinterval, hselected⟩ := Option.map_eq_some_iff.mp hview
  obtain ⟨quants, hquants, hinterval⟩ := Option.bind_eq_some_iff.mp hinterval
  obtain ⟨⟨p, clock'⟩, hprocess, rfl⟩ := Option.map_eq_some_iff.mp hprocess
  refine ⟨quants, interval, clock', hquants, hinterval, hprocess, fun hmeets => ?_⟩
  obtain ⟨r, hr, -, -, -, hiff⟩ := hmeets.single (of_decide_eq_true hselected)
  rw [List.argmin_singleton] at hr
  obtain rfl := Option.some.inj hr
  obtain ⟨predicted, hpredicted, hnear⟩ := hiff.mp rfl
  rw [sampleClock_cookTime] at hpredicted
  obtain rfl := Option.some.inj hpredicted
  have hnear := (abs_le.mp hnear).1
  norm_num [sampleReading, Reading.middle, Reading.rawDelay, sampleEnv] at hnear

end Chrony.HwClock
