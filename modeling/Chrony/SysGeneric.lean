import Mathlib.Algebra.Order.Field.Basic
import Mathlib.Algebra.Order.Ring.Rat
import Mathlib.Data.Rat.Floor
import Mathlib.Tactic.FieldSimp
import Mathlib.Tactic.Linarith
import Mathlib.Tactic.LinearCombination
import Mathlib.Tactic.Ring

/-!
# Slewing of the System Clock

The generic driver of the system clock in `sys_generic.c`, in exact arithmetic. An offset is
corrected by a change of the frequency for some time, or by a slew in the system. The offset
which is not corrected yet is hidden from the other modules: the cooked time is the raw time with
the correction of `offset_convert`.

The clock and the driver of the system are a part of the state. The driver for fast slews reports
minus the offset which it still has to slew. The clock runs at the rate `1 - total_freq / 1e6`
and it is moved by the fast slew.

## Main results

* `step_cooked`: the change of the cooked time in one step.
* `run_cooked`: the change of the cooked time in a run.
-/

namespace Chrony.SysGeneric

/-- `MIN_OFFSET_CORRECTION`. -/
def minOffsetCorrection : ℚ := 1 / 10 ^ 9

/-- `MIN_SLEW_DURATION`. -/
def minSlewDuration : ℚ := 1

/-- `MAX_SLEW_DURATION`. -/
def maxSlewDuration : ℚ := 10 ^ 4

/-- `MAX_SLEW_EXCESS_DURATION`. -/
def maxSlewExcessDuration : ℚ := 100

/-- `MIN_SLEW_DURATION_EXCESS_RATIO`. -/
def minSlewDurationExcessRatio : ℚ := 5

/-- `SLEW_EXCESS_DURATION_DECAY`. -/
def slewExcessDurationDecay : ℚ := 9 / 10

/-- One million. -/
def million : ℚ := 10 ^ 6

/-- The constants of the driver. -/
structure Config where
  maxFreq : ℚ
  maxFreqChangeDelay : ℚ
  maxCorrFreq : ℚ
  /-- Whether the system has a driver for fast slews. -/
  fastslew : Bool
  fastslewMinOffset : ℚ
  fastslewMaxRate : ℚ

/-- `LCL_ChangeType`. -/
inductive ChangeType
  | adjust
  | step
  | unknownStep
  deriving DecidableEq

/-- `drv_set_freq`. It returns the frequency which was set, after rounding. -/
abbrev SetFreq := { f : ℚ → ℚ // ∀ freq, |f freq| < million }

/-- **The state of the driver and the clock.** -/
structure Clock where
  baseFreq : ℚ
  offsetRegister : ℚ
  slewFreq : ℚ
  slewStart : ℚ
  /-- The time of the timeout. -/
  slewTimeout : Option ℚ
  slewDuration : ℚ
  slewExcessDuration : ℚ
  correctionRate : ℚ
  slewError : ℚ
  fastslewActive : Bool
  /-- The raw time. -/
  raw : ℚ
  /-- The frequency which was set in the system. -/
  totalFreq : ℚ
  /-- The offset which has to be slewed by the system. -/
  remaining : ℚ

/-- `SYS_Generic_CompleteFreqDriver`. The frequency is the one which is read from the system. -/
def Clock.init (freq raw : ℚ) : Clock :=
  ⟨freq, 0, 0, 0, none, 0, 0, 0, 0, false, raw, freq, 0⟩

section Model

variable (config : Config)

/-- `start_fastslew`. -/
def Clock.startFastslew (c : Clock) : Clock :=
  if !config.fastslew then c
  else
    { c with
      remaining := c.remaining + c.offsetRegister
      offsetRegister := 0
      fastslewActive := true }

/-- `stop_fastslew`. -/
def Clock.stopFastslew (c : Clock) : Clock :=
  if !config.fastslew ∨ !c.fastslewActive then c
  else
    let corr := -c.remaining
    { c with
      remaining := c.remaining + corr
      offsetRegister := c.offsetRegister - corr }

/-- `clamp_freq`. -/
def clampFreq (freq : ℚ) : ℚ :=
  if freq > config.maxFreq then config.maxFreq
  else if freq < -config.maxFreq then -config.maxFreq
  else freq

/-- The new value of `slew_excess_duration`. -/
def updateExcess (slewExcessDuration excessDuration : ℚ) : ℚ :=
  let slewExcessDuration := (slewExcessDuration + 1 / 10 ^ 9) * slewExcessDurationDecay
  if slewExcessDuration < excessDuration ∧ excessDuration ≤ maxSlewExcessDuration then
    excessDuration
  else slewExcessDuration

/-- The wanted duration of a new slew. -/
def Clock.newDuration (c : Clock) : ℚ :=
  if |c.offsetRegister| < minOffsetCorrection then maxSlewDuration
  else
    let duration := c.correctionRate / |c.offsetRegister|
    let duration := if duration < minSlewDuration then minSlewDuration else duration
    if duration < minSlewDurationExcessRatio * c.slewExcessDuration then
      minSlewDurationExcessRatio * c.slewExcessDuration
    else duration

/-- `corr_freq` after it was clamped. -/
def Clock.corrFreq (c : Clock) : ℚ :=
  let corrFreq := c.offsetRegister / c.newDuration
  if corrFreq < -config.maxCorrFreq then -config.maxCorrFreq
  else if corrFreq > config.maxCorrFreq then config.maxCorrFreq
  else corrFreq

/-- The achieved slew is removed from the register. -/
def Clock.endSlew (c : Clock) : Clock :=
  let duration := c.raw - c.slewStart
  let c := Clock.stopFastslew config
    { c with offsetRegister := c.offsetRegister - c.slewFreq * duration }
  { c with slewExcessDuration := updateExcess c.slewExcessDuration (duration - c.slewDuration) }

/-- A large offset is passed to the system. The result has the frequency of the slew. -/
def Clock.passOffset (c : Clock) : Clock × ℚ :=
  let corrFreq := c.corrFreq config
  if config.fastslew ∧ |corrFreq| ≥ config.fastslewMaxRate ∧
      |c.offsetRegister| > config.fastslewMinOffset then
    (c.startFastslew config, 0)
  else (c, corrFreq)

/-- The duration of the slew with the new frequency. -/
def Clock.slewLength (c : Clock) : ℚ :=
  if |c.offsetRegister| < minOffsetCorrection ∨ c.offsetRegister * c.slewFreq ≤ 0 then
    maxSlewDuration
  else
    let duration := c.offsetRegister / c.slewFreq
    if duration < minSlewDuration then minSlewDuration
    else if duration > maxSlewDuration then maxSlewDuration
    else duration

/-- The new frequency is set. -/
def Clock.startSlew (c : Clock) (corrFreq : ℚ) (setFreq : SetFreq) : Clock :=
  let totalFreq := clampFreq config (c.baseFreq + corrFreq * (million - c.baseFreq))
  let totalFreq := setFreq.1 totalFreq
  let slewFreq := (totalFreq - c.baseFreq) / (million - totalFreq)
  let slewError := |(c.slewFreq - slewFreq) * config.maxFreqChangeDelay|
  let c := { c with totalFreq, slewFreq, slewError }
  { c with
    slewTimeout := some (c.raw + c.slewLength)
    slewStart := c.raw
    slewDuration := c.slewLength }

/-- **`update_slew`.** -/
def Clock.updateSlew (c : Clock) (setFreq : SetFreq) : Clock :=
  let r := (c.endSlew config).passOffset config
  r.1.startSlew config r.2 setFreq

/-- `handle_end_of_slew`. -/
def Clock.handleEndOfSlew (c : Clock) (setFreq : SetFreq) : Clock :=
  Clock.updateSlew config { c with slewTimeout := none } setFreq

/-- `set_frequency`. -/
def Clock.setFrequency (c : Clock) (freq : ℚ) (setFreq : SetFreq) : Clock :=
  Clock.updateSlew config { c with baseFreq := freq } setFreq

/-- `accrue_offset`. -/
def Clock.accrueOffset (c : Clock) (offset corrRate : ℚ) (setFreq : SetFreq) : Clock :=
  Clock.updateSlew config
    { c with offsetRegister := c.offsetRegister + offset, correctionRate := corrRate } setFreq

/-- `fastslew_corr` in `offset_convert`. -/
def Clock.fastslewCorr (c : Clock) : ℚ :=
  if config.fastslew ∧ c.fastslewActive then -c.remaining else 0

/-- `offset_convert`. The error of the fast slew comes from the driver of the system. The result
is the correction and the error. -/
def Clock.offsetConvert (c : Clock) (raw driverErr : ℚ) : Clock × ℚ × ℚ :=
  let duration := raw - c.slewStart
  let fastslewErr := if config.fastslew ∧ c.fastslewActive then driverErr else 0
  let err := fastslewErr + if |duration| ≤ config.maxFreqChangeDelay then c.slewError else 0
  ({ c with
      fastslewActive := c.fastslewActive &&
        !(config.fastslew && c.fastslewCorr config == 0 && fastslewErr == 0) },
    c.slewFreq * duration + c.fastslewCorr config - c.offsetRegister, err)

/-- `handle_step`. -/
def Clock.handleStep (c : Clock) (doffset : ℚ) (changeType : ChangeType) : Clock :=
  if changeType = .step then { c with slewStart := c.slewStart - doffset } else c

/-- A step of the clock, which is then announced. -/
def Clock.applyStepOffset (c : Clock) (offset : ℚ) : Clock :=
  Clock.handleStep { c with raw := c.raw - offset } offset .step

/-- The time passes. A part of the remaining offset is slewed by the system. -/
def Clock.elapse (c : Clock) (time slewed : ℚ) : Clock :=
  { c with
    raw := c.raw + time * (1 - c.totalFreq / million) - slewed
    remaining := c.remaining - slewed }

/-- **The cooked time.** -/
def Clock.cooked (c : Clock) : ℚ :=
  c.raw + (c.offsetConvert config c.raw 0).2.1

/-- The steps of the clock and of the functions. -/
inductive Action
  | endOfSlew (setFreq : SetFreq)
  | setFrequency (freq : ℚ) (setFreq : SetFreq)
  | accrueOffset (offset corrRate : ℚ) (setFreq : SetFreq)
  | read (raw driverErr : ℚ)
  | applyStepOffset (offset : ℚ)
  /-- A change other than a step is announced. -/
  | adjusted (doffset : ℚ)
  | elapse (time slewed : ℚ)

/-- **One step.** -/
def Clock.step (c : Clock) : Action → Clock
  | .endOfSlew setFreq => c.handleEndOfSlew config setFreq
  | .setFrequency freq setFreq => c.setFrequency config freq setFreq
  | .accrueOffset offset corrRate setFreq => c.accrueOffset config offset corrRate setFreq
  | .read raw driverErr => (c.offsetConvert config raw driverErr).1
  | .applyStepOffset offset => c.applyStepOffset offset
  | .adjusted doffset => c.handleStep doffset .adjust
  | .elapse time slewed => c.elapse time slewed

/-- What the system does only with a remaining offset. -/
def Clock.Possible (c : Clock) : Action → Prop
  | .elapse _ slewed => c.remaining = 0 → slewed = 0
  | _ => True

end Model

/-! ### The invariant -/

variable {config : Config} {c : Clock}

/-- **The invariant.** The offset is not hidden in a slew of the system which is not active, and
the slewing frequency is the difference between the frequencies. -/
structure Clock.Valid (config : Config) (c : Clock) : Prop where
  remaining : ¬(config.fastslew = true ∧ c.fastslewActive = true) → c.remaining = 0
  totalFreq : |c.totalFreq| < million
  slewFreq : c.slewFreq * (million - c.totalFreq) = c.totalFreq - c.baseFreq

theorem init_valid {freq : ℚ} (h : |freq| < million) (raw : ℚ) :
    (Clock.init freq raw).Valid config where
  remaining _ := rfl
  totalFreq := h
  slewFreq := by simp [Clock.init]

/-- The offset which is not corrected yet. -/
def Clock.pending (c : Clock) : ℚ :=
  c.offsetRegister + c.remaining - c.slewFreq * (c.raw - c.slewStart)

/-- **The cooked time is without the offset which is not corrected yet.** -/
theorem cooked_eq (h : ¬(config.fastslew = true ∧ c.fastslewActive = true) → c.remaining = 0) :
    c.cooked config = c.raw - c.pending := by
  have hcorr : c.fastslewCorr config = -c.remaining := by
    rw [Clock.fastslewCorr]
    split
    · rfl
    next hnot =>
        rw [h hnot]
        rfl
  rw [Clock.cooked, Clock.offsetConvert, Clock.pending]
  dsimp only
  rw [hcorr]
  ring

/-- What the parts of `update_slew` before the new frequency do. -/
structure Passes (config : Config) (c c' : Clock) (achieved : ℚ) : Prop where
  raw : c'.raw = c.raw
  baseFreq : c'.baseFreq = c.baseFreq
  offset : c'.offsetRegister + c'.remaining = c.offsetRegister + c.remaining - achieved
  remaining : ¬(config.fastslew = true ∧ c'.fastslewActive = true) → c'.remaining = 0

theorem endSlew_passes
    (h : ¬(config.fastslew = true ∧ c.fastslewActive = true) → c.remaining = 0) :
    Passes config c (c.endSlew config) (c.slewFreq * (c.raw - c.slewStart)) := by
  rw [Clock.endSlew, Clock.stopFastslew]
  dsimp only
  split
  next hnot =>
      refine ⟨rfl, rfl, ?_, h⟩
      dsimp only
      ring
  next =>
      refine ⟨rfl, rfl, ?_, fun _ => ?_⟩
      · dsimp only
        ring
      · dsimp only
        ring

theorem passOffset_passes
    (h : ¬(config.fastslew = true ∧ c.fastslewActive = true) → c.remaining = 0) :
    Passes config c (c.passOffset config).1 0 := by
  rw [Clock.passOffset]
  split
  next hfast =>
      rw [Clock.startFastslew, if_neg (by simp [hfast.1])]
      refine ⟨rfl, rfl, ?_, fun hnot => absurd ⟨hfast.1, rfl⟩ hnot⟩
      dsimp only
      ring
  next => exact ⟨rfl, rfl, (sub_zero _).symm, h⟩

/-- **`update_slew` does not lose any offset.** -/
theorem updateSlew_spec (setFreq : SetFreq)
    (h : ¬(config.fastslew = true ∧ c.fastslewActive = true) → c.remaining = 0) :
    (c.updateSlew config setFreq).Valid config ∧
      (c.updateSlew config setFreq).raw = c.raw ∧
      (c.updateSlew config setFreq).baseFreq = c.baseFreq ∧
      (c.updateSlew config setFreq).pending = c.pending := by
  have hend := endSlew_passes h
  have hpass := passOffset_passes hend.remaining
  rw [Clock.updateSlew]
  generalize hr : (c.endSlew config).passOffset config = r at hpass
  rw [Clock.startSlew]
  dsimp only
  generalize hfreq : clampFreq config (r.1.baseFreq + r.2 * (million - r.1.baseFreq)) = freq
  have hlt := setFreq.2 freq
  have hne : million - setFreq.1 freq ≠ 0 := by
    have := (abs_lt.mp hlt).2
    linarith
  refine ⟨⟨hpass.remaining, hlt, div_mul_cancel₀ _ hne⟩, hpass.raw.trans hend.raw,
    hpass.baseFreq.trans hend.baseFreq, ?_⟩
  have hoffset := hpass.offset
  rw [hend.offset] at hoffset
  rw [Clock.pending, Clock.pending]
  dsimp only
  linarith

/-! ### Steps -/

/-- **The expected change of the cooked time.** -/
def Clock.change (c : Clock) : Action → ℚ
  | .endOfSlew _ => 0
  | .setFrequency .. => 0
  | .accrueOffset offset .. => -offset
  | .read .. => 0
  | .applyStepOffset offset => -offset
  | .adjusted _ => 0
  | .elapse time slewed => time * (1 - c.baseFreq / million) - slewed * c.slewFreq

/-- An update after the variables were changed. -/
theorem updateSlew_cooked {c' : Clock} {d : ℚ} (h : c.Valid config)
    (h' : ¬(config.fastslew = true ∧ c'.fastslewActive = true) → c'.remaining = 0)
    (hd : c'.raw - c'.pending = c.raw - c.pending + d) (setFreq : SetFreq) :
    (c'.updateSlew config setFreq).Valid config ∧
      (c'.updateSlew config setFreq).cooked config = c.cooked config + d := by
  obtain ⟨hvalid, hraw, -, hpending⟩ := updateSlew_spec setFreq h'
  refine ⟨hvalid, ?_⟩
  rw [cooked_eq hvalid.remaining, cooked_eq h.remaining, hraw, hpending, hd]

/-- The slewing frequency is relative to the real frequency. -/
theorem rate_eq (h : c.Valid config) :
    (1 - c.totalFreq / million) * (1 + c.slewFreq) = 1 - c.baseFreq / million := by
  have hslew := h.slewFreq
  have hne : million ≠ 0 := by norm_num [million]
  field_simp
  linear_combination hslew

theorem elapse_cooked (h : c.Valid config) {time slewed : ℚ}
    (hpossible : c.remaining = 0 → slewed = 0) :
    (c.elapse time slewed).Valid config ∧ (c.elapse time slewed).cooked config =
      c.cooked config + (time * (1 - c.baseFreq / million) - slewed * c.slewFreq) := by
  have hremaining : ¬(config.fastslew = true ∧ (c.elapse time slewed).fastslewActive = true) →
      (c.elapse time slewed).remaining = 0 := by
    intro hnot
    have hzero := h.remaining hnot
    rw [Clock.elapse]
    dsimp only
    rw [hzero, hpossible hzero, sub_zero]
  refine ⟨⟨hremaining, h.totalFreq, h.slewFreq⟩, ?_⟩
  rw [cooked_eq hremaining, cooked_eq h.remaining, ← rate_eq h, Clock.pending, Clock.pending,
    Clock.elapse]
  dsimp only
  ring

theorem offsetConvert_cooked (h : c.Valid config) (raw driverErr : ℚ) :
    (c.offsetConvert config raw driverErr).1.Valid config ∧
      (c.offsetConvert config raw driverErr).1.cooked config = c.cooked config := by
  have hremaining : ¬(config.fastslew = true ∧
      (c.offsetConvert config raw driverErr).1.fastslewActive = true) → c.remaining = 0 := by
    intro hnot
    by_cases hfast : config.fastslew = true ∧ c.fastslewActive = true
    · -- the slew is not active any more because the driver has reported its end
      rw [Clock.offsetConvert, Clock.fastslewCorr, if_pos hfast, if_pos hfast] at hnot
      simp only [hfast.1, hfast.2, Bool.true_and, true_and, Bool.not_eq_true',
        Bool.and_eq_false_imp, beq_iff_eq, neg_eq_zero, not_forall] at hnot
      exact hnot.1
    · exact h.remaining hfast
  refine ⟨⟨hremaining, h.totalFreq, h.slewFreq⟩, ?_⟩
  rw [cooked_eq hremaining, cooked_eq h.remaining]
  rfl

/-- **The change of the cooked time in one step.** -/
theorem step_cooked (h : c.Valid config) (action : Action) (hpossible : c.Possible action) :
    (c.step config action).Valid config ∧
      (c.step config action).cooked config = c.cooked config + c.change action := by
  cases action with
  | endOfSlew setFreq =>
      refine updateSlew_cooked h ?_ ?_ setFreq
      · exact h.remaining
      · exact (add_zero _).symm
  | setFrequency freq setFreq =>
      refine updateSlew_cooked h ?_ ?_ setFreq
      · exact h.remaining
      · exact (add_zero _).symm
  | accrueOffset offset corrRate setFreq =>
      refine updateSlew_cooked h ?_ ?_ setFreq
      · exact h.remaining
      · rw [Clock.pending, Clock.pending, Clock.change]
        ring
  | read raw driverErr =>
      obtain ⟨hvalid, hcooked⟩ := offsetConvert_cooked h raw driverErr
      exact ⟨hvalid, hcooked.trans (add_zero _).symm⟩
  | applyStepOffset offset =>
      have hvalid : (c.applyStepOffset offset).Valid config :=
        ⟨h.remaining, h.totalFreq, h.slewFreq⟩
      refine ⟨hvalid, ?_⟩
      rw [Clock.step, cooked_eq hvalid.remaining, cooked_eq h.remaining, Clock.pending,
        Clock.pending, Clock.applyStepOffset, Clock.handleStep, if_pos rfl, Clock.change]
      ring
  | adjusted doffset => exact ⟨h, (add_zero _).symm⟩
  | elapse time slewed => exact elapse_cooked h hpossible

/-! ### Runs -/

/-- **A run**, with the sum of the expected changes of the cooked time. -/
inductive Clock.Reaches (config : Config) : Clock → Clock → ℚ → Prop
  | start (c : Clock) : Reaches config c c 0
  | step {c c' : Clock} {d : ℚ} (h : Reaches config c c' d) (action : Action)
      (hpossible : c'.Possible action) :
      Reaches config c (c'.step config action) (d + c'.change action)

theorem reaches_cooked {c' : Clock} {d : ℚ} (hc : c.Valid config) (h : c.Reaches config c' d) :
    c'.Valid config ∧ c'.cooked config = c.cooked config + d := by
  induction h with
  | start => exact ⟨hc, (add_zero _).symm⟩
  | step h action hpossible ih =>
      obtain ⟨hvalid, hcooked⟩ := step_cooked ih.1 action hpossible
      exact ⟨hvalid, by rw [hcooked, ih.2, add_assoc]⟩

/-- **The cooked time is continuous**, and its rate does not depend on the slewing. It is changed
only by accrued offsets, by steps, and by the time which passes, with the rate of `base_freq`
if there is no fast slew. -/
theorem run_cooked {freq raw d : ℚ} (hfreq : |freq| < million)
    (h : (Clock.init freq raw).Reaches config c d) :
    c.cooked config = raw + d ∧ (c.fastslewActive = false → c.remaining = 0) ∧
    (∀ setFreq, (c.handleEndOfSlew config setFreq).cooked config = c.cooked config) ∧
    (∀ freq setFreq, (c.setFrequency config freq setFreq).cooked config = c.cooked config) ∧
    (∀ offset corrRate setFreq, (c.accrueOffset config offset corrRate setFreq).cooked config =
      c.cooked config - offset) ∧
    (∀ raw driverErr, (c.offsetConvert config raw driverErr).1.cooked config = c.cooked config) ∧
    (∀ offset, (c.applyStepOffset offset).cooked config = c.cooked config - offset) ∧
    (c.remaining = 0 → ∀ time,
      (c.elapse time 0).raw = c.raw + time * (1 - c.totalFreq / million) ∧
      (c.elapse time 0).cooked config =
        c.cooked config + time * (1 - c.baseFreq / million)) := by
  obtain ⟨hvalid, hcooked⟩ := reaches_cooked (init_valid hfreq raw) h
  have hstep := fun action hpossible => (step_cooked hvalid action hpossible).2
  refine ⟨?_, fun hactive => hvalid.remaining (by simp [hactive]), fun setFreq => ?_,
    fun freq setFreq => ?_, fun offset corrRate setFreq => ?_, fun raw driverErr => ?_,
    fun offset => ?_, fun hzero time => ⟨?_, ?_⟩⟩
  · rw [hcooked, cooked_eq fun _ => rfl, Clock.pending, Clock.init]
    ring
  · exact (hstep (.endOfSlew setFreq) trivial).trans (add_zero _)
  · exact (hstep (.setFrequency freq setFreq) trivial).trans (add_zero _)
  · exact (hstep (.accrueOffset offset corrRate setFreq) trivial).trans (sub_eq_add_neg _ _).symm
  · exact (hstep (.read raw driverErr) trivial).trans (add_zero _)
  · exact (hstep (.applyStepOffset offset) trivial).trans (sub_eq_add_neg _ _).symm
  · rw [Clock.elapse]
    ring
  · rw [show c.elapse time 0 = c.step config (.elapse time 0) from rfl,
      hstep (.elapse time 0) fun _ => rfl, Clock.change]
    ring

/-- A driver which does not round frequencies. -/
def sampleSetFreq : SetFreq :=
  ⟨fun freq => if |freq| < million then freq else 0, fun freq => by
    dsimp only
    split
    next h => exact h
    next => norm_num [million]⟩

/-- The constants of the examples. -/
def sampleConfig : Config := ⟨500, 1 / 1000, 1 / 1000, true, 1 / 10, 1 / 1000⟩

/-- An offset of 10 milliseconds is slewed for a second. -/
def sampleClock : Clock :=
  ((Clock.init 10 0).step sampleConfig (.accrueOffset (1 / 100) 1 sampleSetFreq)).step sampleConfig
    (.elapse 1 0)

theorem run_cooked_sampleClock : ∃ d, (Clock.init 10 0).Reaches sampleConfig sampleClock d ∧
    sampleClock.cooked sampleConfig = 0 + d ∧
    sampleClock.cooked sampleConfig = -1 / 100 + (1 - 10 / million) ∧
    sampleClock.totalFreq ≠ 10 := by
  have hreaches : (Clock.init 10 0).Reaches sampleConfig sampleClock _ :=
    .step (.step (.start _) (.accrueOffset (1 / 100) 1 sampleSetFreq) trivial) (.elapse 1 0)
      fun _ => rfl
  refine ⟨_, hreaches, (run_cooked (by norm_num [million]) hreaches).1, ?_, ?_⟩
  · decide +kernel
  · decide +kernel

end Chrony.SysGeneric
