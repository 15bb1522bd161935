import Chrony.Lib.Run
import Chrony.SourceStats.Register
import Chrony.SysGeneric
import Mathlib.Data.List.Count
import Mathlib.Tactic.Positivity

/-!
# The Local Clock

The module `local.c` on top of the generic driver of the system clock. It keeps the frequency of
the clock, and it announces every correction to the handlers which other modules have registered,
so that they can correct the times which they have stored.

The *scale* of the clock is the cooked time as a function of a counter which is never adjusted:
it gives the reading which the clock as it is now would have made at any earlier count. The times
are exact numbers. The smoothing, which is also told about steps, is left out.

## Main results

* `run_scale`: the corrections which a handler gets are the change of the scale.
* `run_makeStep`: what a step of the clock leaves to correct.
-/

namespace Chrony.Local

open SourceStats (clamp clamp_mem isTimeOffsetSane)
open SysGeneric (ChangeType Clock Config SetFreq million)

/-- The arguments of a handler. -/
structure Change where
  raw : ℚ
  cooked : ℚ
  dfreq : ℚ
  doffset : ℚ
  changeType : ChangeType

/-- `UTI_AdjustTimespec`. The result has the new time and `delta_time`. -/
def adjustTimespec (oldTs when dfreq doffset : ℚ) : ℚ × ℚ :=
  let elapsed := when - oldTs
  let deltaTime := elapsed * dfreq - doffset
  (oldTs + deltaTime, deltaTime)

/-- What the handlers do with a time which they have stored. -/
def Change.adjust (time : ℚ) (change : Change) : ℚ :=
  (adjustTimespec time change.cooked change.dfreq change.doffset).1

/-- `ChangeListEntry`. The handler `handle_step` of the driver is one of them. -/
inductive Entry (H A : Type)
  | handleStep
  | module (handler : H) (anything : A)
  deriving DecidableEq

/-- An assertion which fails. -/
inductive Abort
  | registered
  | notRegistered
  deriving DecidableEq

/-- **The state of the clock**, with the calls of the handlers so far. -/
structure State (H A : Type) where
  currentFreqPpm : ℚ
  tempCompPpm : ℚ
  maxFreqPpm : ℚ
  changeList : List (Entry H A)
  clock : Clock
  calls : List (Entry H A × Change)

/-- What the system does in a call of the module: the frequencies which are set, the error of the
fast slew, and whether the clock is stepped. -/
structure Drivers where
  setFreq : SetFreq
  accrueSetFreq : SetFreq
  driverErr : ℚ
  stepped : Bool

variable {H A : Type}

/-- `LCL_Initialise` and `SYS_Generic_CompleteFreqDriver`, with the frequency and the time which
are read from the system. -/
def State.init (maxDrift freq raw : ℚ) : State H A where
  currentFreqPpm := freq
  tempCompPpm := 0
  maxFreqPpm := clamp 0 maxDrift (10 ^ 5)
  changeList := [.handleStep]
  clock := .init freq raw
  calls := []

/-- `LCL_AddParameterChangeHandler`. -/
def State.addParameterChangeHandler [DecidableEq H] [DecidableEq A] (entry : Entry H A)
    (s : State H A) : Except Abort (State H A) :=
  if entry ∈ s.changeList then .error .registered
  else .ok { s with changeList := s.changeList ++ [entry] }

/-- `LCL_RemoveParameterChangeHandler`. -/
def State.removeParameterChangeHandler [DecidableEq H] [DecidableEq A] (entry : Entry H A)
    (s : State H A) : Except Abort (State H A) :=
  if entry ∈ s.changeList then .ok { s with changeList := s.changeList.erase entry }
  else .error .notRegistered

/-- The call of one handler. -/
def State.call (change : Change) (s : State H A) (entry : Entry H A) : State H A :=
  { s with
    clock :=
      match entry with
      | .handleStep => s.clock.handleStep change.doffset change.changeType
      | .module .. => s.clock
    calls := s.calls ++ [(entry, change)] }

/-- `invoke_parameter_change_handlers`. -/
def State.invokeParameterChangeHandlers (change : Change) (s : State H A) : State H A :=
  s.changeList.foldl (State.call change) s

/-- `clamp_freq`. -/
def clampFreq (maxFreqPpm freq : ℚ) : ℚ :=
  if freq ≤ maxFreqPpm ∧ freq ≥ -maxFreqPpm then freq else clamp (-maxFreqPpm) freq maxFreqPpm

/-- `LCL_ReadAbsoluteFrequency`. -/
def State.readAbsoluteFrequency (s : State H A) : ℚ :=
  let freq := s.currentFreqPpm
  if s.tempCompPpm ≠ 0 then (freq + s.tempCompPpm) / (1 - 1 / 10 ^ 6 * s.tempCompPpm) else freq

section Model

variable (config : Config) (env : SourceStats.Env)

/-- `LCL_ReadRawTime` and `LCL_CookTime`. The result has the cooked time. -/
def State.cookTime (driverErr : ℚ) (s : State H A) : State H A × ℚ :=
  let r := s.clock.offsetConvert config s.clock.raw driverErr
  ({ s with clock := r.1 }, s.clock.raw + r.2.1)

/-- `drv_set_freq` with its result. -/
def State.drvSetFreq (setFreq : SetFreq) (freq : ℚ) (s : State H A) : State H A × ℚ :=
  let clock := s.clock.setFrequency config freq setFreq
  ({ s with clock }, clock.baseFreq)

/-- `drv_accrue_offset`. -/
def State.drvAccrueOffset (setFreq : SetFreq) (offset corrRate : ℚ) (s : State H A) : State H A :=
  { s with clock := s.clock.accrueOffset config offset corrRate setFreq }

/-- `check_offset`. -/
def checkOffset (now offset : ℚ) : Bool := isTimeOffsetSane env now (-offset)

/-- `LCL_SetAbsoluteFrequency`. -/
def State.setAbsoluteFrequency (d : Drivers) (afreqPpm : ℚ) (s : State H A) : State H A :=
  let afreqPpm := clampFreq s.maxFreqPpm afreqPpm
  let afreqPpm :=
    if s.tempCompPpm ≠ 0 then afreqPpm * (1 - 1 / 10 ^ 6 * s.tempCompPpm) - s.tempCompPpm
    else afreqPpm
  let set := s.drvSetFreq config d.setFreq afreqPpm
  let dfreq := (set.2 - s.currentFreqPpm) / (million - s.currentFreqPpm)
  let now := set.1.cookTime config d.driverErr
  let s := now.1.invokeParameterChangeHandlers ⟨now.1.clock.raw, now.2, dfreq, 0, .adjust⟩
  { s with currentFreqPpm := set.2 }

/-- The new frequency of `LCL_AccumulateDeltaFrequency`, which is set by the driver. The result
has the real change. -/
def State.addFrequency (d : Drivers) (dfreq : ℚ) (s : State H A) : State H A × ℚ :=
  let freq := clampFreq s.maxFreqPpm (s.currentFreqPpm + dfreq * (million - s.currentFreqPpm))
  let set := s.drvSetFreq config d.setFreq freq
  ({ set.1 with currentFreqPpm := set.2 },
    (set.2 - s.currentFreqPpm) / (million - s.currentFreqPpm))

/-- `LCL_AccumulateDeltaFrequency`. -/
def State.accumulateDeltaFrequency (d : Drivers) (dfreq : ℚ) (s : State H A) : State H A :=
  let r := s.addFrequency config d dfreq
  let now := r.1.cookTime config d.driverErr
  now.1.invokeParameterChangeHandlers ⟨now.1.clock.raw, now.2, r.2, 0, .adjust⟩

/-- `LCL_AccumulateOffset`. -/
def State.accumulateOffset (d : Drivers) (offset corrRate : ℚ) (s : State H A) :
    Bool × State H A :=
  let now := s.cookTime config d.driverErr
  let raw := now.1.clock.raw
  if checkOffset env now.2 offset = false then (false, now.1)
  else
    let s := now.1.drvAccrueOffset config d.accrueSetFreq offset corrRate
    (true, s.invokeParameterChangeHandlers ⟨raw, now.2, 0, offset, .adjust⟩)

/-- `LCL_ApplyStepOffset`. -/
def State.applyStepOffset (d : Drivers) (offset : ℚ) (s : State H A) : Bool × State H A :=
  let now := s.cookTime config d.driverErr
  let raw := now.1.clock.raw
  if checkOffset env raw offset = false then (false, now.1)
  else if d.stepped = false then (false, now.1)
  else
    let s := { now.1 with clock := { now.1.clock with raw := raw - offset } }
    (true, s.invokeParameterChangeHandlers ⟨raw, now.2, 0, offset, .step⟩)

/-- `LCL_AccumulateFrequencyAndOffset`. -/
def State.accumulateFrequencyAndOffset (d : Drivers) (dfreq doffset corrRate : ℚ)
    (s : State H A) : Bool × State H A :=
  let now := s.cookTime config d.driverErr
  let raw := now.1.clock.raw
  if checkOffset env now.2 doffset = false then (false, now.1)
  else
    let r := now.1.addFrequency config d dfreq
    let s := r.1.drvAccrueOffset config d.accrueSetFreq doffset corrRate
    (true, s.invokeParameterChangeHandlers ⟨raw, now.2, r.2, doffset, .adjust⟩)

/-- `LCL_AccumulateFrequencyAndOffsetNoHandlers`. -/
def State.accumulateFrequencyAndOffsetNoHandlers (d : Drivers) (dfreq doffset corrRate : ℚ)
    (s : State H A) : Bool × State H A :=
  let r := State.accumulateFrequencyAndOffset config env d dfreq doffset corrRate
    { s with changeList := [] }
  (r.1, { r.2 with changeList := s.changeList })

/-- `LCL_GetOffsetCorrection` at the raw time. -/
def State.getOffsetCorrection (driverErr : ℚ) (s : State H A) : State H A × ℚ :=
  let r := s.clock.offsetConvert config s.clock.raw driverErr
  ({ s with clock := r.1 }, r.2.1)

/-- `LCL_MakeStep`. The drivers may behave in another way when the correction is reverted. -/
def State.makeStep (d revert : Drivers) (s : State H A) : Bool × State H A :=
  let r := s.getOffsetCorrection config d.driverErr
  if checkOffset env r.1.clock.raw (-r.2) = false then (false, r.1)
  else
    let s := (r.1.accumulateOffset config env d r.2 0).2
    let step := s.applyStepOffset config env d (-r.2)
    if step.1 = false then (false, (step.2.accumulateOffset config env revert (-r.2) 0).2)
    else (true, step.2)

/-- `LCL_CancelOffsetCorrection`. -/
def State.cancelOffsetCorrection (d : Drivers) (s : State H A) : State H A :=
  let r := s.getOffsetCorrection config d.driverErr
  (r.1.accumulateOffset config env d r.2 0).2

/-- `LCL_NotifyExternalTimeStep`. -/
def State.notifyExternalTimeStep (d : Drivers) (raw cooked offset : ℚ) (s : State H A) :
    State H A :=
  (s.cancelOffsetCorrection config env d).invokeParameterChangeHandlers
    ⟨raw, cooked, 0, offset, .unknownStep⟩

/-- `LCL_NotifyLeap`. -/
def State.notifyLeap (d : Drivers) (leap : ℤ) (s : State H A) : State H A :=
  let now := s.cookTime config d.driverErr
  now.1.invokeParameterChangeHandlers ⟨now.1.clock.raw, now.2, 0, -leap, .step⟩

/-- `LCL_SetTempComp`. -/
def State.setTempComp (d : Drivers) (comp : ℚ) (s : State H A) : State H A :=
  if s.tempCompPpm = comp then s
  else
    let uncompFreqPpm := (s.currentFreqPpm + s.tempCompPpm) / (1 - 1 / 10 ^ 6 * s.tempCompPpm)
    let set := s.drvSetFreq config d.setFreq (uncompFreqPpm * (1 - 1 / 10 ^ 6 * comp) - comp)
    { set.1 with
      currentFreqPpm := set.2
      tempCompPpm := (uncompFreqPpm - set.2) / (1 / 10 ^ 6 * uncompFreqPpm + 1) }

end Model

variable {config : Config} {env : SourceStats.Env}

/-! ### The invariant -/

/-- **The scale of the clock**: its reading at a count, if it had always run as it runs now. -/
def scale (config : Config) (c : Clock) (counter count : ℚ) : ℚ :=
  c.cooked config - (1 - c.baseFreq / million) * (counter - count)

/-- A limit on the frequency without the compensation of the temperature, which is above the limits
of the drivers. -/
def maxUncompFreq : ℚ := 11 * 10 ^ 4

/-- `MAX_COMP` of `tempcomp.c`. -/
def maxComp : ℚ := 10

/-- **The invariant of the clock.** -/
structure State.Sound (config : Config) (s : State H A) : Prop where
  valid : s.clock.Valid config
  freq : s.currentFreqPpm = s.clock.baseFreq
  uncomp : |s.readAbsoluteFrequency| ≤ maxUncompFreq
  comp : |s.tempCompPpm| ≤ maxComp
  max_nonneg : 0 ≤ s.maxFreqPpm
  max_le : s.maxFreqPpm ≤ 10 ^ 5

/-- **The invariant.** Every handler is registered once. -/
structure State.Inv (config : Config) (s : State H A) : Prop extends State.Sound config s where
  nodup : s.changeList.Nodup
  handleStep : .handleStep ∈ s.changeList

/-- The compensation of zero needs no case of its own. -/
theorem readAbsoluteFrequency_eq (s : State H A) :
    s.readAbsoluteFrequency =
      (s.currentFreqPpm + s.tempCompPpm) / (1 - 1 / 10 ^ 6 * s.tempCompPpm) := by
  rw [State.readAbsoluteFrequency]
  split
  · rfl
  next hzero =>
      rw [not_not.mp hzero]
      simp

theorem comp_factor {comp : ℚ} (h : |comp| ≤ maxComp) :
    99999 / 10 ^ 5 ≤ 1 - 1 / 10 ^ 6 * comp ∧ 1 - 1 / 10 ^ 6 * comp ≤ 100001 / 10 ^ 5 := by
  obtain ⟨hlow, hhigh⟩ := abs_le.mp h
  rw [maxComp] at hlow hhigh
  constructor <;> linarith

/-- The frequency of the clock with the compensation. -/
theorem currentFreqPpm_eq {s : State H A} (h : |s.tempCompPpm| ≤ maxComp) :
    s.currentFreqPpm =
      s.readAbsoluteFrequency * (1 - 1 / 10 ^ 6 * s.tempCompPpm) - s.tempCompPpm := by
  have hne : 1 - 1 / 10 ^ 6 * s.tempCompPpm ≠ 0 := by
    have := (comp_factor h).1
    linarith
  rw [readAbsoluteFrequency_eq, div_mul_cancel₀ _ hne, add_sub_cancel_right]

/-- The frequency of `LCL_SetAbsoluteFrequency` is read back. -/
theorem readAbsoluteFrequency_set {s : State H A} {freq : ℚ} (hcomp : |s.tempCompPpm| ≤ maxComp)
    (h : s.currentFreqPpm =
      if s.tempCompPpm ≠ 0 then freq * (1 - 1 / 10 ^ 6 * s.tempCompPpm) - s.tempCompPpm
      else freq) :
    s.readAbsoluteFrequency = freq := by
  have hne : 1 - 1 / 10 ^ 6 * s.tempCompPpm ≠ 0 := by
    have := (comp_factor hcomp).1
    linarith
  rw [State.readAbsoluteFrequency, h]
  split
  · rw [sub_add_cancel, mul_div_cancel_right₀ _ hne]
  · rfl

/-- **The clock is never stopped.** -/
theorem State.Sound.abs_lt {s : State H A} (h : s.Sound config) : |s.clock.baseFreq| < million := by
  obtain ⟨hlow, hhigh⟩ := comp_factor h.comp
  have hcomp := h.comp
  have huncomp := h.uncomp
  rw [← h.freq, currentFreqPpm_eq h.comp]
  have hfactor : |1 - 1 / 10 ^ 6 * s.tempCompPpm| ≤ 100001 / 10 ^ 5 := by
    rw [abs_of_nonneg (by linarith)]
    exact hhigh
  have hprod := mul_le_mul huncomp hfactor (abs_nonneg _) (by norm_num [maxUncompFreq])
  rw [← abs_mul] at hprod
  calc |s.readAbsoluteFrequency * (1 - 1 / 10 ^ 6 * s.tempCompPpm) - s.tempCompPpm|
      ≤ |s.readAbsoluteFrequency * (1 - 1 / 10 ^ 6 * s.tempCompPpm)| + |s.tempCompPpm| :=
        abs_sub _ _
    _ ≤ maxUncompFreq * (100001 / 10 ^ 5) + maxComp := add_le_add hprod hcomp
    _ < million := by norm_num [maxUncompFreq, maxComp, million]

theorem clampFreq_abs_le {max freq : ℚ} (h : 0 ≤ max) : |clampFreq max freq| ≤ max := by
  rw [clampFreq, abs_le]
  split
  next hin => exact ⟨hin.2, hin.1⟩
  next => exact clamp_mem (by linarith)

/-- The frequency without the compensation after the clock was set. -/
theorem uncomp_le {freq comp : ℚ} (hfreq : |freq| ≤ 10 ^ 5) (hcomp : |comp| ≤ maxComp) :
    |(freq + comp) / (1 - 1 / 10 ^ 6 * comp)| ≤ maxUncompFreq := by
  obtain ⟨hlow, -⟩ := comp_factor hcomp
  have hpos : 0 < 1 - 1 / 10 ^ 6 * comp := by linarith
  rw [abs_div, abs_of_pos hpos, div_le_iff₀ hpos]
  calc |freq + comp| ≤ |freq| + |comp| := abs_add_le _ _
    _ ≤ 10 ^ 5 + maxComp := add_le_add hfreq hcomp
    _ ≤ maxUncompFreq * (99999 / 10 ^ 5) := by norm_num [maxComp, maxUncompFreq]
    _ ≤ maxUncompFreq * (1 - 1 / 10 ^ 6 * comp) :=
        mul_le_mul_of_nonneg_left hlow (by norm_num [maxUncompFreq])

theorem init_inv {maxDrift freq : ℚ} (hfreq : |freq| ≤ maxUncompFreq) (raw : ℚ) :
    (State.init maxDrift freq raw : State H A).Inv config where
  valid := SysGeneric.init_valid (lt_of_le_of_lt hfreq (by norm_num [maxUncompFreq, million])) raw
  freq := rfl
  uncomp := by
    rw [State.readAbsoluteFrequency]
    exact hfreq
  comp := by norm_num [State.init, maxComp]
  max_nonneg := (clamp_mem (by norm_num)).1
  max_le := (clamp_mem (by norm_num)).2
  nodup := List.nodup_singleton _
  handleStep := List.mem_singleton.mpr rfl

/-! ### Announced changes -/

/-- **The changes are announced**: they are the change of the scale, and all handlers are called
with them. -/
structure Announces (config : Config) (s s' : State H A) (changes : List Change) : Prop where
  inv : s'.Inv config
  scale : ∀ counter count, scale config s'.clock counter count =
    changes.foldl Change.adjust (scale config s.clock counter count)
  calls : s'.calls = s.calls ++ changes.flatMap fun change =>
    s.changeList.map fun entry => (entry, change)
  changeList : s'.changeList = s.changeList
  dfreq_lt : ∀ change ∈ changes, change.dfreq < 1
  known : ∀ change ∈ changes, change.changeType ≠ .unknownStep

theorem Announces.trans {s₁ s₂ s₃ : State H A} {changes changes' : List Change}
    (h : Announces config s₁ s₂ changes) (h' : Announces config s₂ s₃ changes') :
    Announces config s₁ s₃ (changes ++ changes') where
  inv := h'.inv
  scale counter count := by rw [h'.scale, h.scale, List.foldl_append]
  calls := by rw [h'.calls, h.calls, h.changeList, List.flatMap_append, List.append_assoc]
  changeList := h'.changeList.trans h.changeList
  dfreq_lt change hmem := (List.mem_append.mp hmem).elim (h.dfreq_lt change) (h'.dfreq_lt change)
  known change hmem := (List.mem_append.mp hmem).elim (h.known change) (h'.known change)

/-- A clock with another offset and frequency has the scale after the correction. -/
theorem scale_adjust {c c' : Clock} (hlt : c.baseFreq < million) {doffset : ℚ}
    (hcooked : c'.cooked config = c.cooked config - doffset) (raw : ℚ) (changeType : ChangeType)
    (counter count : ℚ) :
    scale config c' counter count =
      Change.adjust (scale config c counter count)
        ⟨raw, c.cooked config, (c'.baseFreq - c.baseFreq) / (million - c.baseFreq), doffset,
          changeType⟩ := by
  have hne : million - c.baseFreq ≠ 0 := by linarith
  have hmillion : million ≠ 0 := by norm_num [million]
  rw [scale, scale, Change.adjust, adjustTimespec, hcooked]
  dsimp only
  field_simp
  ring

theorem dfreq_lt {freq freq' : ℚ} (h : freq < million) (h' : freq' < million) :
    (freq' - freq) / (million - freq) < 1 := by
  rw [div_lt_one (by linarith)]
  linarith

/-- What a function has to do so that a correction is announced. -/
theorem announces_one {s s' : State H A} (h : s.Inv config) {change : Change}
    (hlist : s'.changeList = s.changeList) (htemp : s'.tempCompPpm = s.tempCompPpm)
    (hmax : s'.maxFreqPpm = s.maxFreqPpm) (hvalid : s'.clock.Valid config)
    (hfreq : s'.currentFreqPpm = s'.clock.baseFreq)
    (huncomp : |s'.readAbsoluteFrequency| ≤ maxUncompFreq)
    (hcooked : s'.clock.cooked config = s.clock.cooked config - change.doffset)
    (hnow : change.cooked = s.clock.cooked config)
    (hdfreq : change.dfreq =
      (s'.clock.baseFreq - s.clock.baseFreq) / (million - s.clock.baseFreq))
    (hknown : change.changeType ≠ .unknownStep)
    (hcalls : s'.calls = s.calls ++ s.changeList.map fun entry => (entry, change)) :
    Announces config s s' [change] := by
  have hinv : s'.Inv config :=
    { valid := hvalid
      freq := hfreq
      uncomp := huncomp
      comp := htemp ▸ h.comp
      max_nonneg := hmax ▸ h.max_nonneg
      max_le := hmax ▸ h.max_le
      nodup := hlist ▸ h.nodup
      handleStep := hlist ▸ h.handleStep }
  refine ⟨hinv, fun counter count => ?_, ?_, hlist, ?_, ?_⟩
  · rw [scale_adjust (abs_lt.mp h.abs_lt).2 hcooked change.raw change.changeType, ← hdfreq,
      ← hnow]
    rfl
  · rw [hcalls, List.flatMap_singleton]
  · rw [List.forall_mem_singleton, hdfreq]
    exact dfreq_lt (abs_lt.mp h.abs_lt).2 (abs_lt.mp hinv.abs_lt).2
  · rwa [List.forall_mem_singleton]

/-- **A change of the clock alone** which nobody has to know about. -/
theorem announces_none {s : State H A} (h : s.Inv config) {c : Clock} (hvalid : c.Valid config)
    (hbase : c.baseFreq = s.clock.baseFreq) (hcooked : c.cooked config = s.clock.cooked config) :
    Announces config s { s with clock := c } [] where
  inv := { h with valid := hvalid, freq := h.freq.trans hbase.symm }
  scale counter count := by
    rw [List.foldl_nil, scale, scale, hbase, hcooked]
  calls := (List.append_nil _).symm
  changeList := rfl
  dfreq_lt change hmem := absurd hmem List.not_mem_nil
  known change hmem := absurd hmem List.not_mem_nil

/-- **The cooked time is read.** -/
theorem cookTime_spec {s : State H A} (h : s.Inv config) (driverErr : ℚ) :
    (s.cookTime config driverErr).2 = s.clock.cooked config ∧
      Announces config s (s.cookTime config driverErr).1 [] := by
  obtain ⟨hvalid, hcooked⟩ :=
    SysGeneric.offsetConvert_cooked h.valid s.clock.raw driverErr
  exact ⟨rfl, announces_none h hvalid rfl hcooked⟩

/-- What is left to correct. -/
def State.correction (config : Config) (s : State H A) : ℚ := s.clock.cooked config - s.clock.raw

theorem getOffsetCorrection_spec {s : State H A} (h : s.Inv config) (driverErr : ℚ) :
    (s.getOffsetCorrection config driverErr).2 = s.correction config ∧
      Announces config s (s.getOffsetCorrection config driverErr).1 [] := by
  refine ⟨?_, (cookTime_spec h driverErr).2⟩
  rw [State.correction, Clock.cooked, add_sub_cancel_left]
  rfl

/-! ### The drivers -/

theorem setFrequency_spec {c : Clock} (h : c.Valid config) (freq : ℚ) (setFreq : SetFreq) :
    (c.setFrequency config freq setFreq).Valid config ∧
      (c.setFrequency config freq setFreq).baseFreq = freq ∧
      (c.setFrequency config freq setFreq).cooked config = c.cooked config := by
  obtain ⟨hvalid, hcooked⟩ := SysGeneric.step_cooked h (.setFrequency freq setFreq) trivial
  have hremaining : ¬(config.fastslew = true ∧
      ({ c with baseFreq := freq } : Clock).fastslewActive = true) → c.remaining = 0 := h.remaining
  exact ⟨hvalid, (SysGeneric.updateSlew_spec setFreq hremaining).2.2.1,
    hcooked.trans (add_zero _)⟩

theorem accrueOffset_spec {c : Clock} (h : c.Valid config) (offset corrRate : ℚ)
    (setFreq : SetFreq) :
    (c.accrueOffset config offset corrRate setFreq).Valid config ∧
      (c.accrueOffset config offset corrRate setFreq).raw = c.raw ∧
      (c.accrueOffset config offset corrRate setFreq).baseFreq = c.baseFreq ∧
      (c.accrueOffset config offset corrRate setFreq).cooked config =
        c.cooked config - offset := by
  obtain ⟨hvalid, hcooked⟩ :=
    SysGeneric.step_cooked h (.accrueOffset offset corrRate setFreq) trivial
  have hremaining : ¬(config.fastslew = true ∧ ({ c with
      offsetRegister := c.offsetRegister + offset, correctionRate := corrRate } :
      Clock).fastslewActive = true) → c.remaining = 0 := h.remaining
  obtain ⟨-, hraw, hbase, -⟩ := SysGeneric.updateSlew_spec setFreq hremaining
  exact ⟨hvalid, hraw, hbase, hcooked.trans (sub_eq_add_neg _ _).symm⟩

variable {s : State H A}

/-- **A new frequency** of the clock, which is within the limit. -/
theorem addFrequency_spec (h : s.Sound config) (d : Drivers) (dfreq : ℚ) :
    ∃ c : Clock, s.addFrequency config d dfreq =
        ({ s with clock := c, currentFreqPpm := c.baseFreq },
          (c.baseFreq - s.clock.baseFreq) / (million - s.clock.baseFreq)) ∧
      c.Valid config ∧ c.cooked config = s.clock.cooked config ∧ |c.baseFreq| ≤ 10 ^ 5 := by
  rw [State.addFrequency]
  dsimp only [State.drvSetFreq]
  generalize hfreq : clampFreq s.maxFreqPpm
    (s.currentFreqPpm + dfreq * (million - s.currentFreqPpm)) = freq
  obtain ⟨hvalid, hbase, hcooked⟩ := setFrequency_spec h.valid freq d.setFreq
  refine ⟨s.clock.setFrequency config freq d.setFreq, ?_, hvalid, hcooked, ?_⟩
  · rw [h.freq]
  · rw [hbase, ← hfreq]
    exact (clampFreq_abs_le h.max_nonneg).trans h.max_le

/-- The uncompensated frequency does not depend on the rest of the state. -/
theorem State.Sound.uncomp_of (h : s.Sound config) {t : State H A}
    (hfreq : t.currentFreqPpm = s.currentFreqPpm) (htemp : t.tempCompPpm = s.tempCompPpm) :
    |t.readAbsoluteFrequency| ≤ maxUncompFreq := by
  have huncomp := h.uncomp
  rwa [readAbsoluteFrequency_eq, ← hfreq, ← htemp, ← readAbsoluteFrequency_eq] at huncomp

/-! ### The calls of the handlers -/

variable [DecidableEq H] [DecidableEq A]

theorem foldl_call (change : Change) (l : List (Entry H A)) (s : State H A) :
    l.foldl (State.call change) s =
      { s with
        clock := (fun c : Clock => c.handleStep change.doffset change.changeType)^[
          l.count .handleStep] s.clock
        calls := s.calls ++ l.map fun entry => (entry, change) } := by
  induction l generalizing s with
  | nil => simp
  | cons entry l ih =>
      rw [List.foldl_cons, ih]
      cases entry with
      | handleStep => simp [State.call]
      | module handler anything => simp [State.call]

/-- **Every handler is called once.** -/
theorem invokeParameterChangeHandlers_eq {s : State H A} (hnodup : s.changeList.Nodup)
    (hmem : .handleStep ∈ s.changeList) (change : Change) :
    s.invokeParameterChangeHandlers change =
      { s with
        clock := s.clock.handleStep change.doffset change.changeType
        calls := s.calls ++ s.changeList.map fun entry => (entry, change) } := by
  rw [State.invokeParameterChangeHandlers, foldl_call, List.count_eq_one_of_mem hnodup hmem]
  rfl

/-- The corrections which an entry of the list got so far. -/
def State.changesFor (s : State H A) (entry : Entry H A) : List Change :=
  (s.calls.filter fun call => call.1 = entry).map Prod.snd

theorem filter_map_mk {entry : Entry H A} (change : Change) (l : List (Entry H A)) :
    ((l.map fun entry => (entry, change)).filter fun call => call.1 = entry).map Prod.snd =
      List.replicate (l.count entry) change := by
  induction l with
  | nil => rfl
  | cons entry' l ih =>
      by_cases heq : entry' = entry
      · simp [heq, ih, List.replicate_succ]
      · simp [heq, ih]

/-- A registered handler gets all corrections. -/
theorem Announces.changesFor {s s' : State H A} {changes : List Change}
    (h : Announces config s s' changes) (hnodup : s.changeList.Nodup) {entry : Entry H A}
    (hmem : entry ∈ s.changeList) : s'.changesFor entry = s.changesFor entry ++ changes := by
  have hcalls : ∀ l : List Change, ((l.flatMap fun change =>
      s.changeList.map fun entry => (entry, change)).filter
        fun call => call.1 = entry).map Prod.snd = l := fun l => by
    induction l with
    | nil => rfl
    | cons change l ih =>
        rw [List.flatMap_cons, List.filter_append, List.map_append, ih, filter_map_mk,
          List.count_eq_one_of_mem hnodup hmem]
        rfl
  rw [State.changesFor, h.calls, List.filter_append, List.map_append, hcalls]
  rfl

/-! ### The functions -/

theorem State.Inv.invoke (h : s.Inv config) {t : State H A} (hlist : t.changeList = s.changeList)
    (change : Change) :
    t.invokeParameterChangeHandlers change =
      { t with
        clock := t.clock.handleStep change.doffset change.changeType
        calls := t.calls ++ s.changeList.map fun entry => (entry, change) } := by
  rw [invokeParameterChangeHandlers_eq (hlist ▸ h.nodup) (hlist ▸ h.handleStep), hlist]

/-- **`LCL_SetAbsoluteFrequency`** sets the frequency within the limit. -/
theorem setAbsoluteFrequency_spec (h : s.Inv config) (d : Drivers) (afreqPpm : ℚ) :
    (∃ changes, Announces config s (s.setAbsoluteFrequency config d afreqPpm) changes) ∧
      (s.setAbsoluteFrequency config d afreqPpm).readAbsoluteFrequency =
        clampFreq s.maxFreqPpm afreqPpm := by
  rw [State.setAbsoluteFrequency]
  dsimp only [State.drvSetFreq, State.cookTime]
  generalize hfreq : (if s.tempCompPpm ≠ 0 then
    clampFreq s.maxFreqPpm afreqPpm * (1 - 1 / 10 ^ 6 * s.tempCompPpm) - s.tempCompPpm
    else clampFreq s.maxFreqPpm afreqPpm) = freq
  obtain ⟨hvalid, hbase, hcooked⟩ := setFrequency_spec h.valid freq d.setFreq
  generalize s.clock.setFrequency config freq d.setFreq = c at *
  obtain ⟨hvalid', hcooked'⟩ := SysGeneric.offsetConvert_cooked hvalid c.raw d.driverErr
  rw [h.invoke (t := { s with clock := (c.offsetConvert config c.raw d.driverErr).1 }) rfl]
  have hread : ∀ clock calls, ({ s with
      currentFreqPpm := c.baseFreq, clock := clock, calls := calls } :
      State H A).readAbsoluteFrequency = clampFreq s.maxFreqPpm afreqPpm := fun clock calls =>
    readAbsoluteFrequency_set h.comp (hbase.trans hfreq.symm)
  refine ⟨⟨_, announces_one h rfl rfl rfl ?_ rfl ?_ ?_ ?_ ?_ ?_ rfl⟩, hread _ _⟩
  · exact hvalid'
  · rw [hread]
    exact (clampFreq_abs_le h.max_nonneg).trans (h.max_le.trans (by norm_num [maxUncompFreq]))
  · exact (hcooked'.trans hcooked).trans (sub_zero _).symm
  · exact hcooked
  · rw [h.freq]
    rfl
  · exact ChangeType.noConfusion

/-- **`LCL_AccumulateDeltaFrequency`**. -/
theorem accumulateDeltaFrequency_spec (h : s.Inv config) (d : Drivers) (dfreq : ℚ) :
    ∃ changes, Announces config s (s.accumulateDeltaFrequency config d dfreq) changes := by
  obtain ⟨c, hadd, hvalid, hcooked, hbound⟩ := addFrequency_spec h.toSound d dfreq
  obtain ⟨hvalid', hcooked'⟩ := SysGeneric.offsetConvert_cooked hvalid c.raw d.driverErr
  rw [State.accumulateDeltaFrequency, hadd]
  dsimp only [State.cookTime]
  rw [h.invoke (t := { s with
    currentFreqPpm := c.baseFreq, clock := (c.offsetConvert config c.raw d.driverErr).1 }) rfl]
  refine ⟨_, announces_one h rfl rfl rfl ?_ rfl ?_ ?_ ?_ rfl ?_ rfl⟩
  · exact hvalid'
  · rw [readAbsoluteFrequency_eq]
    exact uncomp_le hbound h.comp
  · exact (hcooked'.trans hcooked).trans (sub_zero _).symm
  · exact hcooked
  · exact ChangeType.noConfusion

/-- **`LCL_AccumulateOffset`** fails only if the time would not be sane. -/
theorem accumulateOffset_spec (env : SourceStats.Env) (h : s.Inv config) (d : Drivers)
    (offset corrRate : ℚ) :
    (s.accumulateOffset config env d offset corrRate).1 =
        checkOffset env (s.clock.cooked config) offset ∧
      (s.accumulateOffset config env d offset corrRate).2.clock.raw = s.clock.raw ∧
      (s.accumulateOffset config env d offset corrRate).2.clock.cooked config =
        (if checkOffset env (s.clock.cooked config) offset = true then
          s.clock.cooked config - offset else s.clock.cooked config) ∧
      ∃ changes,
        Announces config s (s.accumulateOffset config env d offset corrRate).2 changes := by
  obtain ⟨hnow, hread⟩ := cookTime_spec h d.driverErr
  obtain ⟨hvalid, hcooked⟩ := SysGeneric.offsetConvert_cooked h.valid s.clock.raw d.driverErr
  rw [State.accumulateOffset]
  dsimp only
  rw [hnow]
  cases hcheck : checkOffset env (s.clock.cooked config) offset with
  | false =>
      rw [if_pos rfl, if_neg Bool.false_ne_true]
      exact ⟨rfl, rfl, hcooked, _, hread⟩
  | true =>
      rw [if_neg Bool.true_eq_false.mp, if_pos rfl]
      obtain ⟨hvalid', hraw, hbase, hcooked'⟩ :=
        accrueOffset_spec hvalid offset corrRate d.accrueSetFreq
      dsimp only [State.drvAccrueOffset, State.cookTime]
      generalize hc : (s.clock.offsetConvert config s.clock.raw d.driverErr).1.accrueOffset config
        offset corrRate d.accrueSetFreq = c at *
      rw [h.invoke (t := { s with clock := c }) rfl]
      have hfinal : c.cooked config = s.clock.cooked config - offset := by rw [hcooked', hcooked]
      refine ⟨rfl, hraw, hfinal, _, announces_one h rfl rfl rfl hvalid' ?_ ?_ ?_ rfl ?_ ?_ rfl⟩
      · exact h.freq.trans hbase.symm
      · exact h.uncomp_of rfl rfl
      · exact hfinal
      · change (0 : ℚ) = (c.baseFreq - s.clock.baseFreq) / _
        rw [hbase]
        change (0 : ℚ) = (s.clock.baseFreq - s.clock.baseFreq) / _
        rw [sub_self, zero_div]
      · exact ChangeType.noConfusion

/-- **`LCL_ApplyStepOffset`** fails if the time would not be sane, or the system refuses it. -/
theorem applyStepOffset_spec (env : SourceStats.Env) (h : s.Inv config) (d : Drivers) (offset : ℚ) :
    (s.applyStepOffset config env d offset).1 =
        (checkOffset env s.clock.raw offset && d.stepped) ∧
      (s.applyStepOffset config env d offset).2.clock.raw =
        (if (checkOffset env s.clock.raw offset && d.stepped) = true then s.clock.raw - offset
        else s.clock.raw) ∧
      (s.applyStepOffset config env d offset).2.clock.cooked config =
        (if (checkOffset env s.clock.raw offset && d.stepped) = true then
          s.clock.cooked config - offset else s.clock.cooked config) ∧
      ∃ changes, Announces config s (s.applyStepOffset config env d offset).2 changes := by
  obtain ⟨hnow, hread⟩ := cookTime_spec h d.driverErr
  obtain ⟨hvalid, hcooked⟩ := SysGeneric.offsetConvert_cooked h.valid s.clock.raw d.driverErr
  have hraw : (s.cookTime config d.driverErr).1.clock.raw = s.clock.raw := rfl
  rw [State.applyStepOffset]
  dsimp only
  rw [hnow, hraw]
  cases hcheck : checkOffset env s.clock.raw offset with
  | false =>
      rw [if_pos rfl, Bool.false_and, if_neg Bool.false_ne_true, if_neg Bool.false_ne_true]
      exact ⟨rfl, rfl, hcooked, _, hread⟩
  | true =>
      rw [if_neg Bool.true_eq_false.mp, Bool.true_and]
      cases hstepped : d.stepped with
      | false =>
          rw [if_pos rfl, if_neg Bool.false_ne_true, if_neg Bool.false_ne_true]
          exact ⟨rfl, rfl, hcooked, _, hread⟩
      | true =>
          rw [if_neg Bool.true_eq_false.mp, if_pos rfl, if_pos rfl]
          obtain ⟨hvalid', hcooked'⟩ :=
            SysGeneric.step_cooked hvalid (.applyStepOffset offset) trivial
          dsimp only [State.cookTime]
          generalize hc : (s.clock.offsetConvert config s.clock.raw d.driverErr).1 = c at *
          have hbase : c.baseFreq = s.clock.baseFreq := hc ▸ rfl
          rw [h.invoke (t := { s with clock := { c with raw := s.clock.raw - offset } }) rfl]
          have hstep : ({ c with raw := s.clock.raw - offset } : Clock).handleStep offset .step =
              c.applyStepOffset offset := by
            rw [Clock.applyStepOffset, ← hc]
            rfl
          rw [hstep]
          change (c.applyStepOffset offset).cooked config = _ + -offset at hcooked'
          have hfinal : (c.applyStepOffset offset).cooked config =
              s.clock.cooked config - offset := by
            rw [hcooked', hcooked, sub_eq_add_neg]
          have hbase' : (c.applyStepOffset offset).baseFreq = s.clock.baseFreq := by
            rw [← hbase]
            rfl
          refine ⟨rfl, ?_, hfinal, _, announces_one h rfl rfl rfl hvalid' ?_ ?_ ?_ rfl ?_ ?_ rfl⟩
          · change c.raw - offset = s.clock.raw - offset
            rw [← hc]
            rfl
          · exact h.freq.trans hbase'.symm
          · exact h.uncomp_of rfl rfl
          · exact hfinal
          · change (0 : ℚ) = ((c.applyStepOffset offset).baseFreq - s.clock.baseFreq) / _
            rw [hbase', sub_self, zero_div]
          · exact ChangeType.noConfusion

/-- **`LCL_AccumulateFrequencyAndOffset`**. -/
theorem accumulateFrequencyAndOffset_spec (h : s.Inv config) (d : Drivers)
    (dfreq doffset corrRate : ℚ) :
    ∃ changes, Announces config s
      (s.accumulateFrequencyAndOffset config env d dfreq doffset corrRate).2 changes := by
  obtain ⟨hnow, hread⟩ := cookTime_spec h d.driverErr
  rw [State.accumulateFrequencyAndOffset]
  dsimp only
  rw [hnow]
  split
  · exact ⟨_, hread⟩
  next =>
      have hbase₀ : (s.cookTime config d.driverErr).1.clock.baseFreq = s.clock.baseFreq := rfl
      have hcooked₀ : (s.cookTime config d.driverErr).1.clock.cooked config =
          s.clock.cooked config :=
            (SysGeneric.offsetConvert_cooked h.valid s.clock.raw d.driverErr).2
      obtain ⟨c, hadd, hvalid, hcooked, hbound⟩ := addFrequency_spec hread.inv.toSound d dfreq
      obtain ⟨hvalid', -, hbase, hcooked'⟩ :=
        accrueOffset_spec hvalid doffset corrRate d.accrueSetFreq
      rw [hadd, hbase₀]
      dsimp only [State.cookTime, State.drvAccrueOffset]
      generalize c.accrueOffset config doffset corrRate d.accrueSetFreq = c' at *
      rw [h.invoke (t := { s with currentFreqPpm := c.baseFreq, clock := c' }) rfl]
      refine ⟨_, announces_one h rfl rfl rfl hvalid' hbase.symm ?_ ?_ rfl ?_ ?_ rfl⟩
      · rw [readAbsoluteFrequency_eq]
        exact uncomp_le hbound h.comp
      · change c'.cooked config = _
        rw [hcooked', hcooked, hcooked₀]
      · change _ = (c'.baseFreq - s.clock.baseFreq) / _
        rw [hbase]
      · exact ChangeType.noConfusion

/-- **`LCL_MakeStep`** makes the clock show the cooked time. The cooked time is not changed if
the raw time is sane. It is wrong after the step otherwise, because `LCL_AccumulateOffset` does
not cancel the slew. -/
theorem makeStep_spec (env : SourceStats.Env) (h : s.Inv config) (d revert : Drivers) :
    (s.makeStep config env d revert).1 =
        (checkOffset env s.clock.raw (-s.correction config) && d.stepped) ∧
      ((s.makeStep config env d revert).1 = true →
        (s.makeStep config env d revert).2.clock.raw = s.clock.cooked config) ∧
      (checkOffset env (s.clock.cooked config) (s.correction config) = true →
        (s.makeStep config env d revert).2.clock.cooked config = s.clock.cooked config) ∧
      (checkOffset env (s.clock.cooked config) (s.correction config) = false →
        (s.makeStep config env d revert).1 = true →
        (s.makeStep config env d revert).2.clock.cooked config =
          s.clock.cooked config + s.correction config) ∧
      ∃ changes, Announces config s (s.makeStep config env d revert).2 changes := by
  obtain ⟨hcorrection, hread⟩ := getOffsetCorrection_spec h d.driverErr
  have hraw₀ : (s.getOffsetCorrection config d.driverErr).1.clock.raw = s.clock.raw := rfl
  have hcooked₀ : (s.getOffsetCorrection config d.driverErr).1.clock.cooked config =
      s.clock.cooked config := (SysGeneric.offsetConvert_cooked h.valid s.clock.raw d.driverErr).2
  rw [State.makeStep]
  dsimp only
  rw [hcorrection, hraw₀]
  have hcooked : s.clock.cooked config = s.clock.raw + s.correction config := by
    rw [State.correction, add_sub_cancel]
  generalize s.correction config = correction at *
  split
  next hcheck =>
      rw [hcheck, Bool.false_and]
      exact ⟨rfl, fun hfalse => absurd hfalse Bool.false_ne_true, fun _ => hcooked₀,
        fun _ hfalse => absurd hfalse Bool.false_ne_true, _, hread⟩
  next hcheck =>
      have hcheck' := Bool.eq_true_of_not_eq_false hcheck
      obtain ⟨-, hraw₁, hcooked₁, changes₁, h₁⟩ :=
        accumulateOffset_spec env hread.inv d correction 0
      generalize ((s.getOffsetCorrection config d.driverErr).1.accumulateOffset config env d
        correction 0).2 = s₁ at *
      obtain ⟨hstep, hraw₂, hcooked₂, changes₂, h₂⟩ :=
        applyStepOffset_spec env h₁.inv d (-correction)
      generalize hs₂ : s₁.applyStepOffset config env d (-correction) = step at *
      rw [hraw₁, hraw₀, hcheck', Bool.true_and] at hstep hraw₂ hcooked₂
      rw [hcooked₀] at hcooked₁
      rw [hcheck', Bool.true_and, hstep]
      cases hstepped : d.stepped with
      | true =>
          rw [hstepped, if_pos rfl, sub_neg_eq_add] at hraw₂ hcooked₂
          rw [if_neg Bool.true_eq_false.mp]
          refine ⟨rfl, fun _ => hraw₂.trans hcooked.symm, fun hsane => ?_, fun hsane _ => ?_, _,
            hread.trans (h₁.trans h₂)⟩
          · change step.2.clock.cooked config = _
            rw [hcooked₂, hcooked₁, if_pos hsane, sub_add_cancel]
          · change step.2.clock.cooked config = _
            rw [hcooked₂, hcooked₁, hsane, if_neg Bool.false_ne_true]
      | false =>
          rw [hstepped, if_neg Bool.false_ne_true] at hraw₂ hcooked₂
          rw [if_pos rfl]
          obtain ⟨-, -, hcooked₃, changes₃, h₃⟩ :=
            accumulateOffset_spec env h₂.inv revert (-correction) 0
          refine ⟨rfl, fun hfalse => absurd hfalse Bool.false_ne_true, fun hsane => ?_,
            fun _ hfalse => absurd hfalse Bool.false_ne_true, _,
            hread.trans (h₁.trans (h₂.trans h₃))⟩
          rw [if_pos hsane] at hcooked₁
          have hback : step.2.clock.cooked config = s.clock.raw := by
            rw [hcooked₂, hcooked₁, hcooked, add_sub_cancel_right]
          change (step.2.accumulateOffset config env revert (-correction) 0).2.clock.cooked config
            = _
          rw [hcooked₃, hback, if_pos hcheck', sub_neg_eq_add, hcooked]

theorem cancelOffsetCorrection_spec (env : SourceStats.Env) (h : s.Inv config) (d : Drivers) :
    ∃ changes, Announces config s (s.cancelOffsetCorrection config env d) changes := by
  obtain ⟨-, hread⟩ := getOffsetCorrection_spec h d.driverErr
  obtain ⟨-, -, -, changes, hannounces⟩ := accumulateOffset_spec env hread.inv d
    (s.getOffsetCorrection config d.driverErr).2 0
  exact ⟨_, hread.trans hannounces⟩

/-! ### Changes which are not announced -/

/-- The handler `handle_step` keeps the invariant of the clock. -/
theorem handleStep_valid {c : Clock} (h : c.Valid config) (doffset : ℚ) (changeType : ChangeType) :
    (c.handleStep doffset changeType).Valid config ∧
      (c.handleStep doffset changeType).baseFreq = c.baseFreq := by
  rw [Clock.handleStep]
  split
  · exact ⟨⟨h.remaining, h.totalFreq, h.slewFreq⟩, rfl⟩
  · exact ⟨h, rfl⟩

theorem State.Inv.invoke_inv (h : s.Inv config) (change : Change) :
    (s.invokeParameterChangeHandlers change).Inv config := by
  obtain ⟨hvalid, hbase⟩ := handleStep_valid h.valid change.doffset change.changeType
  rw [h.invoke rfl]
  exact { h with valid := hvalid, freq := h.freq.trans hbase.symm }

theorem State.Inv.invoke_changesFor (h : s.Inv config) (change : Change) {entry : Entry H A}
    (hmem : entry ∈ s.changeList) :
    entry ∈ (s.invokeParameterChangeHandlers change).changeList ∧
      (s.invokeParameterChangeHandlers change).changesFor entry =
        s.changesFor entry ++ [change] := by
  rw [h.invoke rfl]
  refine ⟨hmem, ?_⟩
  rw [State.changesFor, List.filter_append, List.map_append, filter_map_mk,
    List.count_eq_one_of_mem h.nodup hmem]
  rfl

/-- **`LCL_NotifyExternalTimeStep`** announces an unknown step after the slew was cancelled. -/
theorem notifyExternalTimeStep_changesFor (env : SourceStats.Env) (h : s.Inv config) (d : Drivers)
    (raw cooked offset : ℚ) {entry : Entry H A} (hmem : entry ∈ s.changeList) :
    entry ∈ (s.notifyExternalTimeStep config env d raw cooked offset).changeList ∧
      ∃ changes, (s.notifyExternalTimeStep config env d raw cooked offset).changesFor entry =
        s.changesFor entry ++ (changes ++ [⟨raw, cooked, 0, offset, .unknownStep⟩]) := by
  obtain ⟨changes, hannounces⟩ := cancelOffsetCorrection_spec env h d
  obtain ⟨hmem', hchanges⟩ := hannounces.inv.invoke_changesFor
    ⟨raw, cooked, 0, offset, .unknownStep⟩ (hannounces.changeList ▸ hmem)
  refine ⟨hmem', changes, hchanges.trans ?_⟩
  rw [hannounces.changesFor h.nodup hmem, List.append_assoc]

theorem notifyExternalTimeStep_inv (h : s.Inv config) (d : Drivers) (raw cooked offset : ℚ) :
    (s.notifyExternalTimeStep config env d raw cooked offset).Inv config := by
  obtain ⟨changes, hannounces⟩ := cancelOffsetCorrection_spec env h d
  exact hannounces.inv.invoke_inv _

theorem notifyLeap_inv (h : s.Inv config) (d : Drivers) (leap : ℤ) :
    (s.notifyLeap config d leap).Inv config :=
  (cookTime_spec h d.driverErr).2.inv.invoke_inv _

omit [DecidableEq H] [DecidableEq A] in
theorem accumulateFrequencyAndOffsetNoHandlers_inv (h : s.Inv config) (d : Drivers)
    (dfreq doffset corrRate : ℚ) :
    (s.accumulateFrequencyAndOffsetNoHandlers config env d dfreq doffset corrRate).2.Inv
      config := by
  rw [State.accumulateFrequencyAndOffsetNoHandlers, State.accumulateFrequencyAndOffset]
  dsimp only
  have hread := (cookTime_spec h d.driverErr).2.inv
  split
  · exact { hread with nodup := h.nodup, handleStep := h.handleStep }
  next =>
      have hsound : (({ s with changeList := [] } : State H A).cookTime config d.driverErr).1.Sound
          config := { hread with }
      obtain ⟨c, hadd, hvalid, -, hbound⟩ := addFrequency_spec hsound d dfreq
      obtain ⟨hvalid', -, hbase, -⟩ := accrueOffset_spec hvalid doffset corrRate d.accrueSetFreq
      rw [hadd]
      exact
        { valid := hvalid'
          freq := hbase.symm
          uncomp := by
            rw [readAbsoluteFrequency_eq]
            exact uncomp_le hbound h.comp
          comp := h.comp
          max_nonneg := h.max_nonneg
          max_le := h.max_le
          nodup := h.nodup
          handleStep := h.handleStep }

omit [DecidableEq H] [DecidableEq A] in
/-- **`LCL_SetTempComp`** sets the compensation, and keeps the frequency without it. -/
theorem setTempComp_spec (h : s.Inv config) (d : Drivers) {comp : ℚ} (hcomp : |comp| ≤ maxComp) :
    (s.setTempComp config d comp).Inv config ∧ (s.setTempComp config d comp).tempCompPpm = comp ∧
      (s.setTempComp config d comp).readAbsoluteFrequency = s.readAbsoluteFrequency ∧
      (s.setTempComp config d comp).clock.cooked config = s.clock.cooked config := by
  rw [State.setTempComp]
  split
  next heq => exact ⟨h, heq, rfl, rfl⟩
  next =>
      dsimp only [State.drvSetFreq]
      rw [← readAbsoluteFrequency_eq s]
      have huncomp := h.uncomp
      generalize s.readAbsoluteFrequency = uncomp at *
      obtain ⟨hvalid, hbase, hcooked⟩ :=
        setFrequency_spec h.valid (uncomp * (1 - 1 / 10 ^ 6 * comp) - comp) d.setFreq
      generalize s.clock.setFrequency config (uncomp * (1 - 1 / 10 ^ 6 * comp) - comp) d.setFreq =
        c at *
      have hlow := (abs_le.mp huncomp).1
      rw [maxUncompFreq] at hlow
      have hne : 1 / 10 ^ 6 * uncomp + 1 ≠ 0 := by linarith
      have htemp : (uncomp - c.baseFreq) / (1 / 10 ^ 6 * uncomp + 1) = comp := by
        rw [div_eq_iff hne, hbase]
        ring
      rw [htemp]
      have hne' : 1 - 1 / 10 ^ 6 * comp ≠ 0 := by
        have := (comp_factor hcomp).1
        linarith
      have hread : ({ s with
          clock := c, currentFreqPpm := c.baseFreq, tempCompPpm := comp } :
          State H A).readAbsoluteFrequency = uncomp := by
        rw [readAbsoluteFrequency_eq, hbase, sub_add_cancel, mul_div_cancel_right₀ _ hne']
      refine ⟨?_, rfl, hread, hcooked⟩
      exact { h with valid := hvalid, freq := rfl, uncomp := hread.symm ▸ huncomp, comp := hcomp }

/-! ### Runs -/

/-- The clock, with a counter of time which is never adjusted. -/
structure World (H A : Type) where
  state : State H A
  counter : ℚ

/-- The calls of the module, and what happens to the clock between them. -/
inductive Op (H A : Type)
  | setAbsoluteFrequency (d : Drivers) (afreqPpm : ℚ)
  | accumulateDeltaFrequency (d : Drivers) (dfreq : ℚ)
  | accumulateOffset (d : Drivers) (offset corrRate : ℚ)
  | applyStepOffset (d : Drivers) (offset : ℚ)
  | accumulateFrequencyAndOffset (d : Drivers) (dfreq doffset corrRate : ℚ)
  | accumulateFrequencyAndOffsetNoHandlers (d : Drivers) (dfreq doffset corrRate : ℚ)
  | makeStep (d revert : Drivers)
  | cancelOffsetCorrection (d : Drivers)
  | notifyExternalTimeStep (d : Drivers) (raw cooked offset : ℚ)
  | notifyLeap (d : Drivers) (leap : ℤ)
  | setTempComp (d : Drivers) (comp : ℚ)
  | addHandler (handler : H) (anything : A)
  | removeHandler (handler : H) (anything : A)
  | endOfSlew (setFreq : SetFreq)
  | cookTime (raw driverErr : ℚ)
  | elapse (time slewed : ℚ)
  /-- The clock is set by another program. -/
  | jump (offset : ℚ)

/-- The time which passes in a step. -/
def Op.time : Op H A → ℚ
  | .elapse time _ => time
  | _ => 0

/-- The state after one step. -/
def State.apply (config : Config) (env : SourceStats.Env) (s : State H A) :
    Op H A → Except Abort (State H A)
  | .setAbsoluteFrequency d afreqPpm => .ok (s.setAbsoluteFrequency config d afreqPpm)
  | .accumulateDeltaFrequency d dfreq => .ok (s.accumulateDeltaFrequency config d dfreq)
  | .accumulateOffset d offset corrRate => .ok (s.accumulateOffset config env d offset corrRate).2
  | .applyStepOffset d offset => .ok (s.applyStepOffset config env d offset).2
  | .accumulateFrequencyAndOffset d dfreq doffset corrRate =>
      .ok (s.accumulateFrequencyAndOffset config env d dfreq doffset corrRate).2
  | .accumulateFrequencyAndOffsetNoHandlers d dfreq doffset corrRate =>
      .ok (s.accumulateFrequencyAndOffsetNoHandlers config env d dfreq doffset corrRate).2
  | .makeStep d revert => .ok (s.makeStep config env d revert).2
  | .cancelOffsetCorrection d => .ok (s.cancelOffsetCorrection config env d)
  | .notifyExternalTimeStep d raw cooked offset =>
      .ok (s.notifyExternalTimeStep config env d raw cooked offset)
  | .notifyLeap d leap => .ok (s.notifyLeap config d leap)
  | .setTempComp d comp => .ok (s.setTempComp config d comp)
  | .addHandler handler anything => s.addParameterChangeHandler (.module handler anything)
  | .removeHandler handler anything => s.removeParameterChangeHandler (.module handler anything)
  | .endOfSlew setFreq => .ok { s with clock := s.clock.handleEndOfSlew config setFreq }
  | .cookTime raw driverErr =>
      .ok { s with clock := (s.clock.offsetConvert config raw driverErr).1 }
  | .elapse time slewed => .ok { s with clock := s.clock.elapse time slewed }
  | .jump offset => .ok { s with clock := { s.clock with raw := s.clock.raw + offset } }

/-- **One step.** -/
def World.step (config : Config) (env : SourceStats.Env) (w : World H A) (op : Op H A) :
    Except Abort (World H A) := do
  let state ← w.state.apply config env op
  .ok ⟨state, w.counter + op.time⟩

/-- What the system and the configuration allow. -/
def World.Possible (w : World H A) : Op H A → Prop
  | .elapse _ slewed => w.state.clock.remaining = 0 → slewed = 0
  | .setTempComp _ comp => |comp| ≤ maxComp
  | _ => True

/-- The steps which are announced to a handler. The frequency is not slewed together with a slew
of the system. -/
def World.Steady (handler : H) (anything : A) (w : World H A) : Op H A → Prop
  | .elapse _ slewed =>
      (w.state.clock.remaining = 0 → slewed = 0) ∧ (slewed = 0 ∨ w.state.clock.slewFreq = 0)
  | .accumulateFrequencyAndOffsetNoHandlers .. => False
  | .notifyExternalTimeStep .. => False
  | .notifyLeap .. => False
  | .setTempComp .. => False
  | .jump _ => False
  | .removeHandler handler' anything' => ¬(handler' = handler ∧ anything' = anything)
  | _ => True

/-- The scale of the clock at its present count. -/
def World.scale (config : Config) (w : World H A) (count : ℚ) : ℚ :=
  Local.scale config w.state.clock w.counter count

variable {w w' : World H A}

/-- The steps which keep the list of handlers and announce all changes. -/
def Op.Announced : Op H A → Prop
  | .setAbsoluteFrequency .. | .accumulateDeltaFrequency .. | .accumulateOffset ..
  | .applyStepOffset .. | .accumulateFrequencyAndOffset .. | .makeStep ..
  | .cancelOffsetCorrection _ | .endOfSlew _ | .cookTime .. => True
  | _ => False

theorem apply_announces {s s' : State H A} (h : s.Inv config) {op : Op H A} (hop : op.Announced)
    (happly : s.apply config env op = .ok s') : ∃ changes, Announces config s s' changes := by
  cases op with
  | setAbsoluteFrequency d afreqPpm =>
      obtain rfl := Except.ok.inj happly
      exact (setAbsoluteFrequency_spec h d afreqPpm).1
  | accumulateDeltaFrequency d dfreq =>
      obtain rfl := Except.ok.inj happly
      exact accumulateDeltaFrequency_spec h d dfreq
  | accumulateOffset d offset corrRate =>
      obtain rfl := Except.ok.inj happly
      exact (accumulateOffset_spec env h d offset corrRate).2.2.2
  | applyStepOffset d offset =>
      obtain rfl := Except.ok.inj happly
      exact (applyStepOffset_spec env h d offset).2.2.2
  | accumulateFrequencyAndOffset d dfreq doffset corrRate =>
      obtain rfl := Except.ok.inj happly
      exact accumulateFrequencyAndOffset_spec h d dfreq doffset corrRate
  | makeStep d revert =>
      obtain rfl := Except.ok.inj happly
      exact (makeStep_spec env h d revert).2.2.2.2
  | cancelOffsetCorrection d =>
      obtain rfl := Except.ok.inj happly
      exact cancelOffsetCorrection_spec env h d
  | endOfSlew setFreq =>
      obtain rfl := Except.ok.inj happly
      obtain ⟨hvalid, hcooked⟩ := SysGeneric.step_cooked h.valid (.endOfSlew setFreq) trivial
      have hremaining : ¬(config.fastslew = true ∧
          ({ s.clock with slewTimeout := none } : Clock).fastslewActive = true) →
          s.clock.remaining = 0 := h.valid.remaining
      obtain ⟨-, -, hbase, -⟩ := SysGeneric.updateSlew_spec setFreq hremaining
      exact ⟨_, announces_none h hvalid hbase (hcooked.trans (add_zero _))⟩
  | cookTime raw driverErr =>
      obtain rfl := Except.ok.inj happly
      obtain ⟨hvalid, hcooked⟩ := SysGeneric.offsetConvert_cooked h.valid raw driverErr
      exact ⟨_, announces_none h hvalid rfl hcooked⟩
  | accumulateFrequencyAndOffsetNoHandlers | notifyExternalTimeStep | notifyLeap | setTempComp
  | addHandler | removeHandler | elapse | jump => exact hop.elim

theorem addParameterChangeHandler_spec {s s' : State H A} (h : s.Inv config) {entry : Entry H A}
    (hadd : s.addParameterChangeHandler entry = .ok s') :
    s'.Inv config ∧ s' = { s with changeList := s.changeList ++ [entry] } := by
  rw [State.addParameterChangeHandler] at hadd
  split at hadd
  · cases hadd
  next hnot =>
      obtain rfl := Except.ok.inj hadd
      refine ⟨{ h with nodup := ?_, handleStep := List.mem_append_left _ h.handleStep }, rfl⟩
      exact List.nodup_append_comm.mp (List.nodup_cons.mpr ⟨hnot, h.nodup⟩)

theorem removeParameterChangeHandler_spec {s s' : State H A} (h : s.Inv config) {handler : H}
    {anything : A}
    (hremove : s.removeParameterChangeHandler (.module handler anything) = .ok s') :
    s'.Inv config ∧
      s' = { s with changeList := s.changeList.erase (.module handler anything) } := by
  rw [State.removeParameterChangeHandler] at hremove
  split at hremove
  next =>
      obtain rfl := Except.ok.inj hremove
      have hne : (.handleStep : Entry H A) ≠ .module handler anything := by simp
      exact ⟨{ h with
        nodup := h.nodup.erase _
        handleStep := (List.mem_erase_of_ne hne).mpr h.handleStep }, rfl⟩
  · cases hremove

theorem World.step_eq_ok {op : Op H A} (hstep : w.step config env op = .ok w') :
    w.state.apply config env op = .ok w'.state ∧ w'.counter = w.counter + op.time := by
  obtain ⟨s', happly, hw'⟩ := Lib.bind_eq_ok_iff.mp hstep
  obtain rfl := Except.ok.inj hw'
  exact ⟨happly, rfl⟩

/-- **Every step keeps the invariant.** -/
theorem World.step_inv (h : w.state.Inv config) {op : Op H A} (hpossible : w.Possible op)
    (hstep : w.step config env op = .ok w') : w'.state.Inv config := by
  obtain ⟨happly, -⟩ := step_eq_ok hstep
  generalize w'.state = s' at happly
  by_cases hop : op.Announced
  · obtain ⟨changes, hannounces⟩ := apply_announces h hop happly
    exact hannounces.inv
  cases op with
  | accumulateFrequencyAndOffsetNoHandlers d dfreq doffset corrRate =>
      obtain rfl := Except.ok.inj happly
      exact accumulateFrequencyAndOffsetNoHandlers_inv h d dfreq doffset corrRate
  | notifyExternalTimeStep d raw cooked offset =>
      obtain rfl := Except.ok.inj happly
      exact notifyExternalTimeStep_inv h d raw cooked offset
  | notifyLeap d leap =>
      obtain rfl := Except.ok.inj happly
      exact notifyLeap_inv h d leap
  | setTempComp d comp =>
      obtain rfl := Except.ok.inj happly
      exact (setTempComp_spec h d hpossible).1
  | addHandler handler anything => exact (addParameterChangeHandler_spec h happly).1
  | removeHandler handler anything => exact (removeParameterChangeHandler_spec h happly).1
  | elapse time slewed =>
      obtain rfl := Except.ok.inj happly
      exact { h with valid := (SysGeneric.elapse_cooked h.valid hpossible).1 }
  | jump offset =>
      obtain rfl := Except.ok.inj happly
      exact { h with valid := ⟨h.valid.remaining, h.valid.totalFreq, h.valid.slewFreq⟩ }
  | setAbsoluteFrequency | accumulateDeltaFrequency | accumulateOffset | applyStepOffset
  | accumulateFrequencyAndOffset | makeStep | cancelOffsetCorrection | endOfSlew | cookTime =>
      exact absurd trivial hop

/-- **A registered handler follows the clock**: it gets all changes of the scale. -/
structure World.Follows (config : Config) (entry : Entry H A) (w w' : World H A)
    (changes : List Change) : Prop where
  inv : w'.state.Inv config
  mem : entry ∈ w'.state.changeList
  scale : ∀ count, w'.scale config count = changes.foldl Change.adjust (w.scale config count)
  changesFor : w'.state.changesFor entry = w.state.changesFor entry ++ changes
  dfreq_lt : ∀ change ∈ changes, change.dfreq < 1
  known : ∀ change ∈ changes, change.changeType ≠ .unknownStep

theorem World.Follows.trans {entry : Entry H A} {w₁ w₂ w₃ : World H A}
    {changes changes' : List Change} (h : Follows config entry w₁ w₂ changes)
    (h' : Follows config entry w₂ w₃ changes') :
    Follows config entry w₁ w₃ (changes ++ changes') where
  inv := h'.inv
  mem := h'.mem
  scale count := by rw [h'.scale, h.scale, List.foldl_append]
  changesFor := by rw [h'.changesFor, h.changesFor, List.append_assoc]
  dfreq_lt change hmem := (List.mem_append.mp hmem).elim (h.dfreq_lt change) (h'.dfreq_lt change)
  known change hmem := (List.mem_append.mp hmem).elim (h.known change) (h'.known change)

/-- A step which changes nothing but the list of handlers. -/
theorem World.Follows.of_list {entry : Entry H A} {changeList : List (Entry H A)}
    (h : ({ w.state with changeList } : State H A).Inv config) (hmem : entry ∈ changeList) :
    Follows config entry w ⟨{ w.state with changeList }, w.counter⟩ [] where
  inv := h
  mem := hmem
  scale _ := rfl
  changesFor := (List.append_nil _).symm
  dfreq_lt _ hmem := absurd hmem List.not_mem_nil
  known _ hmem := absurd hmem List.not_mem_nil

theorem World.step_follows (h : w.state.Inv config) {handler : H} {anything : A}
    (hmem : .module handler anything ∈ w.state.changeList) {op : Op H A}
    (hsteady : w.Steady handler anything op) (hstep : w.step config env op = .ok w') :
    ∃ changes, Follows config (.module handler anything) w w' changes := by
  obtain ⟨happly, hcounter⟩ := step_eq_ok hstep
  obtain ⟨s', counter'⟩ := w'
  dsimp only at happly hcounter
  subst hcounter
  by_cases hop : op.Announced
  · obtain ⟨changes, hannounces⟩ := apply_announces h hop happly
    have htime : op.time = 0 := by
      cases op with
      | elapse => exact hop.elim
      | _ => rfl
    rw [htime, add_zero]
    exact ⟨changes,
      { inv := hannounces.inv
        mem := hannounces.changeList ▸ hmem
        scale := fun count => hannounces.scale w.counter count
        changesFor := hannounces.changesFor h.nodup hmem
        dfreq_lt := hannounces.dfreq_lt
        known := hannounces.known }⟩
  cases op with
  | addHandler handler' anything' =>
      obtain ⟨hinv, rfl⟩ := addParameterChangeHandler_spec h happly
      rw [show (Op.addHandler handler' anything').time = 0 from rfl, add_zero]
      exact ⟨[], .of_list hinv (List.mem_append_left _ hmem)⟩
  | removeHandler handler' anything' =>
      obtain ⟨hinv, rfl⟩ := removeParameterChangeHandler_spec h happly
      rw [show (Op.removeHandler handler' anything').time = 0 from rfl, add_zero]
      refine ⟨[], .of_list hinv ((List.mem_erase_of_ne fun heq => hsteady ?_).mpr hmem)⟩
      obtain ⟨rfl, rfl⟩ := Entry.module.inj heq
      exact ⟨rfl, rfl⟩
  | elapse time slewed =>
      obtain rfl := Except.ok.inj happly
      obtain ⟨hvalid, hcooked⟩ := SysGeneric.elapse_cooked h.valid hsteady.1
      have hzero : slewed * w.state.clock.slewFreq = 0 := mul_eq_zero.mpr hsteady.2
      refine ⟨[], { h with
        valid := hvalid }, hmem, fun count => ?_, (List.append_nil _).symm,
        fun _ hmem => absurd hmem List.not_mem_nil, fun _ hmem => absurd hmem List.not_mem_nil⟩
      change Local.scale config (w.state.clock.elapse time slewed) (w.counter + time) count =
        Local.scale config w.state.clock w.counter count
      rw [Local.scale, Local.scale, hcooked, hzero,
        show (w.state.clock.elapse time slewed).baseFreq = w.state.clock.baseFreq from rfl]
      ring
  | accumulateFrequencyAndOffsetNoHandlers | notifyExternalTimeStep | notifyLeap | setTempComp
  | jump => exact hsteady.elim
  | setAbsoluteFrequency | accumulateDeltaFrequency | accumulateOffset | applyStepOffset
  | accumulateFrequencyAndOffset | makeStep | cancelOffsetCorrection | endOfSlew | cookTime =>
      exact absurd trivial hop

/-- The clock at the start. -/
def World.init (maxDrift freq raw : ℚ) : World H A := ⟨.init maxDrift freq raw, 0⟩

/-- **The clock can be reached** by steps which the system and the configuration allow. -/
def World.Reachable (config : Config) (env : SourceStats.Env) (maxDrift freq raw : ℚ)
    (w : World H A) : Prop :=
  ∃ ops, Lib.Along (World.step config env) World.Possible (.init maxDrift freq raw) ops ∧
    ops.foldlM (World.step config env) (.init maxDrift freq raw) = .ok w

theorem World.Reachable.inv {maxDrift freq raw : ℚ} (hfreq : |freq| ≤ maxUncompFreq)
    (h : w.Reachable config env maxDrift freq raw) : w.state.Inv config := by
  obtain ⟨ops, hops, h⟩ := h
  refine Lib.foldlM_invariant_along (P := World.Possible)
    (I := fun w : World H A => w.state.Inv config) ?_ (init_inv hfreq raw) hops h
  intro w op w' hinv hpossible hstep
  exact step_inv hinv hpossible hstep

theorem World.run_follows (h : w.state.Inv config) {handler : H} {anything : A}
    (hmem : .module handler anything ∈ w.state.changeList) {ops : List (Op H A)}
    (hops : Lib.Along (World.step config env) (World.Steady handler anything) w ops)
    (hrun : ops.foldlM (World.step config env) w = .ok w') :
    ∃ changes, Follows config (.module handler anything) w w' changes := by
  induction ops generalizing w with
  | nil =>
      obtain rfl := Except.ok.inj hrun
      exact ⟨[], .of_list h hmem⟩
  | cons op ops ih =>
      rw [List.foldlM_cons] at hrun
      obtain ⟨w₁, hstep, hrun⟩ := Lib.bind_eq_ok_iff.mp hrun
      obtain ⟨changes, hfollows⟩ := step_follows h hmem hops.1 hstep
      obtain ⟨changes', hfollows'⟩ := ih hfollows.inv hfollows.mem (hops.2 w₁ hstep) hrun
      exact ⟨_, hfollows.trans hfollows'⟩

/-- **The corrections which a handler gets are the change of the scale.** A time which was read
from the clock, and corrected with them, is the time which the clock as it is now would have
shown. -/
theorem run_scale {maxDrift freq raw : ℚ} (hfreq : |freq| ≤ maxUncompFreq)
    (hreachable : w.Reachable config env maxDrift freq raw) {handler : H} {anything : A}
    (hmem : .module handler anything ∈ w.state.changeList) {ops : List (Op H A)}
    (hops : Lib.Along (World.step config env) (World.Steady handler anything) w ops)
    (hrun : ops.foldlM (World.step config env) w = .ok w') :
    ∃ changes,
      w'.state.changesFor (.module handler anything) =
        w.state.changesFor (.module handler anything) ++ changes ∧
      ∀ count, w'.scale config count = changes.foldl Change.adjust (w.scale config count) := by
  obtain ⟨changes, hfollows⟩ := World.run_follows (hreachable.inv hfreq) hmem hops hrun
  exact ⟨changes, hfollows.changesFor, hfollows.scale⟩

/-- A driver which steps the clock. -/
def sampleDrivers : Drivers := ⟨SysGeneric.sampleSetFreq, SysGeneric.sampleSetFreq, 0, true⟩

/-- The range of times with a long `time_t`. -/
def sampleEnv : SourceStats.Env := ⟨id, 1 / 10 ^ 9, true, true, 0⟩

theorem sampleFreq_le : |(10 : ℚ)| ≤ maxUncompFreq := by norm_num [abs_of_pos, maxUncompFreq]

/-- A handler is registered. -/
def sampleStart : List (Op Unit Unit) := [.addHandler () ()]

/-- The frequency and the offset are corrected. -/
def sampleOps : List (Op Unit Unit) :=
  [.setAbsoluteFrequency sampleDrivers 20, .elapse 1 0,
    .accumulateOffset sampleDrivers (1 / 100) 1, .elapse 1 0, .makeStep sampleDrivers sampleDrivers]

theorem run_scale_sample :
    ∃ w w' : World Unit Unit, ∃ changes,
      sampleStart.foldlM (World.step SysGeneric.sampleConfig sampleEnv) (.init 500 10 0) = .ok w ∧
      sampleOps.foldlM (World.step SysGeneric.sampleConfig sampleEnv) w = .ok w' ∧
      w'.state.changesFor (.module () ()) = w.state.changesFor (.module () ()) ++ changes ∧
      ∀ count, w'.scale SysGeneric.sampleConfig count =
        changes.foldl Change.adjust (w.scale SysGeneric.sampleConfig count) := by
  obtain ⟨w, hw, hmem⟩ : ∃ w : World Unit Unit,
      sampleStart.foldlM (World.step SysGeneric.sampleConfig sampleEnv) (.init 500 10 0) = .ok w ∧
      .module () () ∈ w.state.changeList := ⟨_, rfl, List.mem_cons_of_mem _ (List.mem_cons_self ..)⟩
  obtain ⟨w', hw'⟩ : ∃ w',
      sampleOps.foldlM (World.step SysGeneric.sampleConfig sampleEnv) w = .ok w' := ⟨_, rfl⟩
  have helapse : ∀ w : World Unit Unit, w.Steady () () (.elapse 1 0) :=
    fun w => ⟨fun _ => rfl, .inl rfl⟩
  have hsteady : Lib.Along (World.step SysGeneric.sampleConfig sampleEnv) (World.Steady () ()) w
      sampleOps :=
    ⟨trivial, fun _ _ => ⟨helapse _, fun _ _ => ⟨trivial, fun _ _ => ⟨helapse _, fun _ _ =>
      ⟨trivial, fun _ _ => trivial⟩⟩⟩⟩⟩
  have hreachable : w.Reachable SysGeneric.sampleConfig sampleEnv 500 10 0 :=
    ⟨sampleStart, ⟨trivial, fun _ _ => trivial⟩, hw⟩
  obtain ⟨changes, h⟩ := run_scale sampleFreq_le hreachable hmem hsteady hw'
  exact ⟨w, w', changes, hw, hw', h⟩

/-- **The clock is stepped by what is left to correct**, and the cooked time is kept if the raw
time is sane. -/
theorem run_makeStep {maxDrift freq raw : ℚ} (hfreq : |freq| ≤ maxUncompFreq)
    (hreachable : w.Reachable config env maxDrift freq raw) (d revert : Drivers) :
    let s := (w.state.makeStep config env d revert).2
    let sane := checkOffset env (w.state.clock.cooked config) (w.state.correction config)
    if (w.state.makeStep config env d revert).1 = true then
      s.clock.raw = w.state.clock.cooked config ∧
        s.clock.cooked config = w.state.clock.cooked config +
          if sane = true then 0 else w.state.correction config
    else sane = true → s.clock.cooked config = w.state.clock.cooked config := by
  obtain ⟨-, hraw, hsane, hinsane, -⟩ :=
    makeStep_spec env (hreachable.inv hfreq) d revert
  dsimp only
  split
  next hok =>
      refine ⟨hraw hok, ?_⟩
      split
      next hs => rw [hsane hs, add_zero]
      next hs => exact hinsane (Bool.eq_false_of_not_eq_true hs) hok
  next => exact hsane

/-- An offset is being corrected. -/
def sampleOffset : List (Op Unit Unit) := [.accumulateOffset sampleDrivers (1 / 100) 1]

theorem run_makeStep_sample :
    ∃ w : World Unit Unit,
      sampleOffset.foldlM (World.step SysGeneric.sampleConfig sampleEnv) (.init 500 10 (10 ^ 9)) =
        .ok w ∧
      let r := w.state.makeStep SysGeneric.sampleConfig sampleEnv sampleDrivers sampleDrivers
      let cooked := w.state.clock.cooked SysGeneric.sampleConfig
      let correction := w.state.correction SysGeneric.sampleConfig
      let sane := checkOffset sampleEnv cooked correction
      if r.1 = true then
        r.2.clock.raw = cooked ∧
          r.2.clock.cooked SysGeneric.sampleConfig = cooked + if sane = true then 0 else correction
      else sane = true → r.2.clock.cooked SysGeneric.sampleConfig = cooked := by
  obtain ⟨w, hw⟩ : ∃ w : World Unit Unit,
      sampleOffset.foldlM (World.step SysGeneric.sampleConfig sampleEnv) (.init 500 10 (10 ^ 9)) =
        .ok w := ⟨_, rfl⟩
  have hreachable : w.Reachable SysGeneric.sampleConfig sampleEnv 500 10 (10 ^ 9) :=
    ⟨sampleOffset, ⟨trivial, fun _ _ => trivial⟩, hw⟩
  exact ⟨w, hw, run_makeStep sampleFreq_le hreachable sampleDrivers sampleDrivers⟩

end Chrony.Local
