import Chrony.Lib.Ramps
import Mathlib.Analysis.SpecialFunctions.Sqrt
import Mathlib.Tactic.NormNum.RealSqrt
import Mathlib.Topology.MetricSpace.Lipschitz

/-!
# Time Smoothing

The smoothing of `smooth.c` in exact real arithmetic. An offset and a frequency are smoothed
out in three stages, whose lengths are computed by `update_stages` from the solution of a
quadratic equation. If the frequency would exceed the maximum, the first and the third stage
are shortened and the second one is inserted. When the frequency is above the maximum already,
there is no first stage; in this case the length of the second stage is computed from the excess
over the maximum, instead of the excess over the frequency which is kept in the stage.

## Main results

* `updateStages_smooths_iff`: when the whole offset is removed by the stages.
* `updateStages_leaves_offset`: stages which remove too much.
-/

namespace Chrony.Smooth

open Lib

/-- The variables of `smooth.c`, with the time as a real number. -/
structure State where
  stages : List (Ramp ℝ)
  leapOnlyMode : Bool
  locked : Bool
  maxWander : ℝ
  maxFreq : ℝ
  smoothFreq : ℝ
  smoothOffset : ℝ
  lastUpdate : ℝ

/-- The values returned by `get_smoothing`. -/
structure Smoothing where
  offset : ℝ
  freq : ℝ
  wander : ℝ

noncomputable section

/-- The loop of `get_smoothing` and what follows it. -/
def getStages : List (Ramp ℝ) → ℝ → Smoothing → Smoothing
  | [], elapsed, c =>
      if elapsed > 0 then { c with wander := 0, offset := c.offset - elapsed * c.freq } else c
  | stage :: stages, elapsed, c =>
      if elapsed ≤ 0 then c
      else
        let length := if stage.length ≥ elapsed then elapsed else stage.length
        getStages stages (elapsed - length)
          { wander := stage.slope
            offset := c.offset - length * (2 * c.freq + stage.slope * length) / 2
            freq := c.freq + stage.slope * length }

/-- `get_smoothing`. -/
def getSmoothing (s : State) (now : ℝ) : Smoothing :=
  getStages s.stages (now - s.lastUpdate) ⟨s.smoothOffset, s.smoothFreq, 0⟩

/-- The lengths of the 1st and 3rd stage in one direction, and their error. -/
structure Lengths where
  l1 : ℝ
  l3 : ℝ
  err : ℝ

/-- The lengths of the 1st and 3rd stage assuming there is no frequency limit. -/
def unlimitedLengths (s : State) (dir : ℝ) : Lengths :=
  let s1 := s.smoothOffset / s.maxWander
  let s2 := s.smoothFreq ^ 2 / (2 * s.maxWander ^ 2)
  let sq := dir * s1 + s2
  let l3 := Real.sqrt (if sq < 0 then 0 else sq)
  let l1 := l3 - dir * s.smoothFreq / s.maxWander
  { l1 := if l1 < 0 then 0 else l1
    l3
    err := (if sq < 0 then -sq else 0) + (if l1 < 0 then l1 * l1 else 0) }

/-- The direction of the 1st stage. -/
def direction (s : State) : ℝ :=
  if (unlimitedLengths s (-1)).err < (unlimitedLengths s 1).err then -1 else 1

/-- The three stages in a direction. -/
def makeStages (s : State) (dir l1 l2 l3 : ℝ) : List (Ramp ℝ) :=
  [⟨dir * s.maxWander, l1⟩, ⟨0, l2⟩, ⟨-dir * s.maxWander, l3⟩]

/-- The stages with the frequency limit: if it was reached, the 1st and 3rd stages are
shortened, and the 2nd stage is set. -/
def limitStages (s : State) (dir l1 l3 : ℝ) : List (Ramp ℝ) :=
  let f := dir * s.smoothFreq + l1 * s.maxWander - s.maxFreq
  if f > 0 then
    let lc := f / s.maxWander
    if lc > l1 then
      -- no 1st stage if the frequency is already above the maximum
      makeStages s dir (l1 - l1) (l1 * (2 + f / (dir * s.smoothFreq))) (l3 - l1)
    else makeStages s dir (l1 - lc) (lc * (2 + f / s.maxFreq)) (l3 - lc)
  else makeStages s dir l1 0 l3

/-- `update_stages`. -/
def updateStages (s : State) : State :=
  let dir := direction s
  let lengths := unlimitedLengths s dir
  { s with stages := limitStages s dir lengths.l1 lengths.l3 }

/-- `SMT_Activate`. -/
def activate (s : State) (now : ℝ) : State :=
  if s.locked then { s with locked := false, lastUpdate := now } else s

/-- `UNLOCK_SKEW_WANDER_RATIO`. -/
def unlockSkewWanderRatio : ℝ := 10000

/-- `update_smoothing`, with the skew of the reference. -/
def updateSmoothing (s : State) (skew now offset freq : ℝ) : State :=
  if s.locked then
    if skew / s.maxWander < unlockSkewWanderRatio ∨ s.leapOnlyMode then activate s now else s
  else
    let c := getSmoothing s now
    updateStages { s with
      smoothOffset := c.offset + offset
      smoothFreq := (c.freq - freq) / (1 - freq)
      lastUpdate := now }

end

/-! ### The stages as ramps -/

/-- **What is computed by `get_smoothing`**: the value of the ramps, and their integral. -/
theorem getStages_eq {stages : List (Ramp ℝ)} (h : Ramps.Nonneg stages) (elapsed : ℝ)
    (c : Smoothing) :
    (getStages stages elapsed c).freq = Ramps.value stages elapsed c.freq ∧
      (getStages stages elapsed c).offset = c.offset - Ramps.area stages elapsed c.freq := by
  induction stages generalizing elapsed c with
  | nil =>
      rw [getStages, Ramps.value, Ramps.area]
      split
      next hpos =>
          rw [max_eq_right hpos.le]
          exact ⟨rfl, rfl⟩
      next hle =>
          rw [max_eq_left (not_lt.mp hle), zero_mul, sub_zero]
          exact ⟨rfl, rfl⟩
  | cons stage stages ih =>
      obtain ⟨hstage, hrest⟩ := List.forall_mem_cons.mp h
      rw [getStages]
      split
      next hle =>
          rw [Ramps.value_of_nonpos hle, Ramps.area_of_nonpos hle, sub_zero]
          exact ⟨rfl, rfl⟩
      next hpos =>
          have hlength : (if stage.length ≥ elapsed then elapsed else stage.length) =
              stage.spent elapsed := by
            split
            next hge => exact (Ramps.spent_of_lt (not_le.mp hpos).le hge).symm
            next hlt => exact (Ramps.spent_of_le hstage (not_le.mp hlt).le).symm
          dsimp only
          rw [hlength]
          obtain ⟨hfreq, hoffset⟩ := ih hrest (elapsed - stage.spent elapsed)
            { wander := stage.slope
              offset := c.offset - stage.spent elapsed *
                (2 * c.freq + stage.slope * stage.spent elapsed) / 2
              freq := c.freq + stage.slope * stage.spent elapsed }
          refine ⟨hfreq, hoffset.trans ?_⟩
          rw [Ramps.area, Ramp.areaFrom]
          ring

/-! ### The direction -/

/-- **A solution without the frequency limit**: the frequency is changed to zero, and the offset
is removed. The lengths are not negative. -/
structure Solves (s : State) (dir l1 l3 : ℝ) : Prop where
  isDir : dir = -1 ∨ dir = 1
  l1_nonneg : 0 ≤ l1
  l3_nonneg : 0 ≤ l3
  freq : s.maxWander * l1 = s.maxWander * l3 - dir * s.smoothFreq
  offset : 2 * s.maxWander ^ 2 * l3 ^ 2 = 2 * dir * s.smoothOffset * s.maxWander + s.smoothFreq ^ 2

/-- The square of the length of the 3rd stage, which can be negative in one direction. -/
noncomputable def square (s : State) (dir : ℝ) : ℝ :=
  dir * (s.smoothOffset / s.maxWander) + s.smoothFreq ^ 2 / (2 * s.maxWander ^ 2)

theorem l3_eq (s : State) (dir : ℝ) :
    (unlimitedLengths s dir).l3 = Real.sqrt (if square s dir < 0 then 0 else square s dir) :=
  rfl

theorem l1_eq (s : State) (dir : ℝ) :
    (unlimitedLengths s dir).l1 =
      if (unlimitedLengths s dir).l3 - dir * s.smoothFreq / s.maxWander < 0 then 0
      else (unlimitedLengths s dir).l3 - dir * s.smoothFreq / s.maxWander :=
  rfl

theorem err_eq (s : State) (dir : ℝ) :
    (unlimitedLengths s dir).err = (if square s dir < 0 then -square s dir else 0) +
      if (unlimitedLengths s dir).l3 - dir * s.smoothFreq / s.maxWander < 0 then
        ((unlimitedLengths s dir).l3 - dir * s.smoothFreq / s.maxWander) *
          ((unlimitedLengths s dir).l3 - dir * s.smoothFreq / s.maxWander)
      else 0 :=
  rfl

/-- The parts of the error are zero if there is no error, and positive otherwise. -/
theorem err_part {x y : ℝ} (hy : x < 0 → 0 < y) :
    0 ≤ (if x < 0 then y else 0) ∧ ((if x < 0 then y else 0) = 0 ↔ 0 ≤ x) := by
  split
  next hlt => exact ⟨(hy hlt).le, iff_of_false (hy hlt).ne' (not_le.mpr hlt)⟩
  next hge => exact ⟨le_rfl, iff_of_true rfl (not_lt.mp hge)⟩

theorem err_spec (s : State) (dir : ℝ) :
    0 ≤ (unlimitedLengths s dir).err ∧ ((unlimitedLengths s dir).err = 0 ↔
      0 ≤ square s dir ∧
        0 ≤ (unlimitedLengths s dir).l3 - dir * s.smoothFreq / s.maxWander) := by
  obtain ⟨hnonneg₁, hzero₁⟩ := err_part (x := square s dir) (fun h => neg_pos.mpr h)
  obtain ⟨hnonneg₂, hzero₂⟩ := err_part
    (x := (unlimitedLengths s dir).l3 - dir * s.smoothFreq / s.maxWander)
    fun h => mul_pos_of_neg_of_neg h h
  rw [err_eq, ← hzero₁, ← hzero₂]
  exact ⟨add_nonneg hnonneg₁ hnonneg₂, add_eq_zero_iff_of_nonneg hnonneg₁ hnonneg₂⟩

theorem solves_of_err {s : State} (hW : 0 < s.maxWander) {dir : ℝ} (hdir : dir = -1 ∨ dir = 1)
    (h : (unlimitedLengths s dir).err = 0) :
    Solves s dir (unlimitedLengths s dir).l1 (unlimitedLengths s dir).l3 := by
  obtain ⟨hsq, hl1⟩ := (err_spec s dir).2.mp h
  rw [l1_eq, if_neg (not_lt.mpr hl1)]
  refine ⟨hdir, hl1, Real.sqrt_nonneg _, ?_, ?_⟩
  · field_simp
  · rw [l3_eq, if_neg (not_lt.mpr hsq), Real.sq_sqrt hsq, square]
    field_simp

/-- **One of the directions has a solution.** It depends on which side of the parabola of the
braking the offset is. -/
theorem err_eq_zero_or (s : State) (hW : 0 < s.maxWander) :
    (unlimitedLengths s (-1)).err = 0 ∨ (unlimitedLengths s 1).err = 0 := by
  set o := s.smoothOffset / s.maxWander with ho
  set g := s.smoothFreq / s.maxWander with hg
  have hsquare : ∀ dir, square s dir = dir * o + g ^ 2 / 2 := by
    intro dir
    rw [square, ho, hg]
    field_simp
  -- a direction has a solution if the square is large enough
  have hsolves : ∀ dir, 0 ≤ square s dir → (0 < dir * g → (dir * g) ^ 2 ≤ square s dir) →
      (unlimitedLengths s dir).err = 0 := by
    intro dir hsq hlarge
    refine (err_spec s dir).2.mpr ⟨hsq, ?_⟩
    rw [l3_eq, if_neg (not_lt.mpr hsq), mul_div_assoc, ← hg, sub_nonneg]
    rcases le_or_gt (dir * g) 0 with hle | hpos
    · exact hle.trans (Real.sqrt_nonneg _)
    · exact Real.le_sqrt_of_sq_le (hlarge hpos)
  rcases le_total o (g * |g| / 2) with hle | hge
  · left
    rcases le_total 0 g with hg₀ | hg₀
    · rw [abs_of_nonneg hg₀] at hle
      refine hsolves (-1) ?_ fun hpos => by linarith
      rw [hsquare]
      linarith
    · rw [abs_of_nonpos hg₀] at hle
      have hlarge : (-1 * g) ^ 2 ≤ square s (-1) := by
        rw [hsquare]
        linarith
      exact hsolves (-1) ((sq_nonneg _).trans hlarge) fun _ => hlarge
  · right
    rcases le_total 0 g with hg₀ | hg₀
    · rw [abs_of_nonneg hg₀] at hge
      have hlarge : (1 * g) ^ 2 ≤ square s 1 := by
        rw [hsquare]
        linarith
      exact hsolves 1 ((sq_nonneg _).trans hlarge) fun _ => hlarge
    · rw [abs_of_nonpos hg₀] at hge
      refine hsolves 1 ?_ fun hpos => by linarith
      rw [hsquare]
      linarith

theorem direction_solves (s : State) (hW : 0 < s.maxWander) :
    Solves s (direction s) (unlimitedLengths s (direction s)).l1
      (unlimitedLengths s (direction s)).l3 := by
  have hone := err_eq_zero_or s hW
  have hneg := (err_spec s (-1)).1
  have hpos := (err_spec s 1).1
  rw [direction]
  split
  next hlt => exact solves_of_err hW (.inl rfl) (hone.resolve_right fun h => by linarith)
  next hge => exact solves_of_err hW (.inr rfl) (hone.elim (fun h => by linarith) id)

/-! ### The frequency limit -/

/-- What the stages remove in addition to the offset, in the direction of the 1st stage. -/
noncomputable def excess (s : State) (dir l1 : ℝ) : ℝ :=
  if s.maxFreq < dir * s.smoothFreq then l1 * (dir * s.smoothFreq - s.maxFreq) else 0

/-- **What is known about the stages**: their lengths are not negative, the frequency after the
1st and 2nd stage is that from which the 3rd stage goes to zero, and the integral. -/
structure Limited (s : State) (dir l1 l2 l3 extra : ℝ) : Prop where
  l1_nonneg : 0 ≤ l1
  l2_nonneg : 0 ≤ l2
  l3_nonneg : 0 ≤ l3
  freq : s.smoothFreq + dir * s.maxWander * l1 = dir * s.maxWander * l3
  bound : s.maxWander * l3 ≤ max s.maxFreq |s.smoothFreq|
  area : Ramps.endArea (makeStages s dir l1 l2 l3) s.smoothFreq = s.smoothOffset + dir * extra

theorem endArea_makeStages (s : State) (dir l1 l2 l3 v : ℝ) :
    Ramps.endArea (makeStages s dir l1 l2 l3) v =
      l1 * (2 * v + dir * s.maxWander * l1) / 2 + l2 * (v + dir * s.maxWander * l1) +
        l3 * (2 * (v + dir * s.maxWander * l1) - dir * s.maxWander * l3) / 2 := by
  simp only [Ramps.endArea, makeStages, Ramp.areaFrom, Ramp.rise]
  ring

theorem Solves.dir_mul_self {s : State} {dir l1 l3 : ℝ} (h : Solves s dir l1 l3) :
    dir * dir = 1 := by
  rcases h.isDir with rfl | rfl <;> norm_num

/-- **A cut of the stages**: the 1st and 3rd stage are shortened by the same length, and the 2nd
stage replaces what was above the frequency which is kept in it. -/
theorem limited_of_cut {s : State} (hW : 0 < s.maxWander) {dir l1 l2 l3 lc extra : ℝ}
    (h : Solves s dir l1 l3) (hl1 : lc ≤ l1) (hl2 : 0 ≤ l2) (hl3 : lc ≤ l3)
    (hbound : s.maxWander * (l3 - lc) ≤ max s.maxFreq |s.smoothFreq|)
    (hcut : l2 * (s.maxWander * (l3 - lc)) =
      2 * lc * (s.maxWander * (l3 - lc)) + lc * (s.maxWander * lc) + extra) :
    Limited s dir (l1 - lc) l2 (l3 - lc) extra := by
  have hdir := h.dir_mul_self
  have hfreq := h.freq
  have hoffset := h.offset
  set p := s.maxWander * (l3 - lc) with hp
  have hrise : s.maxWander * (l1 - lc) = p - dir * s.smoothFreq := by
    rw [hp]
    linear_combination hfreq
  have hpeak : s.smoothFreq + dir * s.maxWander * (l1 - lc) = dir * p := by
    linear_combination dir * hrise - s.smoothFreq * hdir
  refine ⟨sub_nonneg.mpr hl1, hl2, sub_nonneg.mpr hl3, ?_, hbound, ?_⟩
  · rw [hpeak, hp]
    ring
  · rw [endArea_makeStages]
    refine mul_left_cancel₀ hW.ne' ?_
    calc s.maxWander * ((l1 - lc) * (2 * s.smoothFreq + dir * s.maxWander * (l1 - lc)) / 2 +
          l2 * (s.smoothFreq + dir * s.maxWander * (l1 - lc)) +
          (l3 - lc) * (2 * (s.smoothFreq + dir * s.maxWander * (l1 - lc)) -
            dir * s.maxWander * (l3 - lc)) / 2)
        = s.maxWander * (l1 - lc) * (s.smoothFreq + dir * p) / 2 +
            s.maxWander * dir * (l2 * p) + dir * p * p / 2 := by
          rw [hpeak, hp]
          linear_combination (s.maxWander * (l1 - lc) / 2) * hpeak
      _ = dir * (p * p - s.smoothFreq * s.smoothFreq) / 2 +
            s.maxWander * dir * (2 * lc * p + lc * (s.maxWander * lc) + extra) +
            dir * p * p / 2 := by
          rw [hrise, hcut]
          linear_combination (-(p * s.smoothFreq) / 2) * hdir
      _ = dir * (s.maxWander ^ 2 * l3 ^ 2) - dir * s.smoothFreq ^ 2 / 2 +
            s.maxWander * dir * extra := by
          rw [hp]
          ring
      _ = s.maxWander * (s.smoothOffset + dir * extra) := by
          linear_combination (dir / 2) * hoffset + s.smoothOffset * s.maxWander * hdir

/-- **The stages which are set**, with the frequency limit. Only if the frequency is above the
maximum already, they do not remove just the offset. -/
theorem limitStages_limited {s : State} (hF : 0 < s.maxFreq) (hW : 0 < s.maxWander)
    {dir l1 l3 : ℝ} (h : Solves s dir l1 l3) :
    ∃ l1' l2' l3', limitStages s dir l1 l3 = makeStages s dir l1' l2' l3' ∧
      Limited s dir l1' l2' l3' (excess s dir l1) := by
  have hfreq := h.freq
  have hl1 := h.l1_nonneg
  have hrise := mul_nonneg hW.le hl1
  rw [limitStages]
  dsimp only
  set f := dir * s.smoothFreq + l1 * s.maxWander - s.maxFreq with hf
  split
  next hpos =>
      have hlc : s.maxWander * (f / s.maxWander) = f := mul_div_cancel₀ f hW.ne'
      split
      next hgt =>
          have habove : s.maxFreq < dir * s.smoothFreq := by
            have := (lt_div_iff₀ hW).mp hgt
            linarith
          have hpeak : s.maxWander * (l3 - l1) = dir * s.smoothFreq := by
            linear_combination -hfreq
          have hcancel : f / (dir * s.smoothFreq) * (dir * s.smoothFreq) = f :=
            div_mul_cancel₀ f (hF.trans habove).ne'
          have hratio : 0 ≤ f / (dir * s.smoothFreq) := (div_pos hpos (hF.trans habove)).le
          have hl3 : l1 ≤ l3 := by
            refine le_of_sub_nonneg (nonneg_of_mul_nonneg_right ?_ hW)
            rw [hpeak]
            exact (hF.trans habove).le
          refine ⟨_, _, _, rfl, limited_of_cut hW h le_rfl (by positivity) hl3 ?_ ?_⟩
          · rw [hpeak]
            refine le_max_of_le_right ((le_abs_self _).trans_eq ?_)
            rcases h.isDir with rfl | rfl
            · rw [neg_one_mul, abs_neg]
            · rw [one_mul]
          · rw [hpeak, excess, if_pos habove]
            linear_combination l1 * hcancel + l1 * hf
      next hle =>
          have hbelow : ¬ s.maxFreq < dir * s.smoothFreq := by
            have := (div_le_iff₀ hW).mp (not_lt.mp hle)
            exact not_lt.mpr (by linarith)
          have hpeak : s.maxWander * (l3 - f / s.maxWander) = s.maxFreq := by
            linear_combination -hfreq - hlc - hf
          have hcancel : f / s.maxFreq * s.maxFreq = f := div_mul_cancel₀ f hF.ne'
          have hl3 : f / s.maxWander ≤ l3 := by
            refine le_of_sub_nonneg (nonneg_of_mul_nonneg_right ?_ hW)
            rw [hpeak]
            exact hF.le
          refine ⟨_, _, _, rfl, limited_of_cut hW h (not_lt.mp hle) (by positivity) hl3 ?_ ?_⟩
          · rw [hpeak]
            exact le_max_left _ _
          · rw [hpeak, hlc, excess, if_neg hbelow]
            linear_combination (f / s.maxWander) * hcancel
  next hle =>
      have hbelow : ¬ s.maxFreq < dir * s.smoothFreq := not_lt.mpr (by linarith)
      have hexcess : excess s dir l1 = 0 := if_neg hbelow
      have hcut : Limited s dir (l1 - 0) 0 (l3 - 0) (excess s dir l1) :=
        limited_of_cut hW h hl1 le_rfl h.l3_nonneg (le_max_of_le_left (by linarith))
          (by rw [hexcess]; ring)
      rw [sub_zero, sub_zero] at hcut
      exact ⟨_, _, _, rfl, hcut⟩

/-- **When just the offset is removed**: the frequency is not above the maximum, or the offset in
its direction is not larger than what is removed when the frequency is changed to zero. -/
theorem excess_eq_zero_iff {s : State} (hF : 0 < s.maxFreq) (hW : 0 < s.maxWander)
    {dir l1 l3 : ℝ} (h : Solves s dir l1 l3) :
    excess s dir l1 = 0 ↔ |s.smoothFreq| ≤ s.maxFreq ∨
      s.smoothFreq * s.smoothOffset ≤ |s.smoothFreq| ^ 3 / (2 * s.maxWander) := by
  have hdir := h.dir_mul_self
  have hfreq := h.freq
  have habs : |s.smoothFreq| = |dir * s.smoothFreq| := by
    rcases h.isDir with rfl | rfl
    · rw [neg_one_mul, abs_neg]
    · rw [one_mul]
  -- the frequency and the offset in the direction
  have hproduct : s.smoothFreq * s.smoothOffset * (2 * s.maxWander) =
      dir * s.smoothFreq * (2 * (s.maxWander * l3) ^ 2 - (dir * s.smoothFreq) ^ 2) := by
    linear_combination (-dir * s.smoothFreq) * h.offset +
      (dir * s.smoothFreq ^ 3 - 2 * s.smoothFreq * s.smoothOffset * s.maxWander) * hdir
  rw [habs, le_div_iff₀ (by positivity), hproduct, excess]
  set g := dir * s.smoothFreq
  constructor
  · intro hzero
    rcases le_total g 0 with hg | hg
    · right
      have hcube : |g| ^ 3 = g * -g ^ 2 := by
        rw [abs_of_nonpos hg]
        ring
      rw [hcube]
      exact mul_le_mul_of_nonpos_left (by linarith [sq_nonneg (s.maxWander * l3)]) hg
    · rw [abs_of_nonneg hg]
      split at hzero
      next hlt =>
          right
          have hl1 : l1 = 0 := (mul_eq_zero.mp hzero).resolve_right (sub_pos.mpr hlt).ne'
          rw [hl1, mul_zero] at hfreq
          have hpeak : s.maxWander * l3 = g := by linarith
          rw [hpeak]
          exact le_of_eq (by ring)
      next hge => exact .inl (not_lt.mp hge)
  · intro hcond
    split
    next hlt =>
        have hg : 0 < g := hF.trans hlt
        rw [abs_of_pos hg] at hcond
        have hle := hcond.resolve_left (not_le.mpr hlt)
        have hsquare : 2 * (s.maxWander * l3) ^ 2 - g ^ 2 ≤ g ^ 2 :=
          le_of_mul_le_mul_left (hle.trans_eq (by ring)) hg
        have hpeak : s.maxWander * l3 ≤ g :=
          (abs_le_of_sq_le_sq' (by linarith) hg.le).2
        have hl1 : l1 = 0 :=
          le_antisymm (nonpos_of_mul_nonpos_right (by linarith) hW) h.l1_nonneg
        rw [hl1, zero_mul]
    next hge => rfl

/-! ### The smoothing -/

/-- **The time is smoothed**: the offset is removed at the end of the stages, the frequency is
continuous, and it is limited together with its rate of change. -/
structure Smooths (s : State) : Prop where
  three : s.stages.length = 3
  nonneg : Ramps.Nonneg s.stages
  removed : ∀ now, s.lastUpdate + Ramps.total s.stages ≤ now →
    (getSmoothing s now).offset = 0 ∧ (getSmoothing s now).freq = 0
  continuous : Continuous fun now => (getSmoothing s now).freq
  bounded : ∀ now, |(getSmoothing s now).freq| ≤ max s.maxFreq |s.smoothFreq|
  rate : ∀ now now', |(getSmoothing s now).freq - (getSmoothing s now').freq| ≤
    s.maxWander * |now - now'|

/-- The frequency is limited at the ends of the stages. -/
theorem abs_endValue_le_of_limited {s : State} (hW : 0 < s.maxWander) {dir l1 l2 l3 extra : ℝ}
    (hdir : dir = -1 ∨ dir = 1) (h : Limited s dir l1 l2 l3 extra) {l₁ l₂ : List (Ramp ℝ)}
    (heq : makeStages s dir l1 l2 l3 = l₁ ++ l₂) :
    |Ramps.endValue l₁ s.smoothFreq| ≤ max s.maxFreq |s.smoothFreq| := by
  have hfreq := h.freq
  have hpeak : |s.smoothFreq + dir * s.maxWander * l1| ≤ max s.maxFreq |s.smoothFreq| := by
    refine le_trans (le_of_eq ?_) h.bound
    rw [hfreq, mul_assoc, abs_mul, abs_of_nonneg (mul_nonneg hW.le h.l3_nonneg)]
    rcases hdir with rfl | rfl
    · rw [abs_neg, abs_one, one_mul]
    · rw [abs_one, one_mul]
  rw [makeStages] at heq
  match l₁, heq with
  | [], _ => simp [Ramps.endValue]
  | [a], heq =>
      simp only [List.cons_append, List.nil_append, List.cons.injEq] at heq
      obtain ⟨rfl, _⟩ := heq
      simpa [Ramps.endValue, Ramp.rise] using hpeak
  | [a, b], heq =>
      simp only [List.cons_append, List.nil_append, List.cons.injEq] at heq
      obtain ⟨rfl, rfl, _⟩ := heq
      simpa [Ramps.endValue, Ramp.rise] using hpeak
  | [a, b, c], heq =>
      simp only [List.cons_append, List.nil_append, List.cons.injEq] at heq
      obtain ⟨rfl, rfl, rfl, _⟩ := heq
      have hend : s.smoothFreq + (dir * s.maxWander * l1 + -dir * s.maxWander * l3) = 0 := by
        linear_combination hfreq
      simp only [Ramps.endValue, Ramp.rise, List.map_cons, List.map_nil, List.sum_cons,
        List.sum_nil, zero_mul, zero_add, add_zero, hend, abs_zero]
      exact (abs_nonneg _).trans (le_max_right _ _)
  | a :: b :: c :: d :: l₁, heq => simp at heq

/-- **When the time is smoothed by the stages**: when they remove just the offset. -/
theorem smooths_iff_of_limited {s : State} (hW : 0 < s.maxWander) {dir l1 l2 l3 extra : ℝ}
    (hdir : dir = -1 ∨ dir = 1) (h : Limited s dir l1 l2 l3 extra) :
    Smooths { s with stages := makeStages s dir l1 l2 l3 } ↔ extra = 0 := by
  set stages := makeStages s dir l1 l2 l3 with hstages
  have hnonneg : Ramps.Nonneg stages := by
    simpa [hstages, makeStages, Ramps.Nonneg] using ⟨h.l1_nonneg, h.l2_nonneg, h.l3_nonneg⟩
  have hslope : ∀ r ∈ stages, |r.slope| ≤ s.maxWander := by
    have habs := abs_of_pos hW
    rcases hdir with rfl | rfl <;> simp [hstages, makeStages, abs_neg, habs, hW.le]
  have hend : Ramps.endValue stages s.smoothFreq = 0 := by
    have hfreq := h.freq
    simp only [hstages, makeStages, Ramps.endValue, Ramp.rise, List.map_cons, List.map_nil,
      List.sum_cons, List.sum_nil]
    linear_combination hfreq
  have hget : ∀ now, (getSmoothing { s with stages } now).freq =
        Ramps.value stages (now - s.lastUpdate) s.smoothFreq ∧
      (getSmoothing { s with stages } now).offset =
        s.smoothOffset - Ramps.area stages (now - s.lastUpdate) s.smoothFreq :=
    fun now => getStages_eq hnonneg (now - s.lastUpdate) ⟨s.smoothOffset, s.smoothFreq, 0⟩
  have hlast : ∀ now, s.lastUpdate + Ramps.total stages ≤ now →
      (getSmoothing { s with stages } now).offset = -(dir * extra) ∧
        (getSmoothing { s with stages } now).freq = 0 := by
    intro now hnow
    have htotal : Ramps.total stages ≤ now - s.lastUpdate := by linarith
    rw [(hget now).1, (hget now).2, Ramps.value_of_total_le hnonneg htotal,
      Ramps.area_of_total_le hnonneg htotal, hend, h.area]
    exact ⟨by ring, rfl⟩
  constructor
  · intro hsmooths
    have hzero := (hsmooths.removed _ le_rfl).1
    rw [(hlast _ le_rfl).1, neg_eq_zero] at hzero
    refine (mul_eq_zero.mp hzero).resolve_left ?_
    rcases hdir with rfl | rfl <;> norm_num
  · intro hextra
    have hrate : ∀ now now', |(getSmoothing { s with stages } now).freq -
        (getSmoothing { s with stages } now').freq| ≤ s.maxWander * |now - now'| := by
      intro now now'
      rw [(hget now).1, (hget now').1]
      refine (Ramps.abs_value_sub_le hW.le hslope).trans_eq ?_
      rw [sub_self, abs_zero, zero_add, sub_sub_sub_cancel_right]
    refine ⟨rfl, hnonneg, fun now hnow => ?_, ?_, fun now => ?_, hrate⟩
    · rw [(hlast now hnow).1, (hlast now hnow).2, hextra, mul_zero, neg_zero]
      exact ⟨rfl, rfl⟩
    · exact (LipschitzWith.of_dist_le_mul (K := ⟨s.maxWander, hW.le⟩)
        fun now now' => hrate now now').continuous
    · rw [(hget now).1]
      exact abs_le.mpr (Ramps.value_mem_Icc hnonneg fun l₁ l₂ heq =>
        abs_le.mp (abs_endValue_le_of_limited hW hdir h heq))

theorem updateStages_smooths_iff_excess {s : State} (hF : 0 < s.maxFreq)
    (hW : 0 < s.maxWander) :
    Smooths (updateStages s) ↔
      excess s (direction s) (unlimitedLengths s (direction s)).l1 = 0 := by
  have hsolves := direction_solves s hW
  obtain ⟨l1, l2, l3, hstages, hlimited⟩ := limitStages_limited hF hW hsolves
  rw [← smooths_iff_of_limited hW hsolves.isDir hlimited, ← hstages]
  rfl

/-- **When the smoothing is right**: the frequency is not above the maximum already, or the
offset in its direction is not larger than what is removed when the frequency is changed to zero
at the maximum wander. -/
theorem updateStages_smooths_iff (s : State) (hF : 0 < s.maxFreq) (hW : 0 < s.maxWander) :
    Smooths (updateStages s) ↔ |s.smoothFreq| ≤ s.maxFreq ∨
      s.smoothFreq * s.smoothOffset ≤ |s.smoothFreq| ^ 3 / (2 * s.maxWander) := by
  rw [updateStages_smooths_iff_excess hF hW]
  exact excess_eq_zero_iff hF hW (direction_solves s hW)

/-- The smoothing which is configured with a maximum frequency of 400 ppm and a maximum wander of
0.1 ppm per second. -/
noncomputable def sampleState (smoothFreq smoothOffset : ℝ) : State :=
  ⟨[], false, false, 1 / 10 ^ 7, 4 / 10 ^ 4, smoothFreq, smoothOffset, 0⟩

/-- An offset which needs the 2nd stage. -/
theorem updateStages_smooths_offset : Smooths (updateStages (sampleState 0 2)) :=
  (updateStages_smooths_iff (sampleState 0 2) (by norm_num [sampleState])
    (by norm_num [sampleState])).mpr (.inl (by norm_num [sampleState]))

/-- **The wrong length of the 2nd stage.** The frequency is 500 ppm, which is above the maximum. It
is kept for 2400 seconds and changed to zero in 5000 seconds, which removes 2.45 seconds instead of
2.35. -/
theorem updateStages_leaves_offset :
    let s := updateStages (sampleState (5 / 10 ^ 4) (235 / 100))
    s.stages = [⟨1 / 10 ^ 7, 0⟩, ⟨0, 2400⟩, ⟨-1 / 10 ^ 7, 5000⟩] ∧
      (getSmoothing s 7400).offset = -1 / 10 ∧ ¬ Smooths s := by
  intro s
  have hl3 : (unlimitedLengths (sampleState (5 / 10 ^ 4) (235 / 100)) 1).l3 = 6000 := by
    rw [l3_eq, square]
    norm_num [sampleState]
  have hl1 : (unlimitedLengths (sampleState (5 / 10 ^ 4) (235 / 100)) 1).l1 = 1000 := by
    rw [l1_eq, hl3]
    norm_num [sampleState]
  have herr : (unlimitedLengths (sampleState (5 / 10 ^ 4) (235 / 100)) 1).err = 0 := by
    rw [err_eq, hl3, square]
    norm_num [sampleState]
  have hdirection : direction (sampleState (5 / 10 ^ 4) (235 / 100)) = 1 := by
    rw [direction, herr, if_neg (not_lt.mpr (err_spec _ _).1)]
  have hstages : s.stages = [⟨1 / 10 ^ 7, 0⟩, ⟨0, 2400⟩, ⟨-1 / 10 ^ 7, 5000⟩] := by
    change (updateStages _).stages = _
    rw [updateStages, hdirection, hl1, hl3]
    norm_num [limitStages, makeStages, sampleState]
  have hoffset : (getSmoothing s 7400).offset = -1 / 10 := by
    rw [getSmoothing, hstages]
    norm_num [s, getStages, updateStages, sampleState]
  refine ⟨hstages, hoffset, fun hsmooths => ?_⟩
  have hzero := (hsmooths.removed 7400 (by
    rw [hstages]
    norm_num [s, Ramps.total, updateStages, sampleState])).1
  rw [hoffset] at hzero
  norm_num at hzero

/-- **A sequence of updates of the offset.** The frequency does not get above the maximum, so the
time is smoothed after each of them. -/
theorem updateSmoothing_offset_smooths {s : State} (hF : 0 < s.maxFreq) (hW : 0 < s.maxWander)
    (hlocked : s.locked = false) (h : Smooths s) (hfreq : |s.smoothFreq| ≤ s.maxFreq)
    (skew now offset : ℝ) :
    Smooths (updateSmoothing s skew now offset 0) ∧
      |(updateSmoothing s skew now offset 0).smoothFreq| ≤ s.maxFreq := by
  have hnow : |((getSmoothing s now).freq - 0) / (1 - 0)| ≤ s.maxFreq := by
    rw [sub_zero, sub_zero, div_one]
    exact (h.bounded now).trans (max_le le_rfl hfreq)
  set s' : State := { s with
    smoothOffset := (getSmoothing s now).offset + offset
    smoothFreq := ((getSmoothing s now).freq - 0) / (1 - 0)
    lastUpdate := now }
  have hupdate : updateSmoothing s skew now offset 0 = updateStages s' := by
    rw [updateSmoothing, if_neg (by rw [hlocked]; decide)]
  have hF' : 0 < s'.maxFreq := hF
  have hW' : 0 < s'.maxWander := hW
  rw [hupdate]
  refine ⟨(updateStages_smooths_iff_excess hF' hW').mpr ?_, hnow⟩
  exact (excess_eq_zero_iff hF' hW' (direction_solves s' hW')).mpr (.inl hnow)

end Chrony.Smooth
