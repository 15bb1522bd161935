import Mathlib

/-!
# Measurements of the Offset of a Clock

Two clocks are compared by messages in both directions: one leaves the local side at `t₁` and
arrives at the remote side at `t₂`, the other one leaves the remote side at `t₃` and arrives at
the local side at `t₄`. Nothing is known about the delays of the messages but that they are not
negative, and the two messages can be in any order.

The local clock shows `c₁` and `c₄` at the times of its side. The readings `T₁` to `T₄` have
errors.

## Main results

* `offset_error_le`: the measured offset is wrong by at most half of the measured delay, and the
  errors of the readings.
-/

namespace Chrony.Lib.Exchange

variable {K : Type*} [Field K] [LinearOrder K] [IsStrictOrderedRing K]

/-- The halves of a sum and of a difference are not greater than the greater number together. -/
theorem half_add_half_le (a b : K) : |b - a| / 2 + |a + b| / 2 ≤ max |a| |b| := by
  rcases abs_cases (b - a) with ⟨h, -⟩ | ⟨h, -⟩ <;> rcases abs_cases (a + b) with ⟨h', -⟩ | ⟨h', -⟩
  · rw [h, h']
    have := (le_abs_self b).trans (le_max_right |a| |b|)
    linarith
  · rw [h, h']
    have := (neg_le_abs a).trans (le_max_left |a| |b|)
    linarith
  · rw [h, h']
    have := (le_abs_self a).trans (le_max_left |a| |b|)
    linarith
  · rw [h, h']
    have := (neg_le_abs b).trans (le_max_right |a| |b|)
    linarith

/-- **The error of a measured offset.** The parts `x` and `y` of the two delays are known. The
error of the local clock in the middle of the measurement is compared. -/
theorem offset_error_le {t₁ t₂ t₃ t₄ T₁ T₂ T₃ T₄ x y delay : K} (c₁ c₄ : K) (hx : x ≤ t₂ - t₁)
    (hy : y ≤ t₄ - t₃) (hdelay : |(T₄ - T₁) - (T₃ - T₂)| ≤ delay) :
    |-((T₂ + T₃) / 2 - (T₁ + T₄) / 2 + (y - x) / 2) - ((c₁ - t₁) + (c₄ - t₄)) / 2| ≤
      delay / 2 - (x + y) / 2 + max |T₁ - c₁| |T₄ - c₄| + max |T₂ - t₂| |T₃ - t₃| +
        |(c₄ - t₄) - (c₁ - t₁)| / 2 := by
  have hlocal := half_add_half_le (T₁ - c₁) (T₄ - c₄)
  have hremote := half_add_half_le (T₂ - t₂) (T₃ - t₃)
  have hmeasured := (le_abs_self _).trans hdelay
  have hd := neg_abs_le (c₄ - t₄ - (c₁ - t₁))
  have hl := neg_abs_le (T₄ - c₄ - (T₁ - c₁))
  have hr := le_abs_self (T₃ - t₃ - (T₂ - t₂))
  obtain ⟨hl₁, hl₂⟩ := abs_le.mp (le_refl |T₁ - c₁ + (T₄ - c₄)|)
  obtain ⟨hr₁, hr₂⟩ := abs_le.mp (le_refl |T₂ - t₂ + (T₃ - t₃)|)
  rw [abs_le]
  constructor
  · linarith
  · linarith

end Chrony.Lib.Exchange
