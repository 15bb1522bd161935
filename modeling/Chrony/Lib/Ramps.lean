import Mathlib.Algebra.Order.BigOperators.Group.List
import Mathlib.Algebra.Order.Field.Basic
import Mathlib.Tactic.Linarith
import Mathlib.Tactic.Ring

/-!
# Ramps

A piecewise linear function of time, which starts with a value and changes with a constant
slope in each of its pieces. After the last piece it is constant. The function is given by the
list of its pieces, and the time since the start is used up piece by piece.

## Main results

* `abs_value_sub_le`: the function changes at most at the rate of the steepest piece.
* `value_mem_Icc`: it stays between bounds which hold at the ends of the pieces.
* `value_of_total_le`, `area_of_total_le`: the value and the integral after the last piece.
-/

namespace Chrony.Lib

/-- A piece of a piecewise linear function. -/
structure Ramp (K : Type*) where
  slope : K
  length : K

variable {K : Type*} [Field K] [LinearOrder K] [IsStrictOrderedRing K]

namespace Ramp

/-- The time spent in a piece, which starts at zero. -/
def spent (r : Ramp K) (t : K) : K := max 0 (min r.length t)

/-- The change of the value in a piece. -/
def rise (r : Ramp K) : K := r.slope * r.length

/-- The integral over a piece which starts with the value. -/
def areaFrom (r : Ramp K) (v t : K) : K := t * (v + (v + r.slope * t)) * 0.5

end Ramp

namespace Ramps

/-- The value of the function, from its value at the start. -/
def value : List (Ramp K) → K → K → K
  | [], _, v => v
  | r :: l, t, v => value l (t - r.spent t) (v + r.slope * r.spent t)

/-- The integral of the function from the start. -/
def area : List (Ramp K) → K → K → K
  | [], t, v => max 0 t * v
  | r :: l, t, v =>
      r.areaFrom v (r.spent t) + area l (t - r.spent t) (v + r.slope * r.spent t)

/-- The length of all pieces. -/
def total (l : List (Ramp K)) : K := (l.map Ramp.length).sum

/-- The value after the last piece. -/
def endValue (l : List (Ramp K)) (v : K) : K := v + (l.map Ramp.rise).sum

/-- The integral over all pieces. -/
def endArea : List (Ramp K) → K → K
  | [], _ => 0
  | r :: l, v => r.areaFrom v r.length + endArea l (v + r.rise)

/-- No piece has a negative length. -/
def Nonneg (l : List (Ramp K)) : Prop := ∀ r ∈ l, 0 ≤ r.length

variable {l : List (Ramp K)} {r : Ramp K} {t t' v v' : K}

omit [IsStrictOrderedRing K] in
theorem spent_of_nonpos (h : t ≤ 0) : r.spent t = 0 :=
  max_eq_left ((min_le_right _ _).trans h)

omit [IsStrictOrderedRing K] in
theorem spent_of_le (h : 0 ≤ r.length) (ht : r.length ≤ t) : r.spent t = r.length := by
  rw [Ramp.spent, min_eq_left ht, max_eq_right h]

omit [IsStrictOrderedRing K] in
theorem spent_of_lt (h : 0 ≤ t) (ht : t ≤ r.length) : r.spent t = t := by
  rw [Ramp.spent, min_eq_right ht, max_eq_right h]

omit [IsStrictOrderedRing K] in
/-- Before the start the function is constant. -/
theorem value_of_nonpos (h : t ≤ 0) : value l t v = v := by
  induction l with
  | nil => rfl
  | cons r l ih => rw [value, spent_of_nonpos h, mul_zero, add_zero, sub_zero, ih]

theorem area_of_nonpos (h : t ≤ 0) : area l t v = 0 := by
  induction l with
  | nil => rw [area, max_eq_left h, zero_mul]
  | cons r l ih =>
      rw [area, spent_of_nonpos h, mul_zero, add_zero, sub_zero, ih, Ramp.areaFrom]
      ring

/-- **The value after the last piece.** -/
theorem value_of_total_le (hl : Nonneg l) (h : total l ≤ t) : value l t v = endValue l v := by
  induction l generalizing t v with
  | nil => rw [value, endValue, List.map_nil, List.sum_nil, add_zero]
  | cons r l ih =>
      obtain ⟨hr, hl⟩ := List.forall_mem_cons.mp hl
      have hrest : 0 ≤ total l := List.sum_nonneg (List.forall_mem_map.mpr hl)
      rw [total, List.map_cons, List.sum_cons] at h
      change r.length + total l ≤ t at h
      rw [value, spent_of_le hr (by linarith), ih hl (by linarith), endValue, endValue,
        List.map_cons, List.sum_cons, Ramp.rise, add_assoc]

/-- **The integral after the last piece.** -/
theorem area_of_total_le (hl : Nonneg l) (h : total l ≤ t) :
    area l t v = endArea l v + (t - total l) * endValue l v := by
  induction l generalizing t v with
  | nil =>
      have hzero : total ([] : List (Ramp K)) = 0 := rfl
      rw [hzero] at h ⊢
      rw [area, endArea, endValue, max_eq_right h, List.map_nil, List.sum_nil]
      ring
  | cons r l ih =>
      obtain ⟨hr, hl⟩ := List.forall_mem_cons.mp hl
      have hrest : 0 ≤ total l := List.sum_nonneg (List.forall_mem_map.mpr hl)
      have htotal : total (r :: l) = r.length + total l := rfl
      have hend : endValue (r :: l) v = endValue l (v + r.rise) := by
        rw [endValue, endValue, List.map_cons, List.sum_cons, add_assoc]
      rw [htotal] at h ⊢
      rw [area, spent_of_le hr (by linarith), ih hl (by linarith), endArea, hend, Ramp.rise]
      ring

/-- The time is spent in a piece or after it. -/
theorem abs_spent_sub_add (r : Ramp K) (t t' : K) :
    |r.spent t - r.spent t'| + |t - r.spent t - (t' - r.spent t')| = |t - t'| := by
  wlog hle : t' ≤ t generalizing t t'
  · rw [abs_sub_comm, abs_sub_comm (t - _), abs_sub_comm t]
    exact this t' t (le_of_not_ge hle)
  have hmono : r.spent t' ≤ r.spent t := max_le_max_left 0 (min_le_min_left _ hle)
  have hrest : r.spent t - r.spent t' ≤ t - t' := by
    have hpos : 0 ≤ r.spent t' := le_max_left _ _
    have hmin : min r.length t' ≤ r.spent t' := le_max_right _ _
    have hspent : r.spent t ≤ r.spent t' + (t - t') := by
      refine max_le (by linarith) ?_
      rcases min_choice r.length t' with heq | heq
      · exact (min_le_left _ _).trans (by linarith)
      · exact (min_le_right _ _).trans (by linarith)
    linarith
  rw [abs_of_nonneg (sub_nonneg.mpr hmono), abs_of_nonneg (by linarith),
    abs_of_nonneg (sub_nonneg.mpr hle)]
  ring

/-- **The function changes at most at the rate of the steepest piece.** -/
theorem abs_value_sub_le {w : K} (hw : 0 ≤ w) (hl : ∀ r ∈ l, |r.slope| ≤ w) :
    |value l t v - value l t' v'| ≤ |v - v'| + w * |t - t'| := by
  induction l generalizing t t' v v' with
  | nil =>
      rw [value, value]
      have hpos : 0 ≤ w * |t - t'| := mul_nonneg hw (abs_nonneg _)
      linarith
  | cons r l ih =>
      obtain ⟨hr, hl⟩ := List.forall_mem_cons.mp hl
      have hstart : |v + r.slope * r.spent t - (v' + r.slope * r.spent t')| ≤
          |v - v'| + w * |r.spent t - r.spent t'| := by
        calc |v + r.slope * r.spent t - (v' + r.slope * r.spent t')|
            = |(v - v') + r.slope * (r.spent t - r.spent t')| := by ring_nf
          _ ≤ |v - v'| + |r.slope * (r.spent t - r.spent t')| := abs_add_le _ _
          _ ≤ |v - v'| + w * |r.spent t - r.spent t'| := by
              rw [abs_mul]
              have := mul_le_mul_of_nonneg_right hr (abs_nonneg (r.spent t - r.spent t'))
              linarith
      calc |value (r :: l) t v - value (r :: l) t' v'|
          ≤ |v + r.slope * r.spent t - (v' + r.slope * r.spent t')| +
              w * |t - r.spent t - (t' - r.spent t')| := ih hl
        _ ≤ |v - v'| + w * (|r.spent t - r.spent t'| + |t - r.spent t - (t' - r.spent t')|) := by
              rw [mul_add]
              linarith
        _ = |v - v'| + w * |t - t'| := by rw [abs_spent_sub_add]

/-- **The function stays between bounds** which hold at the start and at the ends of the
pieces. -/
theorem value_mem_Icc {a b : K} (hl : Nonneg l)
    (hends : ∀ l₁ l₂, l = l₁ ++ l₂ → endValue l₁ v ∈ Set.Icc a b) : value l t v ∈ Set.Icc a b := by
  induction l generalizing t v with
  | nil => simpa [value, endValue] using hends [] [] rfl
  | cons r l ih =>
      obtain ⟨hr, hl⟩ := List.forall_mem_cons.mp hl
      have hstart : v ∈ Set.Icc a b := by simpa [endValue] using hends [] (r :: l) rfl
      have hend : v + r.slope * r.length ∈ Set.Icc a b := by
        simpa [endValue, Ramp.rise] using hends [r] l rfl
      rw [value]
      rcases le_total r.length t with hlen | hlen
      · rw [spent_of_le hr hlen]
        refine ih hl fun l₁ l₂ heq => ?_
        have hpre := hends (r :: l₁) l₂ (by rw [heq, List.cons_append])
        rwa [endValue, List.map_cons, List.sum_cons, ← add_assoc] at hpre
      · -- the function has not reached the end of the piece
        have hnonpos : t - r.spent t ≤ 0 := by
          rw [Ramp.spent, min_eq_right hlen]
          linarith [le_max_right 0 t]
        rw [value_of_nonpos hnonpos]
        have hpos : 0 ≤ r.spent t := le_max_left _ _
        have hle : r.spent t ≤ r.length := max_le hr (min_le_left _ _)
        obtain ⟨hva, hvb⟩ := hstart
        obtain ⟨hea, heb⟩ := hend
        rcases le_total 0 r.slope with hs | hs
        · have h₁ := mul_nonneg hs hpos
          have h₂ := mul_le_mul_of_nonneg_left hle hs
          exact ⟨by linarith, by linarith⟩
        · have h₁ := mul_nonneg_of_nonpos_of_nonpos hs (neg_nonpos.mpr hpos)
          have h₂ := mul_le_mul_of_nonpos_left hle hs
          exact ⟨by linarith, by linarith⟩

end Ramps

end Chrony.Lib
