import Mathlib.Algebra.Order.Group.MinMax
import Mathlib.Data.Int.Log
import Mathlib.Data.Rat.Floor
import Mathlib.Tactic.IntervalCases
import Mathlib.Tactic.Linarith
import Mathlib.Tactic.NormNum
import Mathlib.Tactic.Positivity
import Mathlib.Tactic.Ring
import Chrony.Timespec

/-!
# Floating-Point Numbers of the Command Protocol

The 32-bit format of `candm.h`, with a signed exponent of 7 bits and a signed coefficient of 25
bits without a hidden bit, and its conversions in `util.c`. The words are in host order, and a
`double` is an exact rational number.

## Main results

* `abs_toHost_ofHost_sub_le`: how close the converted number is, and where it is limited.
* `toHost_ofHost_toHost`: a number of the format is converted without an error.
-/

namespace Chrony.NetworkFloat

/-- `FLOAT_EXP_BITS`. -/
def expBits : ℕ := 7

/-- `FLOAT_EXP_MIN`. -/
def expMin : ℤ := -2 ^ (expBits - 1)

/-- `FLOAT_EXP_MAX`. -/
def expMax : ℤ := -expMin - 1

/-- `FLOAT_COEF_BITS`. -/
def coefBits : ℕ := 32 - expBits

/-- `FLOAT_COEF_MAX`. -/
def coefMax : ℕ := 2 ^ (coefBits - 1) - 1

/-- `UTI_FloatNetworkToHost`. -/
def toHost (f : BitVec 32) : ℚ :=
  let exp : ℤ := (f >>> coefBits).toNat
  let exp := if exp ≥ 2 ^ (expBits - 1) then exp - 2 ^ expBits else exp
  let coef : ℤ := f.toNat % 2 ^ coefBits
  let coef := if coef ≥ 2 ^ (coefBits - 1) then coef - 2 ^ coefBits else coef
  coef * 2 ^ (exp - coefBits)

/-- `log(x) / log(2) + 1` as an integer. The conversion truncates to zero. -/
def logExp (x : ℚ) : ℤ :=
  if 1 / 2 ≤ x then Int.log 2 x + 1 else Int.clog 2 x + 1

/-- The loop which shifts the coefficient down. -/
def shiftDown (limit coef : ℕ) (exp : ℤ) : ℕ × ℤ :=
  if limit < coef then shiftDown limit (coef / 2) (exp + 1) else (coef, exp)
termination_by coef

/-- The handling of an overflow and an underflow of the exponent. -/
def limitExp (limit coef : ℕ) (exp : ℤ) : ℕ × ℤ :=
  if exp > expMax then (limit, expMax)
  else if exp < expMin then
    if exp + coefBits ≥ expMin then (coef >>> (expMin - exp).toNat, expMin) else (0, 0)
  else (coef, exp)

/-- The first coefficient. -/
def roundCoef (x : ℚ) (exp : ℤ) : ℕ := (Timespec.trunc (x * 2 ^ (-exp + coefBits) + 0.5)).toNat

/-- The coefficient and the exponent for a number which is not negative. `neg` is 1 when the
sign was removed. -/
def split (x : ℚ) (neg : ℕ) : ℕ × ℤ :=
  if x < 1 / 10 ^ 100 then (0, 0)
  else if x > 10 ^ 100 then (coefMax + neg, expMax)
  else
    let r := shiftDown (coefMax + neg) (roundCoef x (logExp x)) (logExp x)
    limitExp (coefMax + neg) r.1 r.2

/-- The word with a coefficient and an exponent. -/
def pack (neg : Bool) (coef : ℕ) (exp : ℤ) : BitVec 32 :=
  let coef := BitVec.ofNat 32 coef
  let coef := if neg then (-coef) <<< expBits >>> expBits else coef
  BitVec.ofInt 32 exp <<< coefBits ||| coef

/-- `UTI_FloatHostToNetwork`. -/
def ofHost (x : ℚ) : BitVec 32 :=
  if x < 0 then
    let r := split (-x) 1
    pack true r.1 r.2
  else
    let r := split x 0
    pack false r.1 r.2

/-- The value of a coefficient with an exponent. -/
def value (coef : ℚ) (exp : ℤ) : ℚ := coef * 2 ^ (exp - 25)

theorem value_add (coef : ℚ) (exp : ℤ) (n : ℕ) :
    value coef (exp + n) = value (coef * 2 ^ n) exp := by
  rw [value, value, show exp + n - 25 = n + (exp - 25) by ring, zpow_add₀ two_ne_zero,
    zpow_natCast]
  ring

theorem value_le_value {coef coef' : ℚ} {exp exp' : ℤ} (hpos : 0 ≤ coef) (hcoef : coef ≤ coef')
    (hexp : exp ≤ exp') : value coef exp ≤ value coef' exp' :=
  mul_le_mul hcoef (zpow_le_zpow_right₀ one_le_two (Int.sub_le_sub_right hexp 25))
    (zpow_pos two_pos _).le (hpos.trans hcoef)

/-! ### The fields of the word -/

theorem toNat_pack {neg : Bool} {coef : ℕ} (exp : ℤ) (hcoef : coef < 2 ^ 25) :
    (pack neg coef exp).toNat =
      2 ^ 25 * (exp % 128).toNat + if neg ∧ coef ≠ 0 then 2 ^ 25 - coef else coef := by
  have hexp : (BitVec.ofInt 32 exp <<< 25).toNat = 2 ^ 25 * (exp % 128).toNat := by
    rw [BitVec.toNat_shiftLeft, BitVec.toNat_ofInt, Nat.shiftLeft_eq]
    omega
  have hlow : (if neg then (-BitVec.ofNat 32 coef) <<< 7 >>> 7 else BitVec.ofNat 32 coef).toNat =
      if neg ∧ coef ≠ 0 then 2 ^ 25 - coef else coef := by
    cases neg with
    | false =>
        rw [if_neg Bool.false_ne_true, if_neg (fun h => Bool.false_ne_true h.1),
          BitVec.toNat_ofNat]
        omega
    | true =>
        rw [if_pos rfl, BitVec.toNat_ushiftRight, BitVec.toNat_shiftLeft, BitVec.toNat_neg,
          BitVec.toNat_ofNat, Nat.shiftLeft_eq, Nat.shiftRight_eq_div_pow,
          Nat.mod_eq_of_lt (show coef < 2 ^ 32 by omega)]
        by_cases hzero : coef = 0
        · rw [if_neg (fun h => h.2 hzero), hzero]
        · rw [if_pos ⟨rfl, hzero⟩]
          omega
  have hlt : (if neg ∧ coef ≠ 0 then 2 ^ 25 - coef else coef) < 2 ^ 25 := by
    split <;> omega
  change (BitVec.ofInt 32 exp <<< 25 ||| if neg then (-BitVec.ofNat 32 coef) <<< 7 >>> 7
    else BitVec.ofNat 32 coef).toNat = _
  rw [BitVec.toNat_or, hexp, hlow, Nat.two_pow_add_eq_or_of_lt hlt]

/-- The value of a word from its two fields. -/
theorem toHost_eq {f : BitVec 32} {e c : ℕ} (hf : f.toNat = 2 ^ 25 * e + c) (hc : c < 2 ^ 25) :
    toHost f = value ((if (c : ℤ) ≥ 2 ^ 24 then (c : ℤ) - 2 ^ 25 else c : ℤ) : ℚ)
      (if (e : ℤ) ≥ 64 then (e : ℤ) - 128 else e) := by
  have he : ((f >>> 25).toNat : ℤ) = e := by
    rw [BitVec.toNat_ushiftRight, Nat.shiftRight_eq_div_pow, hf]
    omega
  have hmod : (f.toNat : ℤ) % 2 ^ 25 = c := by
    rw [hf]
    omega
  change (((if (f.toNat : ℤ) % 2 ^ 25 ≥ 2 ^ 24 then (f.toNat : ℤ) % 2 ^ 25 - 2 ^ 25
    else (f.toNat : ℤ) % 2 ^ 25 : ℤ) : ℚ)) * (2 : ℚ) ^ ((if ((f >>> 25).toNat : ℤ) ≥ 64
    then ((f >>> 25).toNat : ℤ) - 128 else ((f >>> 25).toNat : ℤ)) - 25) = _
  rw [he, hmod, value]

/-- **The value of a packed word.** The coefficient is limited by the number of its bits. -/
theorem toHost_pack {neg : Bool} {coef : ℕ} {exp : ℤ} (hcoef : coef ≤ coefMax + neg.toNat)
    (hmin : expMin ≤ exp) (hmax : exp ≤ expMax) :
    toHost (pack neg coef exp) = value (if neg then -(coef : ℚ) else coef) exp := by
  change exp ≤ 63 at hmax
  change -64 ≤ exp at hmin
  change coef ≤ 2 ^ 24 - 1 + neg.toNat at hcoef
  have hneg := Bool.toNat_le neg
  have hlt : (if neg ∧ coef ≠ 0 then 2 ^ 25 - coef else coef) < 2 ^ 25 := by
    split <;> omega
  rw [toHost_eq (toNat_pack exp (by omega)) hlt]
  congr 1
  · cases neg with
    | false =>
        rw [Bool.toNat_false] at hcoef
        rw [if_neg (show ¬(false = true ∧ coef ≠ 0) by simp), if_neg (by omega),
          if_neg Bool.false_ne_true, Int.cast_natCast]
    | true =>
        rw [Bool.toNat_true] at hcoef
        rw [if_pos rfl]
        by_cases hzero : coef = 0
        · rw [hzero]
          norm_num
        · have hsub : (if true = true ∧ coef ≠ 0 then 2 ^ 25 - coef else coef) = 2 ^ 25 - coef :=
            if_pos ⟨rfl, hzero⟩
          have hvalue : ((2 ^ 25 - coef : ℕ) : ℤ) - 2 ^ 25 = -coef := by omega
          rw [hsub, if_pos (by omega), hvalue, Int.cast_neg, Int.cast_natCast]
  · split <;> omega

/-! ### The coefficient -/

theorem logExp_bounds {x : ℚ} (hx : 0 < x) : 2 ^ (logExp x - 2) < x ∧ x < 2 ^ logExp x := by
  rw [logExp]
  split
  · have hle : (2 : ℚ) ^ Int.log 2 x ≤ x := Int.zpow_log_le_self one_lt_two hx
    have hlt : x < (2 : ℚ) ^ (Int.log 2 x + 1) := Int.lt_zpow_succ_log_self one_lt_two x
    refine ⟨lt_of_lt_of_le (zpow_lt_zpow_right₀ one_lt_two (by omega)) hle, hlt⟩
  · have hle : x ≤ (2 : ℚ) ^ Int.clog 2 x := Int.self_le_zpow_clog one_lt_two x
    have hlt : (2 : ℚ) ^ (Int.clog 2 x - 1) < x := Int.zpow_pred_clog_lt_self one_lt_two hx
    refine ⟨?_, lt_of_le_of_lt hle (zpow_lt_zpow_right₀ one_lt_two (by omega))⟩
    rwa [show Int.clog 2 x + 1 - 2 = Int.clog 2 x - 1 by ring]

/-- The number in units of the coefficient. -/
def scaled (x : ℚ) : ℚ := x * 2 ^ (-logExp x + 25)

theorem value_scaled (x : ℚ) : value (scaled x) (logExp x) = x := by
  rw [value, scaled, mul_assoc, ← zpow_add₀ two_ne_zero,
    show -logExp x + 25 + (logExp x - 25) = 0 by ring, zpow_zero, mul_one]

theorem scaled_bounds {x : ℚ} (hx : 0 < x) : 2 ^ 23 < scaled x ∧ scaled x < 2 ^ 25 := by
  obtain ⟨hlow, hhigh⟩ := logExp_bounds hx
  have hpos : (0 : ℚ) < 2 ^ (-logExp x + 25) := zpow_pos two_pos _
  constructor
  · have heq : (2 : ℚ) ^ 23 = 2 ^ (logExp x - 2) * 2 ^ (-logExp x + 25) := by
      rw [← zpow_add₀ two_ne_zero, show logExp x - 2 + (-logExp x + 25) = 23 by ring]
      rfl
    rw [heq]
    exact mul_lt_mul_of_pos_right hlow hpos
  · have heq : (2 : ℚ) ^ 25 = 2 ^ logExp x * 2 ^ (-logExp x + 25) := by
      rw [← zpow_add₀ two_ne_zero, show logExp x + (-logExp x + 25) = 25 by ring]
      rfl
    rw [heq]
    exact mul_lt_mul_of_pos_right hhigh hpos

theorem roundCoef_eq {x : ℚ} (hx : 0 < x) :
    roundCoef x (logExp x) = ⌊scaled x + 1 / 2⌋.toNat := by
  have hpos : ¬scaled x + 1 / 2 < 0 := by linarith [(scaled_bounds hx).1]
  have heq : x * 2 ^ (-logExp x + (coefBits : ℤ)) + 0.5 = scaled x + 1 / 2 := by
    rw [scaled, show ((coefBits : ℕ) : ℤ) = 25 from rfl]
    norm_num
  rw [roundCoef, heq, Timespec.trunc, if_neg hpos]

/-- **The first coefficient.** It is not zero, as `UTI_FloatHostToNetwork` asserts. -/
theorem roundCoef_bounds {x : ℚ} (hx : 0 < x) :
    2 ^ 23 ≤ roundCoef x (logExp x) ∧ roundCoef x (logExp x) ≤ 2 ^ 25 ∧
      |(roundCoef x (logExp x) : ℚ) - scaled x| ≤ 1 / 2 := by
  obtain ⟨hlow, hhigh⟩ := scaled_bounds hx
  rw [roundCoef_eq hx]
  have hfloor : (2 : ℤ) ^ 23 ≤ ⌊scaled x + 1 / 2⌋ := by
    rw [Int.le_floor]
    push_cast
    linarith
  have hceil : ⌊scaled x + 1 / 2⌋ < 2 ^ 25 + 1 := by
    rw [Int.floor_lt]
    push_cast
    linarith
  have hcast : ((⌊scaled x + 1 / 2⌋.toNat : ℕ) : ℚ) = ⌊scaled x + 1 / 2⌋ := by
    rw [← Int.cast_natCast, Int.toNat_of_nonneg (by omega)]
  refine ⟨by omega, by omega, ?_⟩
  rw [hcast, abs_sub_le_iff]
  have hle := Int.floor_le (scaled x + 1 / 2)
  have hlt := Int.lt_floor_add_one (scaled x + 1 / 2)
  constructor <;> linarith

/-- **The loop**: it stops at the first coefficient which is not above the limit. -/
theorem shiftDown_spec (limit coef : ℕ) (exp : ℤ) :
    ∃ k : ℕ, shiftDown limit coef exp = (coef / 2 ^ k, exp + k) ∧ coef / 2 ^ k ≤ limit ∧
      ∀ i < k, limit < coef / 2 ^ i := by
  induction coef, exp using shiftDown.induct limit with
  | case1 coef exp hlt ih =>
      obtain ⟨k, heq, hle, hbefore⟩ := ih
      have hdiv : ∀ i, coef / 2 / 2 ^ i = coef / 2 ^ (i + 1) := fun i => by
        rw [Nat.div_div_eq_div_mul, pow_succ']
      refine ⟨k + 1, ?_, hdiv k ▸ hle, fun i hi => ?_⟩
      · rw [shiftDown, if_pos hlt, heq, hdiv]
        push_cast
        rw [add_assoc, add_comm (1 : ℤ)]
      · cases i with
        | zero => simpa using hlt
        | succ i => exact hdiv i ▸ hbefore i (by omega)
  | case2 coef exp hle =>
      refine ⟨0, ?_, by simpa using hle, fun i hi => absurd hi (Nat.not_lt_zero i)⟩
      rw [shiftDown, if_neg hle]
      simp

/-- **The error of the shifted coefficient** is less than the last of its bits. -/
theorem shifted_spec {limit : ℕ} (hlow : 2 ^ 24 - 1 ≤ limit) {x : ℚ} (hx : 0 < x) :
    let r := shiftDown limit (roundCoef x (logExp x)) (logExp x)
    2 ^ 23 ≤ r.1 ∧ r.1 ≤ limit ∧ |value r.1 r.2 - x| ≤ x / 2 ^ 23 := by
  obtain ⟨hcoef, hcoef', herror⟩ := roundCoef_bounds hx
  obtain ⟨hscaled, hscaled'⟩ := scaled_bounds hx
  obtain ⟨k, heq, hle, hbefore⟩ := shiftDown_spec limit (roundCoef x (logExp x)) (logExp x)
  generalize roundCoef x (logExp x) = c at *
  rw [heq]
  -- the coefficient is shifted by two bits only when it is the largest one
  have hk : k = 0 ∨ k = 1 ∧ limit < c ∨ k = 2 ∧ c = 2 ^ 25 := by
    have hlast : ∀ i < k, 2 ^ 24 ≤ c / 2 ^ i := fun i hi => by
      have := hbefore i hi
      omega
    rcases k with _ | _ | _ | k
    · exact .inl rfl
    · exact .inr (.inl ⟨rfl, by simpa using hbefore 0 one_pos⟩)
    · have := hlast 1 (by omega)
      exact .inr (.inr ⟨rfl, by omega⟩)
    · have := hlast 2 (by omega)
      omega
  have hunits : |(c / 2 ^ k : ℕ) * 2 ^ k - scaled x| ≤ scaled x / 2 ^ 23 ∧ 2 ^ 23 ≤ c / 2 ^ k := by
    obtain ⟨hmin, hmax⟩ := abs_sub_le_iff.mp herror
    rcases hk with rfl | ⟨rfl, hlimit⟩ | ⟨rfl, rfl⟩
    · refine ⟨?_, by simpa using hcoef⟩
      simp only [pow_zero, Nat.div_one, mul_one]
      refine herror.trans ?_
      rw [le_div_iff₀ (by norm_num)]
      linarith
    · have hbit : ((c / 2 ^ 1 : ℕ) : ℚ) * 2 ^ 1 ≤ c ∧ (c : ℚ) ≤ (c / 2 ^ 1 : ℕ) * 2 ^ 1 + 1 := by
        constructor <;> norm_cast <;> omega
      have hlarge : (2 : ℚ) ^ 24 ≤ c := by
        exact_mod_cast (show 2 ^ 24 ≤ c by omega)
      refine ⟨?_, by omega⟩
      rw [abs_sub_le_iff, le_div_iff₀ (by norm_num), le_div_iff₀ (by norm_num)]
      constructor <;> linarith
    · refine ⟨?_, by norm_num⟩
      rw [le_div_iff₀ (by norm_num)]
      norm_num at hmin hscaled' ⊢
      rw [abs_of_nonneg (by linarith)]
      linarith
  refine ⟨hunits.2, hle, ?_⟩
  have hvalue : value (c / 2 ^ k : ℕ) (logExp x + k) - x =
      ((c / 2 ^ k : ℕ) * 2 ^ k - scaled x) * 2 ^ (logExp x - 25) := by
    rw [value_add, value, sub_mul]
    exact congrArg _ (value_scaled x).symm
  have hright : x / 2 ^ 23 = scaled x / 2 ^ 23 * 2 ^ (logExp x - 25) := by
    rw [div_mul_eq_mul_div]
    exact congrArg (· / _) (value_scaled x).symm
  have hpos : (0 : ℚ) < 2 ^ (logExp x - 25) := zpow_pos two_pos _
  rw [hvalue, hright, abs_mul, abs_of_pos hpos]
  exact mul_le_mul_of_nonneg_right hunits.1 hpos.le

/-! ### The limits of the exponent -/

/-- The largest number with the sign. -/
def largest (neg : ℕ) : ℚ := value ((coefMax + neg : ℕ) : ℚ) expMax

theorem largest_bounds {neg : ℕ} (hneg : neg ≤ 1) :
    (2 : ℚ) ^ 61 ≤ largest neg ∧ largest neg ≤ 2 ^ 62 := by
  have hvalue : largest neg = ((2 ^ 24 - 1 + neg : ℕ) : ℚ) * 2 ^ (38 : ℕ) := rfl
  rw [hvalue]
  interval_cases neg <;> norm_num

/-- A coefficient and an exponent which fit in the word. -/
structure Fits (neg : ℕ) (r : ℕ × ℤ) : Prop where
  coef : r.1 ≤ coefMax + neg
  min : expMin ≤ r.2
  max : r.2 ≤ expMax

theorem limitExp_fits {neg coef : ℕ} (hcoef : coef ≤ coefMax + neg) (exp : ℤ) :
    Fits neg (limitExp (coefMax + neg) coef exp) := by
  rw [limitExp]
  split
  · exact ⟨le_rfl, show expMin ≤ expMax by decide, le_rfl⟩
  next hmax =>
      split
      · split
        · refine ⟨?_, le_rfl, show expMin ≤ expMax by decide⟩
          rw [Nat.shiftRight_eq_div_pow]
          exact (Nat.div_le_self _ _).trans hcoef
        · exact ⟨Nat.zero_le _, by decide, by decide⟩
      next hmin => exact ⟨hcoef, not_lt.mp hmin, not_lt.mp hmax⟩

/-- **The error with the limits**: one unit of the smallest exponent more. -/
theorem limitExp_error {neg coef : ℕ} (hneg : neg ≤ 1) {exp : ℤ} {x : ℚ} (hx : 0 < x)
    (hlow : 2 ^ 23 ≤ coef) (hcoef : coef ≤ coefMax + neg)
    (herror : |value coef exp - x| ≤ x / 2 ^ 23) :
    let r := limitExp (coefMax + neg) coef exp
    |value r.1 r.2 - min x (largest neg)| ≤ min x (largest neg) / 2 ^ 23 + 1 / 2 ^ 89 := by
  obtain ⟨hmin, hmax⟩ := abs_sub_le_iff.mp herror
  obtain ⟨hlarge, hlarge'⟩ := largest_bounds hneg
  have hcoef' : (coef : ℚ) ≤ ((coefMax + neg : ℕ) : ℚ) := by exact_mod_cast hcoef
  have hcoef24 : (coef : ℚ) ≤ 2 ^ 24 := hcoef'.trans (by
    rw [show coefMax = 2 ^ 24 - 1 from rfl]
    interval_cases neg <;> norm_num)
  have hcoef23 : (2 : ℚ) ^ 23 ≤ coef := by exact_mod_cast hlow
  rw [limitExp]
  split
  next hover =>
      -- the number is not below the largest one, but for the error
      change 63 < exp at hover
      have habove : largest neg ≤ value coef exp := by
        refine hlarge'.trans ?_
        calc (2 : ℚ) ^ 62 = value (2 ^ 23) 64 := by norm_num [value]
          _ ≤ value coef exp := value_le_value (by norm_num) hcoef23 (by omega)
      change |largest neg - _| ≤ _
      rcases le_total x (largest neg) with hle | hle
      · rw [min_eq_left hle, abs_of_nonneg (by linarith)]
        linarith
      · rw [min_eq_right hle, sub_self, abs_zero]
        positivity
  next hover =>
      change ¬63 < exp at hover
      have hbelow : value coef exp ≤ largest neg :=
        value_le_value (Nat.cast_nonneg _) hcoef' (not_lt.mp hover)
      split
      next hunder =>
          change exp < -64 at hunder
          have hsmall : value coef exp ≤ 2 ^ (-66 : ℤ) := by
            calc value coef exp ≤ value (2 ^ 24) (-65) :=
                  value_le_value (Nat.cast_nonneg _) hcoef24 (by omega)
              _ = 2 ^ (-66 : ℤ) := by norm_num [value]
          have hx' : x ≤ largest neg := by
            norm_num at hsmall
            linarith
          rw [min_eq_left hx']
          split
          next =>
              -- the bits below the smallest exponent are lost
              obtain ⟨s, hs⟩ : ∃ s : ℕ, expMin = exp + s :=
                ⟨(expMin - exp).toNat, by rw [show expMin = -64 from rfl]; omega⟩
              have hshift : (expMin - exp).toNat = s := by omega
              rw [hshift, Nat.shiftRight_eq_div_pow]
              dsimp only
              have hpos : (0 : ℚ) < 2 ^ (exp - 25) := zpow_pos two_pos _
              have hunit : (2 : ℚ) ^ s * 2 ^ (exp - 25) = 1 / 2 ^ 89 := by
                rw [← zpow_natCast, ← zpow_add₀ two_ne_zero,
                  show (s : ℤ) + (exp - 25) = -89 by rw [show expMin = -64 from rfl] at hs; omega]
                norm_num
              have hdown : ((coef / 2 ^ s : ℕ) : ℚ) * 2 ^ s ≤ coef := by
                exact_mod_cast Nat.div_mul_le_self coef (2 ^ s)
              have hup : (coef : ℚ) ≤ ((coef / 2 ^ s : ℕ) + 1) * 2 ^ s := by
                exact_mod_cast ((Nat.div_lt_iff_lt_mul (Nat.two_pow_pos s)).mp
                  (Nat.lt_succ_self (coef / 2 ^ s))).le
              rw [hs, value_add]
              have hdown' := mul_le_mul_of_nonneg_right hdown hpos.le
              have hup' := mul_le_mul_of_nonneg_right hup hpos.le
              rw [add_mul, one_mul, add_mul, hunit] at hup'
              rw [value] at hmin hmax ⊢
              rw [abs_sub_le_iff]
              constructor <;> linarith
          next hzero =>
              change ¬exp + 25 ≥ -64 at hzero
              have hzero' : value coef exp ≤ 2 ^ (-91 : ℤ) := by
                calc value coef exp ≤ value (2 ^ 24) (-90) :=
                      value_le_value (Nat.cast_nonneg _) hcoef24 (by omega)
                  _ = 2 ^ (-91 : ℤ) := by norm_num [value]
              dsimp only
              rw [value, Nat.cast_zero, zero_mul, zero_sub, abs_neg, abs_of_pos hx]
              norm_num at hzero'
              linarith
      next =>
          dsimp only
          rcases le_total x (largest neg) with hle | hle
          · rw [min_eq_left hle]
            linarith [show (0 : ℚ) < 1 / 2 ^ 89 by positivity]
          · rw [min_eq_right hle, abs_of_nonpos (by linarith)]
            have : (0 : ℚ) < 1 / 2 ^ 89 := by positivity
            linarith

theorem split_fits (x : ℚ) {neg : ℕ} : Fits neg (split x neg) := by
  rw [split]
  split
  · exact ⟨Nat.zero_le _, show expMin ≤ 0 by decide, show 0 ≤ expMax by decide⟩
  · split
    · exact ⟨le_rfl, show expMin ≤ expMax by decide, le_rfl⟩
    · obtain ⟨k, heq, hle, -⟩ := shiftDown_spec (coefMax + neg) (roundCoef x (logExp x)) (logExp x)
      rw [heq]
      exact limitExp_fits hle _

theorem split_error {x : ℚ} (hx : 0 ≤ x) {neg : ℕ} (hneg : neg ≤ 1) :
    |value (split x neg).1 (split x neg).2 - min x (largest neg)| ≤
      min x (largest neg) / 2 ^ 23 + 1 / 2 ^ 89 := by
  obtain ⟨hlarge, hlarge'⟩ := largest_bounds hneg
  rw [split]
  split
  next hsmall =>
      have hsmall' : x ≤ 1 / 2 ^ 89 := hsmall.le.trans (by norm_num)
      have hx' : x ≤ largest neg := hsmall'.trans (le_trans (by norm_num) hlarge)
      have hpos : 0 ≤ x / 2 ^ 23 := by positivity
      dsimp only
      rw [min_eq_left hx', value, Nat.cast_zero, zero_mul, zero_sub, abs_neg, abs_of_nonneg hx]
      linarith
  next hsmall =>
      have hpos : 0 < x := lt_of_lt_of_le (by norm_num) (not_lt.mp hsmall)
      split
      next hbig =>
          have hx' : largest neg ≤ x := hlarge'.trans (le_trans (by norm_num) hbig.le)
          have hzero : 0 ≤ largest neg := le_trans (by norm_num) hlarge
          rw [min_eq_right hx']
          change |largest neg - largest neg| ≤ _
          rw [sub_self, abs_zero]
          positivity
      next =>
          have hlimit : 2 ^ 24 - 1 ≤ coefMax + neg := Nat.le_add_right _ _
          obtain ⟨hlow, hle, herror⟩ := shifted_spec hlimit hpos
          exact limitExp_error hneg hpos hlow hle herror

/-- **The coefficient of a number which is not below the largest one.** The exponent is too large,
or the coefficient is the limit. -/
theorem shifted_of_large {limit : ℕ} (hpos : 0 < limit) {x : ℚ} (hx : value limit expMax ≤ x) :
    let r := shiftDown limit (roundCoef x (logExp x)) (logExp x)
    expMax < r.2 ∨ r = (limit, expMax) := by
  have hlimit : (0 : ℚ) < limit := by exact_mod_cast hpos
  have hpos' : 0 < x := lt_of_lt_of_le (mul_pos hlimit (zpow_pos two_pos _)) hx
  obtain ⟨k, heq, hle, -⟩ := shiftDown_spec limit (roundCoef x (logExp x)) (logExp x)
  rw [heq]
  dsimp only
  by_cases hover : expMax < logExp x + k
  · exact .inl hover
  · obtain ⟨d, hd⟩ : ∃ d : ℕ, expMax = logExp x + d :=
      ⟨(expMax - logExp x).toNat, by omega⟩
    -- the number has at least the bits of the limit before the coefficient is shifted
    have hscaled : (limit : ℚ) * 2 ^ d ≤ scaled x := by
      have hunits : value limit expMax * 2 ^ (-logExp x + 25) = limit * 2 ^ d := by
        rw [value, mul_assoc, ← zpow_add₀ two_ne_zero, hd,
          show logExp x + (d : ℤ) - 25 + (-logExp x + 25) = d by ring, zpow_natCast]
      rw [← hunits]
      exact mul_le_mul_of_nonneg_right hx (zpow_pos two_pos _).le
    have hcoef : limit * 2 ^ d ≤ roundCoef x (logExp x) := by
      have hfloor : ((limit * 2 ^ d : ℕ) : ℤ) ≤ ⌊scaled x + 1 / 2⌋ := by
        rw [Int.le_floor]
        push_cast
        linarith
      rw [roundCoef_eq hpos']
      omega
    have hk : k ≤ d := by omega
    have hshifted : limit * 2 ^ (d - k) ≤ limit := by
      refine le_trans ?_ hle
      rw [Nat.le_div_iff_mul_le (Nat.two_pow_pos k), mul_assoc, ← pow_add, Nat.sub_add_cancel hk]
      exact hcoef
    have hdk : d - k = 0 := by
      by_contra hne
      have htwo : 2 ≤ 2 ^ (d - k) := Nat.le_self_pow hne 2
      have := Nat.mul_le_mul_left limit htwo
      omega
    obtain rfl : d = k := by omega
    have hge : limit ≤ roundCoef x (logExp x) / 2 ^ d :=
      (Nat.le_div_iff_mul_le (Nat.two_pow_pos d)).mpr hcoef
    exact .inr (Prod.ext (le_antisymm hle hge) hd.symm)

/-- **A number beyond the range becomes the largest one.** -/
theorem split_of_largest_le {x : ℚ} {neg : ℕ} (hneg : neg ≤ 1) (hx : largest neg ≤ x) :
    split x neg = (coefMax + neg, expMax) := by
  have hlarge := (largest_bounds hneg).1
  have hsmall : ¬x < 1 / 10 ^ 100 := not_lt.mpr (le_trans (by norm_num) (hlarge.trans hx))
  rw [split, if_neg hsmall]
  split
  next => rfl
  next =>
      have hpos : 0 < coefMax + neg := Nat.add_pos_left (by decide) neg
      dsimp only
      rcases shifted_of_large hpos hx with hover | heq
      · exact if_pos hover
      · rw [heq]
        exact (if_neg (lt_irrefl expMax)).trans (if_neg (show ¬expMax < expMin by decide))

theorem toHost_ofHost_of_neg {x : ℚ} (hx : x < 0) :
    toHost (ofHost x) = -value (split (-x) 1).1 (split (-x) 1).2 := by
  have hfits : Fits 1 (split (-x) 1) := split_fits _
  rw [ofHost, if_pos hx]
  dsimp only
  rw [toHost_pack hfits.coef hfits.min hfits.max, if_pos rfl, value, value, neg_mul]

theorem toHost_ofHost_of_nonneg {x : ℚ} (hx : 0 ≤ x) :
    toHost (ofHost x) = value (split x 0).1 (split x 0).2 := by
  have hfits : Fits 0 (split x 0) := split_fits _
  rw [ofHost, if_neg (not_lt.mpr hx)]
  dsimp only
  rw [toHost_pack hfits.coef hfits.min hfits.max, if_neg Bool.false_ne_true]

/-- The error of the conversion of any number. -/
theorem abs_sub_limit_le (x : ℚ) :
    |toHost (ofHost x) - max (-largest 1) (min x (largest 0))| ≤
      |max (-largest 1) (min x (largest 0))| / 2 ^ 23 + 1 / 2 ^ 89 := by
  have hlarge : 0 < largest 0 := lt_of_lt_of_le (by norm_num) (largest_bounds zero_le_one).1
  have hlarge' : 0 < largest 1 := lt_of_lt_of_le (by norm_num) (largest_bounds le_rfl).1
  rcases lt_or_ge x 0 with hx | hx
  · have hlimit : max (-largest 1) (min x (largest 0)) = -min (-x) (largest 1) := by
      rw [min_eq_left (hx.le.trans hlarge.le), max_comm, ← neg_neg x, ← max_neg_neg, neg_neg,
        neg_neg]
    have hpos : 0 ≤ min (-x) (largest 1) := le_min (by linarith) hlarge'.le
    rw [toHost_ofHost_of_neg hx, hlimit, neg_sub_neg, abs_sub_comm, abs_neg, abs_of_nonneg hpos]
    exact split_error (by linarith) le_rfl
  · have hpos : 0 ≤ min x (largest 0) := le_min hx hlarge.le
    rw [toHost_ofHost_of_nonneg hx, max_eq_right (by linarith), abs_of_nonneg hpos]
    exact split_error hx zero_le_one

/-- **The error of the conversion.** The number is limited to the range of the format, and those
beyond it become the largest numbers. The relative error is at most `2 ^ -23`, unless the number is
too small. -/
theorem abs_toHost_ofHost_sub_le (x : ℚ) :
    |toHost (ofHost x) - max (-largest 1) (min x (largest 0))| ≤
        |max (-largest 1) (min x (largest 0))| / 2 ^ 23 + 1 / 2 ^ 89 ∧
      (largest 0 ≤ x → toHost (ofHost x) = largest 0) ∧
      (x ≤ -largest 1 → toHost (ofHost x) = -largest 1) := by
  have hlarge : 0 < largest 0 := lt_of_lt_of_le (by norm_num) (largest_bounds zero_le_one).1
  have hlarge' : 0 < largest 1 := lt_of_lt_of_le (by norm_num) (largest_bounds le_rfl).1
  refine ⟨abs_sub_limit_le x, fun hx => ?_, fun hx => ?_⟩
  · rw [toHost_ofHost_of_nonneg (by linarith), split_of_largest_le zero_le_one hx]
    rfl
  · rw [toHost_ofHost_of_neg (by linarith), split_of_largest_le le_rfl (by linarith)]
    rfl

/-! ### Numbers of the format -/

/-- The bits of an exact coefficient which are shifted out are zeros. -/
theorem shifted_exact {limit m : ℕ} (hlimit : limit ≤ 2 ^ 24) (hm : 0 < m) (hle : m ≤ limit)
    (exp : ℤ) :
    let x := value m exp
    ∃ i : ℕ, shiftDown limit (roundCoef x (logExp x)) (logExp x) = (m * 2 ^ i, exp - i) ∧
      m * 2 ^ i ≤ limit := by
  intro x
  have hm' : (0 : ℚ) < m := by exact_mod_cast hm
  have hx : 0 < x := mul_pos hm' (zpow_pos two_pos _)
  obtain ⟨hscaled, -⟩ := scaled_bounds hx
  have hunits : scaled x = m * 2 ^ (exp - logExp x) := by
    change (m : ℚ) * 2 ^ (exp - 25) * 2 ^ (-logExp x + 25) = _
    rw [mul_assoc, ← zpow_add₀ two_ne_zero,
      show exp - 25 + (-logExp x + 25) = exp - logExp x by ring]
  -- the first exponent is not above the one of the number
  have hexp : logExp x ≤ exp := by
    by_contra hlt
    have hhalf : (2 : ℚ) ^ (exp - logExp x) ≤ 1 / 2 := by
      refine (zpow_le_zpow_right₀ one_le_two (show exp - logExp x ≤ -1 by omega)).trans ?_
      norm_num
    have hm24 : (m : ℚ) ≤ 2 ^ 24 := by exact_mod_cast hle.trans hlimit
    rw [hunits] at hscaled
    have hprod := mul_le_mul hm24 hhalf (zpow_pos two_pos _).le (by norm_num)
    norm_num at hprod hscaled
    linarith
  obtain ⟨d, hd⟩ : ∃ d : ℕ, exp = logExp x + d := ⟨(exp - logExp x).toNat, by omega⟩
  have hcoef : roundCoef x (logExp x) = m * 2 ^ d := by
    have hfloor : ⌊scaled x + 1 / 2⌋ = m * 2 ^ d := by
      rw [hunits, show exp - logExp x = d by omega, zpow_natCast, Int.floor_eq_iff]
      push_cast
      constructor <;> linarith
    rw [roundCoef_eq hx, hfloor]
    exact Int.toNat_natCast _
  obtain ⟨k, heq, hstop, hbefore⟩ := shiftDown_spec limit (roundCoef x (logExp x)) (logExp x)
  have hk : k ≤ d := by
    by_contra hlt
    have := hbefore d (by omega)
    rw [hcoef, Nat.mul_div_cancel _ (Nat.two_pow_pos d)] at this
    omega
  have hdiv : m * 2 ^ d / 2 ^ k = m * 2 ^ (d - k) := by
    rw [Nat.mul_div_assoc _ (pow_dvd_pow 2 hk), Nat.pow_div hk two_pos]
  refine ⟨d - k, ?_, ?_⟩
  · rw [heq, hcoef, hdiv, Nat.cast_sub hk]
    congr 1
    omega
  · rw [← hdiv, ← hcoef]
    exact hstop

/-- A positive number of the format is not changed. -/
theorem split_exact {neg m : ℕ} (hneg : neg ≤ 1) (hm : 0 < m) (hle : m ≤ coefMax + neg) {exp : ℤ}
    (hmin : expMin ≤ exp) (hmax : exp ≤ expMax) :
    value (split (value m exp) neg).1 (split (value m exp) neg).2 = value m exp := by
  change -64 ≤ exp at hmin
  change exp ≤ 63 at hmax
  have hlimit : coefMax + neg ≤ 2 ^ 24 := by
    rw [show coefMax = 2 ^ 24 - 1 from rfl]
    omega
  have hm' : (1 : ℚ) ≤ m := by exact_mod_cast hm
  have hm24 : (m : ℚ) ≤ 2 ^ 24 := by exact_mod_cast hle.trans hlimit
  have hsmall : ¬value m exp < 1 / 10 ^ 100 := by
    refine not_lt.mpr (le_trans ?_ (value_le_value zero_le_one hm' hmin))
    norm_num [value]
  have hbig : ¬value m exp > 10 ^ 100 := by
    refine not_lt.mpr ((value_le_value (Nat.cast_nonneg m) hm24 hmax).trans ?_)
    norm_num [value]
  obtain ⟨i, heq, hfits⟩ := shifted_exact hlimit hm hle exp
  have hi : i ≤ 24 := by
    have hpow : 2 ^ i ≤ 2 ^ 24 :=
      (Nat.le_mul_of_pos_left _ hm).trans (hfits.trans hlimit)
    exact (Nat.pow_le_pow_iff_right Nat.one_lt_two).mp hpow
  have hvalue : ∀ n : ℕ, value (m * 2 ^ n : ℕ) (exp - n) = value m exp := fun n => by
    rw [Nat.cast_mul, Nat.cast_pow, Nat.cast_ofNat, ← value_add, sub_add_cancel]
  rw [split, if_neg hsmall, if_neg hbig]
  dsimp only
  rw [heq]
  dsimp only
  rw [limitExp, if_neg (by rw [show expMax = 63 from rfl]; omega)]
  split
  next hunder =>
      change exp - i < -64 at hunder
      rw [if_pos (by rw [show expMin = -64 from rfl, show coefBits = 25 from rfl]; omega)]
      obtain ⟨s, hs⟩ : ∃ s : ℕ, expMin = exp - i + s :=
        ⟨(expMin - (exp - i)).toNat, by rw [show expMin = -64 from rfl]; omega⟩
      have hsi : s ≤ i := by
        rw [show expMin = -64 from rfl] at hs
        omega
      dsimp only
      rw [show (expMin - (exp - i)).toNat = s by omega, Nat.shiftRight_eq_div_pow,
        Nat.mul_div_assoc _ (pow_dvd_pow 2 hsi), Nat.pow_div hsi two_pos,
        show expMin = exp - (i - s : ℕ) by omega]
      exact hvalue (i - s)
  next => exact hvalue i

/-- The fields of a number. -/
theorem toHost_cases (f : BitVec 32) : ∃ (coef exp : ℤ), toHost f = value coef exp ∧
    -2 ^ 24 ≤ coef ∧ coef < 2 ^ 24 ∧ expMin ≤ exp ∧ exp ≤ expMax := by
  have hf := f.isLt
  refine ⟨_, _, toHost_eq (e := f.toNat / 2 ^ 25) (c := f.toNat % 2 ^ 25)
    (Nat.div_add_mod _ _).symm (Nat.mod_lt _ (by norm_num)), ?_, ?_, ?_, ?_⟩
  · split <;> omega
  · split <;> omega
  · change -64 ≤ _
    split <;> omega
  · change _ ≤ (63 : ℤ)
    split <;> omega

/-- **A number of the format is converted without an error.** -/
theorem toHost_ofHost_toHost (f : BitVec 32) : toHost (ofHost (toHost f)) = toHost f := by
  obtain ⟨coef, exp, hf, hlow, hhigh, hmin, hmax⟩ := toHost_cases f
  rw [hf]
  rcases lt_trichotomy coef 0 with hneg | rfl | hpos
  · obtain ⟨m, rfl⟩ : ∃ m : ℕ, coef = -m := ⟨(-coef).toNat, by omega⟩
    have hm : 0 < m := by omega
    have hvalue : value ((-(m : ℤ) : ℤ) : ℚ) exp = -value m exp := by
      rw [Int.cast_neg, Int.cast_natCast, value, value, neg_mul]
    have hvalue' : 0 < value m exp := mul_pos (by exact_mod_cast hm) (zpow_pos two_pos _)
    have hle : m ≤ coefMax + 1 := by
      rw [show coefMax = 2 ^ 24 - 1 from rfl]
      omega
    rw [hvalue, toHost_ofHost_of_neg (by linarith), neg_neg, split_exact le_rfl hm hle hmin hmax]
  · have hzero : split 0 0 = (0, 0) := if_pos (by norm_num)
    rw [Int.cast_zero, value, zero_mul, toHost_ofHost_of_nonneg le_rfl, hzero]
    simp [value]
  · obtain ⟨m, rfl⟩ : ∃ m : ℕ, coef = m := ⟨coef.toNat, by omega⟩
    have hm : 0 < m := by omega
    have hvalue' : 0 < value m exp := mul_pos (by exact_mod_cast hm) (zpow_pos two_pos _)
    have hle : m ≤ coefMax + 0 := by
      rw [show coefMax = 2 ^ 24 - 1 from rfl]
      omega
    rw [Int.cast_natCast, toHost_ofHost_of_nonneg hvalue'.le,
      split_exact zero_le_one hm hle hmin hmax]

example : ofHost (-2 ^ 62) = 0x7f000000 := by decide +kernel

end Chrony.NetworkFloat
