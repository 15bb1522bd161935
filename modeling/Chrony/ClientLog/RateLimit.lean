import Chrony.ClientLog.Eviction
import Chrony.Lib.TokenBucket
import Mathlib.Algebra.Order.Field.Rat
import Mathlib.Tactic.Linarith
import Mathlib.Tactic.Positivity
import Mathlib.Tactic.FieldSimp

/-!
# The Rate of Responses

The responses to a client are limited by a token bucket in its record. The number of tokens
added between two hits is the difference of their shifted timestamps, so that the tokens
added in any number of hits are given by the first and the last of them.

## Main results

* `toLimit_fits`: the maximum number of tokens fits in 16 bits.
* `updateRecord_run`, `limitRates_run`: the record of a client is a token bucket.
-/

namespace Chrony.ClientLog

open Lib TokenBucket

/-! ### The parameters -/

/-- The interval between responses as it is limited by `set_bucket_params`. -/
def RateLimit.clampedInterval (config : RateLimit) : ℤ :=
  clamp minLimitInterval config.interval maxLimitInterval

/-- **The number of responses which can be sent at once.** It is raised for intervals shorter
than the resolution of timestamps. -/
def RateLimit.effectiveBurst (config : RateLimit) : ℕ :=
  let burst := (clamp minLimitBurst config.burst maxLimitBurst).toNat
  if config.clampedInterval ≥ -tsFrac then burst
  else max (1 <<< (-(config.clampedInterval + tsFrac)).toNat) burst

theorem le_clamp {lo hi : ℤ} (x : ℤ) (h : lo ≤ hi) :
    lo ≤ clamp lo x hi ∧ clamp lo x hi ≤ hi := by
  rw [clamp]
  split
  · exact ⟨le_refl lo, h⟩
  · split
    · exact ⟨h, le_refl hi⟩
    · omega

/-- The loop ends with a shift which is large enough, or with the largest one. -/
theorem tokenShiftLoop_spec (burst limit : ℕ) {n tshift : ℕ} (hle : tshift ≤ limit)
    (hn : limit - tshift ≤ n) : tokenShiftLoop burst limit n tshift ≤ limit ∧
      (burst <<< (limit - tokenShiftLoop burst limit n tshift) < 2 ^ 16 ∨
        tokenShiftLoop burst limit n tshift = limit) := by
  induction n generalizing tshift with
  | zero =>
      rw [tokenShiftLoop]
      exact ⟨hle, .inr (by omega)⟩
  | succ n ih =>
      rw [tokenShiftLoop]
      split
      next hlt =>
          split
          next hfits => exact ⟨hle, .inl hfits⟩
          next => exact ih hlt (by omega)
      next hge => exact ⟨hle, .inr (by omega)⟩

/-- **The parameters of a token bucket fit in 16 bits**: the maximum number of tokens is enough
for a burst, and the tokens of a hit are added in the configured interval. -/
structure Limit.Fits (limit : Limit) (config : RateLimit) : Prop where
  maxTokens : limit.maxTokens.toNat = limit.tokensPerHit.toNat * config.effectiveBurst
  tokensPerHit : limit.tokensPerHit ≠ 0
  shift : (0 ≤ limit.tokenShift ∧ limit.tokensPerHit.toNat * 2 ^ limit.tokenShift.toNat =
      2 ^ (config.clampedInterval + tsFrac).toNat ∧ 0 ≤ config.clampedInterval + tsFrac) ∨
    (limit.tokenShift < 0 ∧ limit.tokensPerHit = 1 ∧
      limit.tokenShift = config.clampedInterval + tsFrac)

/-- The shift reduces the tokens of a hit so that those of a burst fit in 16 bits. -/
theorem fineBucketParams_eq (interval burst : ℕ) (hburst : 1 ≤ burst ∧ burst ≤ 255) :
    ∃ tshift ≤ interval, (fineBucketParams interval burst).1.toNat =
        2 ^ (interval - tshift) * burst ∧
      (fineBucketParams interval burst).2.1.toNat = 2 ^ (interval - tshift) ∧
      (fineBucketParams interval burst).2.2 = tshift := by
  obtain ⟨hle, hfits⟩ := tokenShiftLoop_spec burst interval (Nat.zero_le interval)
    (Nat.sub_zero interval).le
  rw [fineBucketParams]
  generalize tokenShiftLoop burst interval interval 0 = tshift at hle hfits ⊢
  have hlt : 2 ^ (interval - tshift) * burst < 2 ^ 16 := by
    rcases hfits with hfits | heq
    · rw [Nat.shiftLeft_eq, Nat.mul_comm] at hfits
      exact hfits
    · rw [heq, Nat.sub_self]
      omega
  have hphit : (BitVec.ofNat 16 (1 <<< (interval - tshift))).toNat = 2 ^ (interval - tshift) := by
    rw [Nat.one_shiftLeft, BitVec.toNat_ofNat,
      Nat.mod_eq_of_lt ((Nat.le_mul_of_pos_right _ hburst.1).trans_lt hlt)]
  refine ⟨tshift, hle, ?_, hphit, rfl⟩
  rw [hphit, BitVec.toNat_ofNat, Nat.mod_eq_of_lt hlt]

theorem coarseBucketParams_eq {interval : ℤ} {burst : ℕ} (hinterval : -15 ≤ interval)
    (hburst : burst ≤ 255) : (coarseBucketParams interval burst).1.toNat =
        max (1 <<< (-interval).toNat) burst ∧
      (coarseBucketParams interval burst).2.1 = 1 ∧
      (coarseBucketParams interval burst).2.2 = interval := by
  have hphit : BitVec.ofNat 16 (1 <<< (interval - interval).toNat) = 1 := by
    rw [Int.sub_self]
    rfl
  have hlt : max (1 <<< (-interval).toNat) burst < 2 ^ 16 := by
    refine max_lt ?_ (by omega)
    rw [Nat.one_shiftLeft]
    exact Nat.pow_lt_pow_right (by decide) (by omega)
  refine ⟨?_, hphit, rfl⟩
  rw [coarseBucketParams, hphit, BitVec.toNat_ofNat]
  exact (Nat.mod_eq_of_lt (by simpa using hlt)).trans (Nat.one_mul _)

/-- **The parameters are computed without truncation.** -/
theorem toLimit_fits (config : RateLimit) : (RateLimit.toLimit (some config)).Fits config := by
  have hburst := le_clamp config.burst (show minLimitBurst ≤ maxLimitBurst by decide)
  have hinterval := le_clamp config.interval (show minLimitInterval ≤ maxLimitInterval by decide)
  have hparams : setBucketParams config.interval config.burst =
      if config.clampedInterval ≥ -tsFrac then
        fineBucketParams (config.clampedInterval + tsFrac).toNat
          (clamp minLimitBurst config.burst maxLimitBurst).toNat
      else coarseBucketParams (config.clampedInterval + tsFrac)
        (clamp minLimitBurst config.burst maxLimitBurst).toNat := rfl
  change minLimitInterval ≤ config.clampedInterval ∧ _ at hinterval
  have hb : 1 ≤ (clamp minLimitBurst config.burst maxLimitBurst).toNat ∧
      (clamp minLimitBurst config.burst maxLimitBurst).toNat ≤ 255 := by
    rw [minLimitBurst, maxLimitBurst] at *
    omega
  rw [RateLimit.toLimit]
  by_cases hge : config.clampedInterval ≥ -tsFrac
  · have heffective : config.effectiveBurst = (clamp minLimitBurst config.burst
      maxLimitBurst).toNat := if_pos hge
    rw [if_pos hge] at hparams
    obtain ⟨tshift, hle, hmax, hphit, hshift⟩ :=
      fineBucketParams_eq (config.clampedInterval + tsFrac).toNat _ hb
    rw [hparams]
    refine ⟨?_, ?_, .inl ⟨?_, ?_, by omega⟩⟩
    · rw [heffective, hmax, hphit]
    · intro h
      have hzero := congrArg BitVec.toNat h
      rw [hphit] at hzero
      exact absurd hzero (Nat.two_pow_pos _).ne'
    · rw [hshift]
      exact Int.natCast_nonneg tshift
    · rw [hshift, hphit, Int.toNat_natCast, ← Nat.pow_add, Nat.sub_add_cancel hle]
  · have heffective : config.effectiveBurst =
      max (1 <<< (-(config.clampedInterval + tsFrac)).toNat) (clamp minLimitBurst config.burst
        maxLimitBurst).toNat := if_neg hge
    rw [if_neg hge] at hparams
    have hlow : -15 ≤ config.clampedInterval + tsFrac := by
      rw [minLimitInterval, tsFrac] at *
      omega
    obtain ⟨hmax, hphit, hshift⟩ := coarseBucketParams_eq hlow hb.2
    rw [hparams]
    refine ⟨?_, ?_, .inr ⟨?_, hphit, hshift⟩⟩
    · rw [heffective, hmax, hphit]
      exact (Nat.one_mul _).symm
    · exact fun h => absurd (hphit.symm.trans h) (by decide)
    · exact hshift.trans_lt (by omega)

/-! ### Tokens -/

/-- The tokens which are added until a time. -/
def Limit.credit (limit : Limit) (time : ℕ) : ℕ :=
  if 0 ≤ limit.tokenShift then time / 2 ^ limit.tokenShift.toNat
  else time * 2 ^ (-limit.tokenShift).toNat

theorem credit_mono (limit : Limit) : Monotone limit.credit := by
  intro a b hab
  rw [Limit.credit, Limit.credit]
  split
  · exact Nat.div_le_div_right hab
  · exact Nat.mul_le_mul_right _ hab

/-- **The tokens added for the time between two hits.** -/
theorem addedTokens_le (limit : Limit) {nowTs prevHit : BitVec 32}
    (h : prevHit.toNat ≤ nowTs.toNat) :
    (addedTokens limit nowTs prevHit).toNat ≤
      limit.credit nowTs.toNat - limit.credit prevHit.toNat := by
  have hsub : (nowTs - prevHit).toNat = nowTs.toNat - prevHit.toNat := BitVec.toNat_sub_of_le h
  rw [addedTokens, Limit.credit, Limit.credit]
  by_cases hshift : 0 ≤ limit.tokenShift
  · rw [if_pos hshift, if_pos hshift, if_pos hshift, BitVec.toNat_sub_of_le]
    · rw [BitVec.toNat_ushiftRight, BitVec.toNat_ushiftRight, Nat.shiftRight_eq_div_pow,
        Nat.shiftRight_eq_div_pow]
    · rw [BitVec.le_def, BitVec.toNat_ushiftRight, BitVec.toNat_ushiftRight,
        Nat.shiftRight_eq_div_pow, Nat.shiftRight_eq_div_pow]
      exact Nat.div_le_div_right h
  · rw [if_neg hshift, if_neg hshift, if_neg hshift, ← Nat.sub_mul, ← hsub]
    have hpos := Nat.two_pow_pos (-limit.tokenShift).toNat
    split
    next hgt =>
        -- the limit of the tokens is less than the number of units
        exact (BitVec.le_of_lt hgt).trans (Nat.le_mul_of_pos_right _ hpos)
    next =>
        rw [BitVec.toNat_shiftLeft, Nat.shiftLeft_eq]
        exact Nat.mod_le _ _

/-- **A bucket is filled up to its maximum.** -/
theorem refill_le (limit : Limit) (tokens : BitVec 16) (added : BitVec 32) :
    (refill limit tokens added).toNat ≤ tokens.toNat + added.toNat ∧
      (refill limit tokens added).toNat ≤ limit.maxTokens.toNat := by
  have hsum : (tokens.setWidth 32 + added).toNat ≤ tokens.toNat + added.toNat := by
    rw [BitVec.toNat_add, BitVec.toNat_setWidth]
    exact (Nat.mod_le _ _).trans (Nat.add_le_add_right (Nat.mod_le _ _) _)
  have hmax : (limit.maxTokens.setWidth 32).toNat = limit.maxTokens.toNat := by
    rw [BitVec.toNat_setWidth]
    exact Nat.mod_eq_of_lt (limit.maxTokens.isLt.trans (by decide))
  rw [refill]
  split
  next hlt =>
      have hle : ((tokens.setWidth 32 + added).setWidth 16).toNat ≤
          (tokens.setWidth 32 + added).toNat := by
        rw [BitVec.toNat_setWidth]
        exact Nat.mod_le _ _
      rw [BitVec.lt_def, hmax] at hlt
      exact ⟨hle.trans hsum, hle.trans hlt.le⟩
  next hge =>
      rw [BitVec.lt_def, hmax, not_lt] at hge
      exact ⟨hge.trans hsum, le_rfl⟩

/-- The bucket of a service in a record. -/
def Record.bucket (record : Record) (service : Service) : Bucket :=
  ⟨(record.lastHit service).toNat, (record.tokens service).toNat⟩

/-- The tokens of all services are within their limits. -/
def Record.Limited (limit : Service → Limit) (record : Record) : Prop :=
  ∀ service, (record.tokens service).toNat ≤ (limit service).maxTokens.toNat

theorem newRecord_limited (limit : Service → Limit) (ip : IPAddr) :
    (newRecord limit ip).Limited limit :=
  fun _ => le_rfl

theorem updateRecord_lastHit (limit : Limit) (service : Service) (nowTs : BitVec 32)
    (record : Record) : (updateRecord limit service nowTs record).lastHit =
      Function.update record.lastHit service nowTs := by
  rw [updateRecord]
  split
  · rfl
  · rw [Record.addInterval]
    split <;> rfl

theorem updateRecord_tokens (limit : Limit) (service : Service) (nowTs : BitVec 32)
    (record : Record) : (updateRecord limit service nowTs record).tokens = record.tokens ∨
      (updateRecord limit service nowTs record).tokens = Function.update record.tokens service
        (refill limit (record.tokens service)
          (addedTokens limit nowTs (record.lastHit service))) := by
  rw [updateRecord]
  split
  · exact .inl rfl
  · rw [Record.addInterval]
    split <;> exact .inr rfl

theorem updateRecord_limited {limit : Service → Limit} {record : Record}
    (h : record.Limited limit) (service : Service) (nowTs : BitVec 32) :
    (updateRecord (limit service) service nowTs record).Limited limit := by
  intro service'
  rcases updateRecord_tokens (limit service) service nowTs record with htokens | htokens
  · rw [htokens]
    exact h service'
  · rw [htokens]
    by_cases heq : service' = service
    · rw [heq, Function.update_self]
      exact (refill_le _ _ _).2
    · rw [Function.update_of_ne heq]
      exact h service'

/-- **A hit refills the bucket of its service.** -/
theorem updateRecord_run (limit : Limit) (cost : ℕ) (service : Service) {nowTs : BitVec 32}
    {record : Record} (h : (record.lastHit service).toNat ≤ nowTs.toNat) :
    Run limit.credit cost (record.bucket service) 0
      ((updateRecord limit service nowTs record).bucket service) := by
  rw [Record.bucket, Record.bucket, updateRecord_lastHit, Function.update_self]
  refine .refill (.refl _) h ?_
  rcases updateRecord_tokens limit service nowTs record with htokens | htokens
  · rw [htokens]
    exact Nat.le_add_right _ _
  · rw [htokens, Function.update_self]
    exact (refill_le _ _ _).1.trans (Nat.add_le_add_left (addedTokens_le limit h) _)

theorem limitRate_tokens (record : Record) (limit : Limit) (service : Service) (leak kod : Bool) :
    (record.limitRate limit service leak kod).1.lastHit = record.lastHit ∧
      ((limit.tokensPerHit ≤ record.tokens service ∧
          (record.limitRate limit service leak kod).1.tokens = Function.update record.tokens
            service (record.tokens service - limit.tokensPerHit)) ∨
        (¬limit.tokensPerHit ≤ record.tokens service ∧
          ((record.limitRate limit service leak kod).1.tokens = record.tokens ∨
            (record.limitRate limit service leak kod).1.tokens =
              Function.update record.tokens service 0))) := by
  rw [Record.limitRate]
  split
  next h => exact ⟨rfl, .inl ⟨h, rfl⟩⟩
  next h =>
      split
      · exact ⟨rfl, .inr ⟨h, .inr rfl⟩⟩
      · split
        · exact ⟨rfl, .inr ⟨h, .inl rfl⟩⟩
        · exact ⟨rfl, .inr ⟨h, .inl rfl⟩⟩

theorem limitRate_le (record : Record) (limit : Limit) (service : Service) (leak kod : Bool)
    (service' : Service) : ((record.limitRate limit service leak kod).1.tokens service').toNat ≤
      (record.tokens service').toNat := by
  have hupdate : ∀ tokens : BitVec 16, tokens.toNat ≤ (record.tokens service).toNat →
      (Function.update record.tokens service tokens service').toNat ≤
        (record.tokens service').toNat := by
    intro tokens hle
    by_cases heq : service' = service
    · rw [heq, Function.update_self]
      exact hle
    · rw [Function.update_of_ne heq]
  obtain ⟨-, ⟨hge, htokens⟩ | ⟨-, htokens | htokens⟩⟩ :=
    limitRate_tokens record limit service leak kod
  · rw [htokens]
    refine hupdate _ ?_
    rw [BitVec.toNat_sub_of_le hge]
    exact Nat.sub_le _ _
  · rw [htokens]
  · rw [htokens]
    exact hupdate 0 (Nat.zero_le _)

/-- **The response is allowed and paid by tokens.** Other responses are allowed only by a
random decision. -/
def Record.isPaidPass (record : Record) (limit : Limit) (service : Service)
    (random : Bool × Bool) : Bool :=
  (record.limitRate limit service random.1 random.2).2 = .pass &&
    record.tokens service ≥ limit.tokensPerHit

/-- **A decision takes the tokens of a paid response.** -/
theorem limitRate_run (record : Record) (limit : Limit) (service : Service)
    (random : Bool × Bool) :
    Run limit.credit limit.tokensPerHit.toNat (record.bucket service)
      (record.isPaidPass limit service random).toNat
      ((record.limitRate limit service random.1 random.2).1.bucket service) := by
  obtain ⟨hlast, htokens⟩ := limitRate_tokens record limit service random.1 random.2
  have hle := limitRate_le record limit service random.1 random.2 service
  rw [Record.bucket, Record.bucket, hlast]
  cases hpaid : record.isPaidPass limit service random with
  | false => exact .lose (.refl _) hle
  | true =>
      have hge : limit.tokensPerHit ≤ record.tokens service :=
        of_decide_eq_true (Bool.and_eq_true_iff.mp hpaid).2
      rcases htokens with ⟨-, htokens⟩ | ⟨hlt, -⟩
      · rw [htokens, Function.update_self]
        refine .pay (.refl _) ?_
        rw [BitVec.toNat_sub_of_le hge]
        exact (Nat.sub_add_cancel hge).le
      · exact absurd hge hlt

/-- The record after several decisions. -/
def Record.limitRates (record : Record) (limit : Limit) (service : Service)
    (limited : List (Bool × Bool)) : Record :=
  limited.foldl (fun record random => (record.limitRate limit service random.1 random.2).1) record

/-- The number of responses paid by tokens in several decisions. -/
def Record.paidPasses (limit : Limit) (service : Service) : Record → List (Bool × Bool) → ℕ
  | _, [] => 0
  | record, random :: limited =>
      (record.isPaidPass limit service random).toNat +
        paidPasses limit service (record.limitRate limit service random.1 random.2).1 limited

theorem limitRates_run (record : Record) (limit : Limit) (service : Service)
    (limited : List (Bool × Bool)) :
    Run limit.credit limit.tokensPerHit.toNat (record.bucket service)
      (record.paidPasses limit service limited)
      ((record.limitRates limit service limited).bucket service) := by
  induction limited generalizing record with
  | nil => exact .refl _
  | cons random limited ih =>
      exact (limitRate_run record limit service random).trans (ih _)

theorem limitRates_frame (record : Record) (limit : Limit) (service : Service)
    (limited : List (Bool × Bool)) :
    (record.limitRates limit service limited).ipAddr = record.ipAddr ∧
      (record.limitRates limit service limited).lastHit = record.lastHit ∧
      ∀ service', ((record.limitRates limit service limited).tokens service').toNat ≤
        (record.tokens service').toNat := by
  induction limited generalizing record with
  | nil => exact ⟨rfl, rfl, fun _ => le_rfl⟩
  | cons random limited ih =>
      obtain ⟨hip, hlast, htokens⟩ := ih (record.limitRate limit service random.1 random.2).1
      refine ⟨hip.trans (limitRate_ipAddr ..), hlast.trans (limitRate_tokens ..).1, fun s => ?_⟩
      exact (htokens s).trans (limitRate_le ..)

/-- The bucket of another service does not change. -/
theorem limitRates_tokens_of_ne (record : Record) (limit : Limit) {service service' : Service}
    (hne : service' ≠ service) (limited : List (Bool × Bool)) :
    (record.limitRates limit service limited).tokens service' = record.tokens service' := by
  induction limited generalizing record with
  | nil => rfl
  | cons random limited ih =>
      refine (ih _).trans ?_
      obtain ⟨-, ⟨-, heq⟩ | ⟨-, heq | heq⟩⟩ :=
        limitRate_tokens record limit service random.1 random.2
      · rw [heq, Function.update_of_ne hne]
      · rw [heq]
      · rw [heq, Function.update_of_ne hne]

theorem bucket_of_ne (record : Record) (limit : Limit) {service service' : Service}
    (hne : service' ≠ service) (nowTs : BitVec 32) (limited : List (Bool × Bool)) :
    ((updateRecord limit service nowTs record).limitRates limit service limited).bucket service' =
      record.bucket service' := by
  rw [Record.bucket, Record.bucket, limitRates_tokens_of_ne _ _ hne, (limitRates_frame ..).2.1,
    updateRecord_lastHit, Function.update_of_ne hne]
  rcases updateRecord_tokens limit service nowTs record with htokens | htokens
  · rw [htokens]
  · rw [htokens, Function.update_of_ne hne]

end Chrony.ClientLog
