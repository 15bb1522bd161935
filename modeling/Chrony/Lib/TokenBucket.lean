import Mathlib.Algebra.Order.Ring.Nat
import Mathlib.Order.Monotone.Defs

/-!
# Token Buckets

A token bucket is refilled as the time goes on, and each paid event takes a fixed number of
its tokens. The tokens which are added between two times are the difference of a monotone
function of the time (`credit`), so that the sum over any sequence of refills telescopes. A
bucket may also lose tokens, for example when it is full.

## Main results

* `Run.paid_le`: the number of paid events is bounded by the tokens at the start and the
  tokens added until the end.
-/

namespace Chrony.Lib.TokenBucket

/-- The time of the last refill and the tokens. -/
structure Bucket where
  last : ℕ
  tokens : ℕ

/-- **A sequence of events of a bucket**, with the number of paid events. -/
inductive Run (credit : ℕ → ℕ) (cost : ℕ) : Bucket → ℕ → Bucket → Prop
  | refl (b : Bucket) : Run credit cost b 0 b
  | refill {b b' : Bucket} {n time tokens : ℕ} (h : Run credit cost b n b')
      (htime : b'.last ≤ time)
      (htokens : tokens ≤ b'.tokens + (credit time - credit b'.last)) :
      Run credit cost b n ⟨time, tokens⟩
  | pay {b b' : Bucket} {n tokens : ℕ} (h : Run credit cost b n b')
      (htokens : tokens + cost ≤ b'.tokens) : Run credit cost b (n + 1) ⟨b'.last, tokens⟩
  | lose {b b' : Bucket} {n tokens : ℕ} (h : Run credit cost b n b')
      (htokens : tokens ≤ b'.tokens) : Run credit cost b n ⟨b'.last, tokens⟩

namespace Run

variable {credit : ℕ → ℕ} {cost : ℕ} {b b' b'' : Bucket} {n n' : ℕ}

theorem trans (h : Run credit cost b n b') (h' : Run credit cost b' n' b'') :
    Run credit cost b (n + n') b'' := by
  induction h' with
  | refl => exact h
  | refill _ htime htokens ih => exact ih.refill htime htokens
  | pay _ htokens ih => exact ih.pay htokens
  | lose _ htokens ih => exact ih.lose htokens

/-- **The account of a bucket**: what is paid and left is what was there and what was
added. -/
theorem paid_le (hcredit : Monotone credit) (h : Run credit cost b n b') :
    n * cost + b'.tokens + credit b.last ≤ b.tokens + credit b'.last := by
  induction h with
  | refl =>
      rw [Nat.zero_mul, Nat.zero_add]
  | refill h htime htokens ih =>
      have := hcredit htime
      dsimp only
      omega
  | pay h htokens ih =>
      rw [Nat.succ_mul]
      dsimp only
      omega
  | lose h htokens ih =>
      dsimp only
      omega

end Run

end Chrony.Lib.TokenBucket
