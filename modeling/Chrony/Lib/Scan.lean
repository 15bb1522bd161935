import Mathlib.Algebra.BigOperators.Group.List.Basic
import Mathlib.Algebra.Order.Ring.Nat
import Chrony.Lib.Run

/-!
# Items in a Buffer

A buffer holds items of variable length, one after another. An item is read at a position
with its length, which gives the position of the next item.

## Main results

* `Scan.unique`: the items are given by the position of the first one and the reader.
* `forItems_eq`, `exists_scan`: a loop over the items of a buffer is a fold over the items,
  if and only if they fill the buffer.
-/

namespace Chrony.Lib

variable {α ε σ : Type*}

/-- **The items between two positions.** -/
inductive Scan (next : ℕ → Option (α × ℕ)) : ℕ → List α → ℕ → Prop
  | nil (p : ℕ) : Scan next p [] p
  | cons {p q n : ℕ} {a : α} {l : List α} (ha : next p = some (a, n))
      (h : Scan next (p + n) l q) : Scan next p (a :: l) q

namespace Scan

variable {next next' : ℕ → Option (α × ℕ)} {p q r n : ℕ} {a : α} {l l' : List α}

theorem append (h : Scan next p l q) (h' : Scan next q l' r) : Scan next p (l ++ l') r := by
  induction h with
  | nil => exact h'
  | cons ha _ ih => exact .cons ha (ih h')

theorem le (h : Scan next p l q) : p ≤ q := by
  induction h with
  | nil => exact Nat.le_refl _
  | cons _ _ ih => exact Nat.le_trans (Nat.le_add_right _ _) ih

/-- Items which are not empty are not more than the bytes. -/
theorem length_le (hpos : ∀ p a n, next p = some (a, n) → 0 < n) (h : Scan next p l q) :
    l.length ≤ q - p := by
  induction h with
  | nil => exact Nat.zero_le _
  | cons ha h ih =>
      have := hpos _ _ _ ha
      have := h.le
      rw [List.length_cons]
      omega

/-- The items have the lengths with which they were read. -/
theorem eq_add_sum (size : α → ℕ) (hsize : ∀ p a n, next p = some (a, n) → n = size a)
    (h : Scan next p l q) : q = p + (l.map size).sum := by
  induction h with
  | nil => rfl
  | cons ha _ ih =>
      rw [ih, hsize _ _ _ ha, List.map_cons, List.sum_cons, Nat.add_assoc]

/-- **The items up to a position where none can be read are unique.** -/
theorem unique (h : Scan next p l q) (hq : next q = none) (h' : Scan next p l' r)
    (hr : next r = none) : l = l' ∧ q = r := by
  induction h generalizing l' with
  | nil =>
      cases h' with
      | nil => exact ⟨rfl, rfl⟩
      | cons ha => cases hq.symm.trans ha
  | cons ha _ ih =>
      cases h' with
      | nil => cases hr.symm.trans ha
      | cons ha' h' =>
          obtain ⟨rfl, rfl⟩ := Prod.mk.inj (Option.some.inj (ha.symm.trans ha'))
          obtain ⟨rfl, rfl⟩ := ih hq h'
          exact ⟨rfl, rfl⟩

/-- Items up to an earlier position are the first ones. -/
theorem isPrefix (h : Scan next p l q) (hq : next q = none) (h' : Scan next p l' r) :
    ∃ l₁, l = l' ++ l₁ ∧ Scan next r l₁ q := by
  induction h' generalizing l with
  | nil => exact ⟨l, rfl, h⟩
  | cons ha' _ ih =>
      cases h with
      | nil => cases hq.symm.trans ha'
      | cons ha h =>
          obtain ⟨rfl, rfl⟩ := Prod.mk.inj (Option.some.inj (ha.symm.trans ha'))
          obtain ⟨l₁, rfl, hl₁⟩ := ih h
          exact ⟨l₁, rfl, hl₁⟩

/-- **Items are read until none can be read.** -/
theorem exists_maximal (next : ℕ → Option (α × ℕ)) {length : ℕ}
    (hnext : ∀ p a n, next p = some (a, n) → 0 < n ∧ p + n ≤ length) (p : ℕ) :
    ∃ l q, Scan next p l q ∧ next q = none := by
  generalize hk : length - p = k
  induction k using Nat.strongRecOn generalizing p with
  | ind k ih =>
      cases ha : next p with
      | none => exact ⟨[], p, .nil _, ha⟩
      | some r =>
          obtain ⟨a, n⟩ := r
          obtain ⟨hpos, hle⟩ := hnext p a n ha
          obtain ⟨l, q, hscan, hq⟩ := ih (length - (p + n)) (by omega) (p + n) rfl
          exact ⟨a :: l, q, .cons ha hscan, hq⟩

/-- Each item was read at some position. -/
theorem exists_of_mem (h : Scan next p l q) (ha : a ∈ l) :
    ∃ p' n, p ≤ p' ∧ p' + n ≤ q ∧ next p' = some (a, n) := by
  induction h with
  | nil => cases ha
  | @cons p q n b l hb h ih =>
      rcases List.mem_cons.mp ha with rfl | ha
      · exact ⟨p, n, Nat.le_refl _, h.le, hb⟩
      · obtain ⟨p', m, hp, hq, ha⟩ := ih ha
        exact ⟨p', m, Nat.le_trans (Nat.le_add_right _ _) hp, hq, ha⟩

/-- Another reader which reads the same items. -/
theorem congr (h : Scan next p l q)
    (heq : ∀ p' a n, p ≤ p' → p' + n ≤ q → next p' = some (a, n) → next' p' = some (a, n)) :
    Scan next' p l q := by
  induction h with
  | nil => exact .nil _
  | cons ha h ih =>
      refine .cons (heq _ _ _ (Nat.le_refl _) h.le ha) (ih fun p' a n hp hq ha' => ?_)
      exact heq p' a n (Nat.le_trans (Nat.le_add_right _ _) hp) hq ha'

/-- The items before the last one. -/
theorem exists_last (h : Scan next p l q) (hne : l ≠ []) : ∃ l₀ a p' n,
    l = l₀ ++ [a] ∧ Scan next p l₀ p' ∧ next p' = some (a, n) ∧ p' + n = q := by
  induction h with
  | nil => exact absurd rfl hne
  | @cons p q n b l hb h ih =>
      cases l with
      | nil =>
          cases h
          exact ⟨[], b, p, n, rfl, .nil _, hb, rfl⟩
      | cons c l =>
          obtain ⟨l₀, a, p', m, heq, h₀, ha, hq⟩ := ih (List.cons_ne_nil _ _)
          exact ⟨b :: l₀, a, p', m, congrArg (b :: ·) heq, .cons hb h₀, ha, hq⟩

end Scan

/-- **A loop over the items before a position.** It fails with `bad` if there is something
which is not an item. -/
def forItems (next : ℕ → Option (α × ℕ)) (bad : ε) (length : ℕ) (body : σ → α → Except ε σ) :
    ℕ → ℕ → σ → Except ε σ
  | 0, p, s => if p < length then .error bad else .ok s
  | fuel + 1, p, s =>
      if p < length then
        match next p with
        | none => .error bad
        | some (a, n) => do
            let s ← body s a
            forItems next bad length body fuel (p + n) s
      else .ok s

variable {next : ℕ → Option (α × ℕ)} {bad : ε} {length : ℕ} {body : σ → α → Except ε σ}

/-- There is nothing to read after the end of the buffer. -/
theorem forItems_of_le {p : ℕ} (h : length ≤ p) (fuel : ℕ) (s : σ) :
    forItems next bad length body fuel p s = .ok s := by
  cases fuel with
  | zero => exact if_neg (by omega)
  | succ fuel => exact if_neg (by omega)

/-- **The loop over items which fill the buffer.** -/
theorem forItems_eq {p fuel : ℕ} {l : List α} (hpos : ∀ p a n, next p = some (a, n) → 0 < n)
    (h : Scan next p l length) (hfuel : length - p ≤ fuel) (s : σ) :
    forItems next bad length body fuel p s = l.foldlM body s := by
  generalize hq : length = q at h
  induction h generalizing fuel s with
  | nil =>
      subst hq
      cases fuel with
      | zero => exact if_neg (Nat.lt_irrefl _)
      | succ fuel => exact if_neg (Nat.lt_irrefl _)
  | @cons p q n a l ha h ih =>
      subst hq
      have hn := hpos _ _ _ ha
      have hle := h.le
      cases fuel with
      | zero => omega
      | succ fuel =>
          rw [forItems, if_pos (by omega), ha, List.foldlM_cons]
          exact congrArg _ (funext fun s => ih (by omega) s rfl)

/-- **A loop which does not fail has read items up to the end of the buffer.** -/
theorem exists_scan (hle : ∀ p a n, next p = some (a, n) → p + n ≤ length) {p fuel : ℕ}
    (hp : p ≤ length) {s s' : σ} (h : forItems next bad length body fuel p s = .ok s') :
    ∃ l, Scan next p l length ∧ l.foldlM body s = .ok s' := by
  induction fuel generalizing p s with
  | zero =>
      rw [forItems] at h
      split at h
      · cases h
      next hge =>
          obtain rfl : p = length := by omega
          exact ⟨[], .nil _, h⟩
  | succ fuel ih =>
      rw [forItems] at h
      split at h
      · split at h
        · cases h
        next a n ha =>
            obtain ⟨s₁, hs₁, h⟩ := bind_eq_ok_iff.mp h
            obtain ⟨l, hscan, hfold⟩ := ih (hle _ _ _ ha) h
            refine ⟨a :: l, .cons ha hscan, ?_⟩
            rw [List.foldlM_cons, hs₁]
            exact hfold
      next hge =>
          obtain rfl : p = length := by omega
          exact ⟨[], .nil _, h⟩

end Chrony.Lib
