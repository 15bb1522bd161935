import Mathlib.Algebra.Order.Group.Abs
import Mathlib.Data.List.Pairwise
import Mathlib.Order.Bounds.Defs
import Mathlib.Tactic.Linarith

/-!
# Points at a Distance from Others

A point is moved forward until it is not closer than a distance to any point of a sorted list.
One pass over the list is enough: a point which is moved past one of the others cannot get
close to those before it.

## Main results

* `foldl_pushPast_isLeast`: the pass finds the first point at the distance from all others.
-/

namespace Chrony.Lib

variable {K : Type*} [Field K] [LinearOrder K] [IsStrictOrderedRing K] {separation : K}

/-- A point is moved past another if it is too close to it. -/
def pushPast (separation x d : K) : K := if |x - d| < separation then d + separation else x

theorem le_pushPast (separation x d : K) : x ≤ pushPast separation x d := by
  rw [pushPast]
  split
  next h => linarith [(abs_lt.mp h).2]
  next => exact le_rfl

/-- A point which is not closer to the other one is not passed. -/
theorem pushPast_le {x y d : K} (hxy : x ≤ y) (hd : separation ≤ |y - d|) :
    pushPast separation x d ≤ y := by
  rw [pushPast]
  split
  next h =>
      obtain ⟨hlt, -⟩ := abs_lt.mp h
      rcases le_abs'.mp hd with hle | hle
      · linarith
      · linarith
  next => exact hxy

/-- The distance from a point is kept when later ones are passed. -/
theorem pushPast_far {x d e : K} (hde : d ≤ e) (hd : separation ≤ |x - d|) :
    separation ≤ |pushPast separation x e - d| := by
  rw [pushPast]
  split
  · exact le_abs.mpr (.inl (by linarith))
  · exact hd

theorem pushPast_self (separation x d : K) : separation ≤ |pushPast separation x d - d| := by
  rw [pushPast]
  split
  · exact le_abs.mpr (.inl (by linarith))
  next h => exact not_lt.mp h

/-- A point at the distance from those which were passed stays at the distance. -/
theorem foldl_pushPast_far {l : List K} {x d : K} (hl : ∀ e ∈ l, d ≤ e)
    (hd : separation ≤ |x - d|) : separation ≤ |l.foldl (pushPast separation) x - d| := by
  induction l generalizing x with
  | nil => exact hd
  | cons e l ih =>
      obtain ⟨he, hl⟩ := List.forall_mem_cons.mp hl
      exact ih hl (pushPast_far he hd)

/-- **The pass finds the first point at the distance from all others.** -/
theorem foldl_pushPast_isLeast {l : List K} (hl : l.Pairwise (· ≤ ·)) (separation x : K) :
    IsLeast {y | x ≤ y ∧ ∀ d ∈ l, separation ≤ |y - d|} (l.foldl (pushPast separation) x) := by
  induction l generalizing x with
  | nil => exact ⟨⟨le_rfl, nofun⟩, fun y hy => hy.1⟩
  | cons d l ih =>
      obtain ⟨hd, hl⟩ := List.pairwise_cons.mp hl
      obtain ⟨⟨hle, hfar⟩, hleast⟩ := ih hl (pushPast separation x d)
      refine ⟨⟨(le_pushPast ..).trans hle, ?_⟩, ?_⟩
      · rw [List.foldl_cons]
        exact List.forall_mem_cons.mpr
          ⟨foldl_pushPast_far hd (pushPast_self separation x d), hfar⟩
      · rintro y ⟨hxy, hy⟩
        obtain ⟨hyd, hy⟩ := List.forall_mem_cons.mp hy
        exact hleast ⟨pushPast_le hxy hyd, hy⟩

end Chrony.Lib
