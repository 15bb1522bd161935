import Mathlib.Logic.Function.Basic
import Mathlib.Data.Nat.Notation

/-!
# Segments of a Memory

A memory is a function from positions to cells. What is stored from a position on is a list, and
an assignment to a position outside of it does not change it.

## Main results

* `holds_append`: a segment is made of two parts.
* `Holds.update_of_lt`, `Holds.update_of_le`: assignments before and after a segment.
-/

namespace Chrony.Lib

variable {α : Type*} {mem mem' : ℕ → α} {i j : ℕ} {l l₁ l₂ : List α} {a : α}

/-- **The list which is stored from a position on.** -/
def Holds (mem : ℕ → α) : ℕ → List α → Prop
  | _, [] => True
  | i, a :: l => mem i = a ∧ Holds mem (i + 1) l

theorem holds_append : Holds mem i (l₁ ++ l₂) ↔ Holds mem i l₁ ∧ Holds mem (i + l₁.length) l₂ := by
  induction l₁ generalizing i with
  | nil => exact ⟨fun h => ⟨True.intro, h⟩, And.right⟩
  | cons a l₁ ih =>
      rw [List.cons_append, Holds, Holds, ih, and_assoc, List.length_cons, Nat.add_right_comm,
        Nat.add_assoc]

/-- A segment is read at its positions only. -/
theorem Holds.congr (h : Holds mem i l)
    (heq : ∀ k, i ≤ k → k < i + l.length → mem' k = mem k) : Holds mem' i l := by
  induction l generalizing i with
  | nil => exact True.intro
  | cons a l ih =>
      rw [List.length_cons] at heq
      refine ⟨(heq i (Nat.le_refl _) (by omega)).trans h.1, ih h.2 fun k hk hlt => ?_⟩
      exact heq k (by omega) (by omega)

/-- An assignment before a segment. -/
theorem Holds.update_of_lt (h : Holds mem i l) (hj : j < i) :
    Holds (Function.update mem j a) i l :=
  h.congr fun k hk _ => Function.update_of_ne (by omega) a mem

/-- An assignment after a segment. -/
theorem Holds.update_of_le (h : Holds mem i l) (hj : i + l.length ≤ j) :
    Holds (Function.update mem j a) i l :=
  h.congr fun k _ hk => Function.update_of_ne (by omega) a mem

/-- **A segment is extended** by an assignment to the position after it. -/
theorem Holds.push (h : Holds mem i l) (hj : j = i + l.length) :
    Holds (Function.update mem j a) i (l ++ [a]) := by
  subst hj
  refine holds_append.mpr ⟨h.update_of_le (Nat.le_refl _), ?_, True.intro⟩
  exact Function.update_self _ a mem

end Chrony.Lib
