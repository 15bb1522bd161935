import Chrony.Lib.Run
import Mathlib.Order.Defs.Unbundled

/-!
# Programs with State and Aborts

Imperative code is modelled by programs which pass a state and can abort. This module has
the rules for their postconditions: `Ends` says what a program does from one state, and a
call is reasoned about by what is known of the called program, not by its text.

A relation between the states before and after a program, which is reflexive and transitive, is
proved for a sequence by proving it for its parts (`Relates`). It says nothing about aborts.

## Main results

* `Program.Ends.bind`: the rule for a sequence of two programs.
* `Program.Relates.bind`: a relation which is kept by two programs is kept by their sequence.
-/

namespace Chrony.Lib

/-- A program over the states `σ`, which can abort with `ε`. -/
abbrev Program (ε σ : Type) := StateT σ (Except ε)

namespace Program

variable {ε σ α β : Type} {allowed : ε → Prop}

/-- **A postcondition of a program from one state**: the program ends with a value and a
state which satisfy it, or aborts in one of the ways that are allowed. -/
def Ends (allowed : ε → Prop) (m : Program ε σ α) (s : σ) (Q : α → σ → Prop) : Prop :=
  Returns allowed (m s) fun r => Q r.1 r.2

/-- An assertion of the source. -/
def assert (e : ε) (p : Prop) [Decidable p] : Program ε σ Unit :=
  if p then pure () else throw e

/-- A statement with a condition. -/
def onlyIf (p : Prop) [Decidable p] (m : Program ε σ Unit) : Program ε σ Unit :=
  if p then m else pure ()

namespace Ends

variable {m : Program ε σ α} {f : α → Program ε σ β} {s : σ} {Q Q' : α → σ → Prop}
  {R : β → σ → Prop}

theorem pure {a : α} (h : Q a s) : Ends allowed (Pure.pure a) s Q :=
  h

theorem mono (h : Ends allowed m s Q) (hQ : ∀ a s', Q a s' → Q' a s') : Ends allowed m s Q' :=
  Returns.mono h fun r => hQ r.1 r.2

/-- **The rule for a sequence.** -/
theorem bind (h : Ends allowed m s Q) (hf : ∀ a s', Q a s' → Ends allowed (f a) s' R) :
    Ends allowed (m >>= f) s R :=
  Returns.bind h fun r hr => hf r.1 r.2 hr

/-- The value of a program is mapped. -/
theorem map {g : α → β} (h : Ends allowed m s fun a => R (g a)) : Ends allowed (g <$> m) s R :=
  Returns.bind h fun _ hr => hr

/-- A program of which the result is known. -/
theorem step {a : α} {s' : σ} (hm : m s = .ok (a, s')) (h : Ends allowed (f a) s' R) :
    Ends allowed (m >>= f) s R := by
  have hbind : (m >>= f) s = f a s' := by
    change (m s >>= _) = _
    rw [hm]
    rfl
  unfold Ends at h ⊢
  rwa [hbind]

/-- An assertion which holds does nothing. -/
theorem assert {e : ε} {p : Prop} [Decidable p] {f : Unit → Program ε σ β} (hp : p)
    (h : Ends allowed (f ()) s R) : Ends allowed (Program.assert e p >>= f) s R := by
  rw [Program.assert, if_pos hp]
  exact h

theorem onlyIf {p : Prop} [Decidable p] {m : Program ε σ Unit} {Q : Unit → σ → Prop}
    (h : p → Ends allowed m s Q) (h' : ¬p → Q () s) : Ends allowed (Program.onlyIf p m) s Q := by
  rw [Program.onlyIf]
  split
  next hp => exact h hp
  next hp => exact h' hp

theorem get {f : σ → Program ε σ β} (h : Ends allowed (f s) s R) :
    Ends allowed (MonadState.get >>= f) s R :=
  h

theorem modify {g : σ → σ} {f : PUnit → Program ε σ β} (h : Ends allowed (f ⟨⟩) (g s) R) :
    Ends allowed (MonadStateOf.modifyGet (fun s => (PUnit.unit, g s)) >>= f) s R :=
  h

/-- Nothing is said about the program. -/
theorem trivial : Ends (fun _ => True) m s fun _ _ => True := by
  unfold Ends
  cases m s <;> exact True.intro

/-- Two postconditions of a program. One of them can say less about aborts. -/
theorem and {allowed' : ε → Prop} (h : Ends allowed m s Q) (h' : Ends allowed' m s Q') :
    Ends allowed m s fun a s' => Q a s' ∧ Q' a s' := by
  unfold Ends at h h' ⊢
  cases hm : m s with
  | error e =>
      rw [hm] at h
      exact h
  | ok r =>
      rw [hm] at h h'
      exact ⟨h, h'⟩

/-- What is known about the result of a program, when it does not abort. -/
theorem value {a : α} {s' : σ} (h : Ends allowed m s Q) (hm : m s = .ok (a, s')) : Q a s' :=
  Returns.value (P := fun r : α × σ => Q r.1 r.2) h hm

end Ends

/-! ### Relations between states -/

/-- **A relation between the states before and after a program**, if it does not abort. -/
def Relates (R : σ → σ → Prop) (m : Program ε σ α) : Prop :=
  ∀ s, Ends (fun _ => True) m s fun _ s' => R s s'

namespace Relates

variable {R R' : σ → σ → Prop} {m : Program ε σ α} {f : α → Program ε σ β}

theorem mono (h : Relates R m) (hR : ∀ s s', R s s' → R' s s') : Relates R' m :=
  fun s => (h s).mono fun _ s' => hR s s'

theorem throw (e : ε) : Relates R (MonadExceptOf.throw e : Program ε σ α) :=
  fun _ => True.intro

theorem modify {g : σ → σ} (h : ∀ s, R s (g s)) :
    Relates R (MonadStateOf.modifyGet fun s => (PUnit.unit, g s) : Program ε σ PUnit) :=
  fun s => h s

theorem ite {p : Prop} [Decidable p] {m' : Program ε σ α} (h : p → Relates R m)
    (h' : ¬p → Relates R m') : Relates R (if p then m else m') := by
  split
  next hp => exact h hp
  next hp => exact h' hp

variable [IsPreorder σ R]

theorem pure (a : α) : Relates R (Pure.pure a : Program ε σ α) :=
  fun s => refl_of R s

/-- **The rule for a sequence.** -/
theorem bind (h : Relates R m) (hf : ∀ a, Relates R (f a)) : Relates R (m >>= f) := by
  intro s
  refine (h s).bind fun a s₁ h₁ => ?_
  exact (hf a s₁).mono fun _ _ h₂ => trans_of R h₁ h₂

theorem onlyIf {p : Prop} [Decidable p] {m : Program ε σ Unit} (h : p → Relates R m) :
    Relates R (onlyIf p m) :=
  ite h fun _ => pure ()

theorem assert (e : ε) (p : Prop) [Decidable p] :
    Relates R (assert e p : Program ε σ Unit) :=
  ite (fun _ => pure ()) fun _ => throw e

end Relates

end Program

end Chrony.Lib
