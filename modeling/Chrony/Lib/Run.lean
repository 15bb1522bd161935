import Mathlib.Order.Basic
import Mathlib.Data.Nat.Notation

/-!
# Runs of Fallible Step Functions

A component is modelled by a step function `step : σ → ι → Except ε σ`: an input is
either refused with an error, which ends the run, or leads to the next state. A run
over a list of inputs is `List.foldlM step`. This module collects the induction rules
that turn a fact about one step into a fact about every run.

## Main results

* `foldlM_invariant`: a predicate kept by every successful step holds at the end of
  every successful run.
* `Returns`: postconditions that also say which errors can occur, with the rules for
  sequences (`Returns.bind`) and loops (`Returns.foldlM`, `Returns.foldlM_range`).
-/

namespace Chrony.Lib

universe u

variable {ε ι : Type*} {σ α β : Type u}

/-- A bind succeeds exactly when its first part does and the rest succeeds on the
value passed on. -/
theorem bind_eq_ok_iff {x : Except ε α} {f : α → Except ε β} {b : β} :
    x >>= f = .ok b ↔ ∃ a, x = .ok a ∧ f a = .ok b := by
  cases x with
  | error e => simp [bind, Except.bind]
  | ok a => simp [bind, Except.bind]

/-- A bind fails when its first part fails, or when the rest fails on the value
passed on. -/
theorem bind_eq_error_iff {x : Except ε α} {f : α → Except ε β} {e : ε} :
    x >>= f = .error e ↔ x = .error e ∨ ∃ a, x = .ok a ∧ f a = .error e := by
  cases x with
  | error e' => simp [bind, Except.bind]
  | ok a => simp [bind, Except.bind]

/-- What can be computed from the result of a successful run shows that it is
successful, and what the computed values are. -/
theorem exists_ok_of_map_toOption {x : Except ε α} {f : α → β} {b : β}
    (h : x.toOption.map f = some b) : ∃ a, x = .ok a ∧ f a = b := by
  cases x with
  | error e => simp [Except.toOption] at h
  | ok a => exact ⟨a, rfl, by simpa [Except.toOption] using h⟩

/-- A loop none of whose steps fails. -/
theorem foldlM_eq_ok {step : σ → ι → Except ε σ} {f : σ → ι → σ} {l : List ι}
    (h : ∀ i ∈ l, ∀ s, step s i = .ok (f s i)) (s : σ) : l.foldlM step s = .ok (l.foldl f s) := by
  induction l generalizing s with
  | nil => rfl
  | cons i l ih =>
      rw [List.foldlM_cons, h i (List.mem_cons_self ..), List.foldl_cons]
      exact ih (fun j hj => h j (List.mem_cons_of_mem i hj)) (f s i)

/-- **The invariant rule.** What every successful step keeps holds at the end of every
successful run. -/
theorem foldlM_invariant {step : σ → ι → Except ε σ} {P : σ → Prop}
    (hstep : ∀ s i s', P s → step s i = .ok s' → P s') {l : List ι} {s s' : σ}
    (hs : P s) (h : l.foldlM step s = .ok s') : P s' := by
  induction l generalizing s with
  | nil =>
      rw [List.foldlM_nil] at h
      cases h
      exact hs
  | cons i l ih =>
      rw [List.foldlM_cons, bind_eq_ok_iff] at h
      obtain ⟨t, ht, h⟩ := h
      exact ih (hstep s i t hs ht) h

/-- **Every step of a run satisfies a predicate** of the state before it and its input. -/
def Along (step : σ → ι → Except ε σ) (P : σ → ι → Prop) : σ → List ι → Prop
  | _, [] => True
  | s, i :: l => P s i ∧ ∀ s', step s i = .ok s' → Along step P s' l

/-- The invariant rule for runs whose steps satisfy a predicate. -/
theorem foldlM_invariant_along {step : σ → ι → Except ε σ} {P : σ → ι → Prop} {I : σ → Prop}
    (hstep : ∀ s i s', I s → P s i → step s i = .ok s' → I s') {l : List ι} {s s' : σ}
    (hs : I s) (hP : Along step P s l) (h : l.foldlM step s = .ok s') : I s' := by
  induction l generalizing s with
  | nil =>
      rw [List.foldlM_nil] at h
      cases h
      exact hs
  | cons i l ih =>
      rw [List.foldlM_cons, bind_eq_ok_iff] at h
      obtain ⟨t, ht, h⟩ := h
      exact ih (hstep s i t hs hP.1 ht) (hP.2 t ht) h

/-- **The rule for a loop over a list**, with an invariant that depends on the part of the list
which was visited. No step fails. -/
theorem foldlM_ok_of_prefix {step : σ → ι → Except ε σ} {P : List ι → σ → Prop} {l : List ι}
    (hstep : ∀ l₁ i l₂ s, l = l₁ ++ i :: l₂ → P l₁ s → ∃ s', step s i = .ok s' ∧ P (l₁ ++ [i]) s')
    {s : σ} (hs : P [] s) : ∃ s', l.foldlM step s = .ok s' ∧ P l s' := by
  have hgen : ∀ l₂ l₁ s, l = l₁ ++ l₂ → P l₁ s → ∃ s', l₂.foldlM step s = .ok s' ∧ P l s' := by
    intro l₂
    induction l₂ with
    | nil =>
        intro l₁ s hl h
        rw [hl, List.append_nil]
        exact ⟨s, rfl, h⟩
    | cons i l₂ ih =>
        intro l₁ s hl h
        obtain ⟨s', hs', h'⟩ := hstep l₁ i l₂ s hl h
        obtain ⟨s'', hs'', h''⟩ := ih (l₁ ++ [i]) s' (by rw [hl, List.append_cons]) h'
        refine ⟨s'', ?_, h''⟩
        rw [List.foldlM_cons, hs']
        exact hs''
  exact hgen l [] s rfl hs

/-! ### Postconditions -/

/-- **A postcondition of a fallible computation**: its value satisfies `P`, or its error
is one of those that are allowed. -/
def Returns (allowed : ε → Prop) (x : Except ε α) (P : α → Prop) : Prop :=
  match x with
  | .ok a => P a
  | .error e => allowed e

namespace Returns

variable {allowed : ε → Prop} {P Q : α → Prop}

theorem of_ok {x : Except ε α} {a : α} (h : x = .ok a) (ha : P a) : Returns allowed x P := by
  subst h
  exact ha

theorem value {x : Except ε α} {a : α} (h : Returns allowed x P) (hx : x = .ok a) : P a := by
  subst hx
  exact h

theorem error {x : Except ε α} {e : ε} (h : Returns allowed x P) (hx : x = .error e) :
    allowed e := by
  subst hx
  exact h

theorem mono {x : Except ε α} (h : Returns allowed x P) (hPQ : ∀ a, P a → Q a) :
    Returns allowed x Q := by
  cases x with
  | ok a => exact hPQ a h
  | error e => exact h

/-- More errors may be allowed. -/
theorem weaken {allowed' : ε → Prop} {x : Except ε α} (h : Returns allowed x P)
    (hsub : ∀ e, allowed e → allowed' e) : Returns allowed' x P := by
  cases x with
  | ok a => exact h
  | error e => exact hsub e h

theorem bind {x : Except ε α} {f : α → Except ε β} {R : β → Prop} (hx : Returns allowed x P)
    (hf : ∀ a, P a → Returns allowed (f a) R) : Returns allowed (x >>= f) R := by
  cases x with
  | ok a => exact hf a hx
  | error e => exact hx

theorem map {x : Except ε α} {f : α → β} {R : β → Prop}
    (hx : Returns allowed x fun a => R (f a)) : Returns allowed (x.map f) R := by
  cases x with
  | ok a => exact hx
  | error e => exact hx

/-- What every step keeps holds at the end of a loop. -/
theorem foldlM {step : σ → ι → Except ε σ} {P : σ → Prop}
    (hstep : ∀ s i, P s → Returns allowed (step s i) P) (l : List ι) {s : σ} (hs : P s) :
    Returns allowed (l.foldlM step s) P := by
  induction l generalizing s with
  | nil => exact hs
  | cons i l ih =>
      rw [List.foldlM_cons]
      exact (hstep s i hs).bind fun s' hs' => ih hs'

/-- A loop over the indices below `n`, with an invariant that depends on the index. -/
theorem foldlM_range {step : σ → ℕ → Except ε σ} {P : ℕ → σ → Prop} {n : ℕ}
    (hstep : ∀ i < n, ∀ s, P i s → Returns allowed (step s i) (P (i + 1))) {s : σ}
    (hs : P 0 s) : Returns allowed ((List.range n).foldlM step s) (P n) := by
  induction n with
  | zero => exact hs
  | succ n ih =>
      rw [List.range_succ, List.foldlM_append]
      refine (ih fun i hi => hstep i (by omega)).bind fun s' hs' => ?_
      rw [List.foldlM_cons]
      exact (hstep n (by omega) s' hs').bind fun s'' hs'' => hs''

end Returns

end Chrony.Lib
