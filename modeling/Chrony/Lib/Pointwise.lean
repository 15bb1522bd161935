import Mathlib.Data.List.Basic

/-!
# Pointwise Changes of Tables

A pass over a table changes each entry on its own: the new table has the same length, and a
relation holds between the old and new entry at each position.

## Main results

* `Pointwise.of_mapIdx`, `Pointwise.of_map`: passes as maps.
* `Pointwise.trans`: two passes after each other.
-/

namespace Chrony.Lib

variable {α : Type*}

/-- **The entries of two tables are related position by position.** -/
def Pointwise (R : ℕ → α → α → Prop) (l l' : List α) : Prop :=
  l'.length = l.length ∧ ∀ i a b, l[i]? = some a → l'[i]? = some b → R i a b

namespace Pointwise

variable {R S : ℕ → α → α → Prop} {l l' l'' : List α} {i : ℕ} {a b : α}

theorem refl (h : ∀ i a, R i a a) (l : List α) : Pointwise R l l := by
  refine ⟨rfl, ?_⟩
  intro i a b ha hb
  rw [ha] at hb
  cases hb
  exact h i a

theorem of_mapIdx {f : ℕ → α → α} (h : ∀ i a, l[i]? = some a → R i a (f i a)) :
    Pointwise R l (l.mapIdx f) := by
  refine ⟨List.length_mapIdx, ?_⟩
  intro i a b ha hb
  rw [List.getElem?_mapIdx, ha] at hb
  cases hb
  exact h i a ha

theorem of_map {f : α → α} (h : ∀ i a, l[i]? = some a → R i a (f a)) :
    Pointwise R l (l.map f) := by
  refine ⟨List.length_map _, ?_⟩
  intro i a b ha hb
  rw [List.getElem?_map, ha] at hb
  cases hb
  exact h i a ha

/-- Only one entry changes. -/
theorem of_set (hrefl : ∀ j a, R j a a) (h : ∀ a, l[i]? = some a → R i a b) :
    Pointwise R l (l.set i b) := by
  refine ⟨List.length_set, ?_⟩
  intro j a c ha hc
  rw [List.getElem?_set] at hc
  by_cases hij : i = j
  · subst hij
    rw [if_pos rfl, if_pos (List.getElem?_eq_some_iff.mp ha).1] at hc
    cases hc
    exact h a ha
  · rw [if_neg hij, ha] at hc
    cases hc
    exact hrefl j a

/-- Only one entry is modified. -/
theorem of_modify {f : α → α} (hrefl : ∀ j a, R j a a) (h : ∀ a, l[i]? = some a → R i a (f a)) :
    Pointwise R l (l.modify i f) := by
  refine ⟨List.length_modify .., ?_⟩
  intro j a b ha hb
  rw [List.getElem?_modify, ha] at hb
  cases hb
  dsimp only
  by_cases hij : i = j
  · subst hij
    rw [if_pos rfl]
    exact h a ha
  · rw [if_neg hij]
    exact hrefl j a

theorem mono (h : Pointwise R l l') (hRS : ∀ i a b, l[i]? = some a → R i a b → S i a b) :
    Pointwise S l l' :=
  ⟨h.1, fun i a b ha hb => hRS i a b ha (h.2 i a b ha hb)⟩

/-- The old entry at a position of the new table. -/
theorem exists_left (h : Pointwise R l l') (hb : l'[i]? = some b) :
    ∃ a, l[i]? = some a ∧ R i a b := by
  have hlt : i < l.length := h.1 ▸ (List.getElem?_eq_some_iff.mp hb).1
  exact ⟨l[i], List.getElem?_eq_getElem hlt, h.2 i _ b (List.getElem?_eq_getElem hlt) hb⟩

/-- The new entry at a position of the old table. -/
theorem exists_right (h : Pointwise R l l') (ha : l[i]? = some a) :
    ∃ b, l'[i]? = some b ∧ R i a b := by
  have hlt : i < l'.length := h.1.symm ▸ (List.getElem?_eq_some_iff.mp ha).1
  exact ⟨l'[i], List.getElem?_eq_getElem hlt, h.2 i a _ ha (List.getElem?_eq_getElem hlt)⟩

/-- One pass after another. -/
theorem trans {T : ℕ → α → α → Prop} (h : Pointwise R l l') (h' : Pointwise S l' l'')
    (hT : ∀ i a b c, R i a b → S i b c → T i a c) : Pointwise T l l'' := by
  refine ⟨h'.1.trans h.1, ?_⟩
  intro i a c ha hc
  obtain ⟨b, hb, hS⟩ := h'.exists_left hc
  exact hT i a b c (h.2 i a b ha hb) hS

/-- What holds of every new entry. -/
theorem forall_mem {P : α → Prop} (h : Pointwise R l l') (hP : ∀ i a b, a ∈ l → R i a b → P b) :
    ∀ b ∈ l', P b := by
  intro b hb
  obtain ⟨i, hi⟩ := List.mem_iff_getElem?.mp hb
  obtain ⟨a, ha, hR⟩ := h.exists_left hi
  exact hP i a b (List.mem_of_getElem? ha) hR

/-- What is the same in related entries is the same list for both tables. -/
theorem map_eq {β : Type*} {f : α → β} (h : Pointwise R l l')
    (hf : ∀ i a b, R i a b → f b = f a) : l'.map f = l.map f := by
  refine List.ext_getElem? fun i => ?_
  rw [List.getElem?_map, List.getElem?_map]
  cases ha : l[i]? with
  | none =>
      have hlen : l.length ≤ i := List.getElem?_eq_none_iff.mp ha
      rw [List.getElem?_eq_none (h.1 ▸ hlen)]
  | some a =>
      obtain ⟨b, hb, hR⟩ := h.exists_right ha
      rw [hb, Option.map_some, Option.map_some, hf i a b hR]

end Pointwise

end Chrony.Lib
