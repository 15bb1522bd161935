import Mathlib.Data.Finset.Card
import Mathlib.Order.Lattice

/-!
# Sweeps over the Endpoints of Intervals

The endpoints of a finite family of closed intervals are visited in the order of their
offsets, with the low endpoints first where offsets are equal. An interval is active when
its low endpoint was visited and its high endpoint was not.

## Main results

* `active_low`, `active_high`: how one endpoint changes the active intervals.
* `active_all`: no interval is active at the end.
* `mem_Icc_of_mem_active`: what is active after a low endpoint contains its offset.
-/

namespace Chrony.Lib.IntervalSweep

/-- The two kinds of endpoints. -/
inductive Tag
  | low
  | high
  deriving DecidableEq, Repr

/-- An endpoint of the interval with an index. -/
structure Endpoint (ι α : Type*) where
  index : ι
  offset : α
  tag : Tag
  deriving DecidableEq, Repr

section Order

variable {ι α : Type*} [LinearOrder α]

/-- The order in which endpoints are visited. -/
def Endpoint.LE (u v : Endpoint ι α) : Prop :=
  u.offset < v.offset ∨ u.offset = v.offset ∧ (u.tag = .low ∨ v.tag = .high)

theorem Endpoint.LE.total (u v : Endpoint ι α) : u.LE v ∨ v.LE u := by
  rcases lt_trichotomy u.offset v.offset with hlt | heq | hgt
  · exact .inl (.inl hlt)
  · cases hu : u.tag with
    | low => exact .inl (.inr ⟨heq, .inl hu⟩)
    | high => exact .inr (.inr ⟨heq.symm, .inr hu⟩)
  · exact .inr (.inl hgt)

theorem Endpoint.LE.trans {u v w : Endpoint ι α} (huv : u.LE v) (hvw : v.LE w) : u.LE w := by
  rcases huv with hlt | ⟨heq, htag⟩
  · rcases hvw with hlt' | ⟨heq', -⟩
    · exact .inl (hlt.trans hlt')
    · exact .inl (hlt.trans_eq heq')
  · rcases hvw with hlt' | ⟨heq', htag'⟩
    · exact .inl (heq.trans_lt hlt')
    · refine .inr ⟨heq.trans heq', ?_⟩
      rcases htag with hu | hv
      · exact .inl hu
      · exact .inr (htag'.resolve_left (by rw [hv]; exact Tag.noConfusion))

/-- **The list has the endpoints of the intervals `[lo i, hi i]` in the order of visits.** -/
structure Sorted (s : Finset ι) (lo hi : ι → α) (l : List (Endpoint ι α)) : Prop where
  low_mem : ∀ i ∈ s, ⟨i, lo i, .low⟩ ∈ l
  high_mem : ∀ i ∈ s, ⟨i, hi i, .high⟩ ∈ l
  eq_of_mem : ∀ e ∈ l, e.index ∈ s ∧ (e = ⟨e.index, lo e.index, .low⟩ ∨
    e = ⟨e.index, hi e.index, .high⟩)
  nodup : l.Nodup
  sorted : l.Pairwise Endpoint.LE
  lo_le_hi : ∀ i ∈ s, lo i ≤ hi i

variable {s : Finset ι} {lo hi : ι → α} {l l₁ l₂ : List (Endpoint ι α)} {e : Endpoint ι α}

namespace Sorted

theorem eq_low (h : Sorted s lo hi l) (he : e ∈ l) (htag : e.tag = .low) :
    e = ⟨e.index, lo e.index, .low⟩ := by
  rcases (h.eq_of_mem e he).2 with heq | heq
  · exact heq
  · rw [heq] at htag
    cases htag

theorem eq_high (h : Sorted s lo hi l) (he : e ∈ l) (htag : e.tag = .high) :
    e = ⟨e.index, hi e.index, .high⟩ := by
  rcases (h.eq_of_mem e he).2 with heq | heq
  · rw [heq] at htag
    cases htag
  · exact heq

/-- The low endpoint of an interval is never after the high one. -/
theorem not_high_le_low (h : Sorted s lo hi l) {i : ι} (hi' : i ∈ s) :
    ¬Endpoint.LE (⟨i, hi i, .high⟩ : Endpoint ι α) ⟨i, lo i, .low⟩ := by
  rintro (hlt | ⟨-, htag | htag⟩)
  · exact absurd (h.lo_le_hi i hi') (not_le.mpr hlt)
  · cases htag
  · cases htag

/-- Endpoints visited before come first in the order. -/
theorem le_of_mem (h : Sorted s lo hi (l₁ ++ e :: l₂)) {e' : Endpoint ι α} (he' : e' ∈ l₁) :
    e'.LE e :=
  (List.pairwise_append.mp h.sorted).2.2 e' he' e List.mem_cons_self

theorem not_mem (h : Sorted s lo hi (l₁ ++ e :: l₂)) : e ∉ l₁ := by
  intro he
  exact (List.nodup_append.mp h.nodup).2.2 e he e List.mem_cons_self rfl

theorem mem_self (_h : Sorted s lo hi (l₁ ++ e :: l₂)) : e ∈ l₁ ++ e :: l₂ :=
  List.mem_append_right _ List.mem_cons_self

end Sorted

end Order

section Visited

variable {ι α : Type*} [DecidableEq ι]

/-- The intervals with a visited endpoint of a kind. -/
def visited (tag : Tag) (l : List (Endpoint ι α)) : Finset ι :=
  ((l.filter fun e => e.tag = tag).map Endpoint.index).toFinset

/-- The active intervals after the endpoints `l` were visited. -/
def active (l : List (Endpoint ι α)) : Finset ι :=
  visited .low l \ visited .high l

theorem mem_visited {tag : Tag} {l : List (Endpoint ι α)} {i : ι} :
    i ∈ visited tag l ↔ ∃ e ∈ l, e.tag = tag ∧ e.index = i := by
  simp only [visited, List.mem_toFinset, List.mem_map, List.mem_filter, decide_eq_true_eq,
    and_assoc]

theorem mem_visited_append {tag : Tag} {l : List (Endpoint ι α)} {e : Endpoint ι α} {i : ι} :
    i ∈ visited tag (l ++ [e]) ↔ i ∈ visited tag l ∨ e.tag = tag ∧ e.index = i := by
  simp only [mem_visited, List.mem_append, List.mem_singleton]
  constructor
  · rintro ⟨e', he' | rfl, h⟩
    · exact .inl ⟨e', he', h⟩
    · exact .inr h
  · rintro (⟨e', he', h⟩ | h)
    · exact ⟨e', .inl he', h⟩
    · exact ⟨e, .inr rfl, h⟩

@[simp] theorem active_nil : active ([] : List (Endpoint ι α)) = ∅ := rfl

end Visited

section Sweep

variable {ι α : Type*} [DecidableEq ι] [LinearOrder α]

variable {s : Finset ι} {lo hi : ι → α} {l l₁ l₂ : List (Endpoint ι α)} {e : Endpoint ι α}

namespace Sorted

/-- A low endpoint is visited before the high one. -/
theorem index_notMem_high (h : Sorted s lo hi (l₁ ++ e :: l₂)) (htag : e.tag = .low) :
    e.index ∉ visited .high l₁ := by
  rw [mem_visited]
  rintro ⟨e', he', htag', hindex⟩
  have hle := h.le_of_mem he'
  rw [h.eq_low h.mem_self htag, h.eq_high (List.mem_append_left _ he') htag', hindex] at hle
  exact h.not_high_le_low (h.eq_of_mem e h.mem_self).1 hle

theorem index_notMem (h : Sorted s lo hi (l₁ ++ e :: l₂)) : e.index ∉ visited e.tag l₁ := by
  rw [mem_visited]
  rintro ⟨e', he', htag', hindex⟩
  have hmem' := List.mem_append_left (e :: l₂) he'
  refine h.not_mem ?_
  cases htag : e.tag with
  | low =>
      rw [h.eq_low h.mem_self htag, ← hindex, ← h.eq_low hmem' (htag'.trans htag)]
      exact he'
  | high =>
      rw [h.eq_high h.mem_self htag, ← hindex, ← h.eq_high hmem' (htag'.trans htag)]
      exact he'

/-- **A low endpoint starts its interval.** -/
theorem active_low (h : Sorted s lo hi (l₁ ++ e :: l₂)) (htag : e.tag = .low) :
    e.index ∉ active l₁ ∧ active (l₁ ++ [e]) = insert e.index (active l₁) := by
  have hlow := h.index_notMem
  have hhigh := h.index_notMem_high htag
  rw [htag] at hlow
  refine ⟨fun hmem => hlow (Finset.mem_sdiff.mp hmem).1, ?_⟩
  ext i
  rw [active, Finset.mem_sdiff, mem_visited_append, mem_visited_append, Finset.mem_insert,
    active, Finset.mem_sdiff]
  constructor
  · rintro ⟨hl | ⟨-, rfl⟩, hh⟩
    · exact .inr ⟨hl, fun hi => hh (.inl hi)⟩
    · exact .inl rfl
  · rintro (rfl | ⟨hl, hh⟩)
    · refine ⟨.inr ⟨htag, rfl⟩, ?_⟩
      rintro (hi | ⟨htag', -⟩)
      · exact hhigh hi
      · rw [htag] at htag'
        cases htag'
    · refine ⟨.inl hl, ?_⟩
      rintro (hi | ⟨htag', -⟩)
      · exact hh hi
      · rw [htag] at htag'
        cases htag'

/-- **A high endpoint ends its interval.** -/
theorem active_high (h : Sorted s lo hi (l₁ ++ e :: l₂)) (htag : e.tag = .high) :
    e.index ∈ active l₁ ∧ active (l₁ ++ [e]) = (active l₁).erase e.index := by
  have hhigh := h.index_notMem
  rw [htag] at hhigh
  have hs := (h.eq_of_mem e h.mem_self).1
  have hlow : e.index ∈ visited .low l₁ := by
    rw [mem_visited]
    refine ⟨⟨e.index, lo e.index, .low⟩, ?_, rfl, rfl⟩
    rcases List.mem_append.mp (h.low_mem e.index hs) with hmem | hmem
    · exact hmem
    · exfalso
      rcases List.mem_cons.mp hmem with heq | hmem
      · rw [← heq] at htag
        cases htag
      · have hle := (List.pairwise_cons.mp (List.pairwise_append.mp h.sorted).2.1).1 _ hmem
        rw [h.eq_high h.mem_self htag] at hle
        exact h.not_high_le_low hs hle
  refine ⟨Finset.mem_sdiff.mpr ⟨hlow, hhigh⟩, ?_⟩
  ext i
  rw [active, Finset.mem_sdiff, mem_visited_append, mem_visited_append, Finset.mem_erase,
    active, Finset.mem_sdiff]
  constructor
  · rintro ⟨hl | ⟨htag', -⟩, hh⟩
    · exact ⟨fun hi => hh (.inr ⟨htag, hi.symm⟩), hl, fun hi => hh (.inl hi)⟩
    · rw [htag] at htag'
      cases htag'
  · rintro ⟨hne, hl, hh⟩
    refine ⟨.inl hl, ?_⟩
    rintro (hi | ⟨-, rfl⟩)
    · exact hh hi
    · exact hne rfl

/-- No interval is active at the end. -/
theorem active_all (h : Sorted s lo hi l) : active l = ∅ := by
  rw [active, Finset.sdiff_eq_empty_iff_subset]
  intro i hi'
  obtain ⟨e, he, -, rfl⟩ := mem_visited.mp hi'
  exact mem_visited.mpr ⟨_, h.high_mem _ (h.eq_of_mem e he).1, rfl, rfl⟩

/-- **The intervals which are active after a low endpoint contain its offset.** -/
theorem mem_Icc_of_mem_active (h : Sorted s lo hi (l₁ ++ e :: l₂)) (htag : e.tag = .low) {i : ι}
    (hi' : i ∈ active (l₁ ++ [e])) : i ∈ s ∧ lo i ≤ e.offset ∧ e.offset ≤ hi i := by
  rw [active, Finset.mem_sdiff] at hi'
  obtain ⟨hlow, hhigh⟩ := hi'
  obtain ⟨e', he', htag', rfl⟩ := mem_visited.mp hlow
  have hmem' : e' ∈ l₁ ++ e :: l₂ := by
    rcases List.mem_append.mp he' with he' | he'
    · exact List.mem_append_left _ he'
    · rw [List.mem_singleton.mp he']
      exact h.mem_self
  have hs := (h.eq_of_mem e' hmem').1
  refine ⟨hs, ?_, ?_⟩
  · rcases List.mem_append.mp he' with he' | he'
    · have hle := h.le_of_mem he'
      rw [h.eq_low hmem' htag'] at hle
      rcases hle with hlt | ⟨heq, -⟩
      · exact hlt.le
      · exact heq.le
    · rw [List.mem_singleton.mp he', h.eq_low h.mem_self htag]
  · rcases List.mem_append.mp (h.high_mem e'.index hs) with hmem | hmem
    · exact absurd (mem_visited.mpr ⟨_, List.mem_append_left [e] hmem, rfl, rfl⟩) hhigh
    · rcases List.mem_cons.mp hmem with heq | hmem
      · rw [← heq] at htag
        cases htag
      · have hle := (List.pairwise_cons.mp (List.pairwise_append.mp h.sorted).2.1).1 _ hmem
        rcases hle with hlt | ⟨heq, -⟩
        · exact hlt.le
        · exact heq.le

end Sorted

end Sweep

end Chrony.Lib.IntervalSweep
