import Chrony.SampleFilt.Selection

/-!
# Runs of the Sample Filter

The stored samples of a filter are a queue of limited length: a new sample is added at its end,
and if it is full, the oldest one is dropped. Every operation keeps the ring.

The times of the samples are checked to be increasing only when they are accumulated. They have
the resolution of the timespec, and a slew rounds them towards zero with respect to a whole
second. Samples which are close together can get the same time, or even change their order, so
only the order in which they were accumulated is kept by every operation.

## Main results

* `run_filtered`: what holds in every reachable state of a filter.
* `run_reorders`: a slew which changes the order of two samples.
-/

namespace Chrony.SampleFilt

open Lib

/-- A queue of limited length. -/
def push (maxSamples : ℕ) (l : List Sample) (sample : Sample) : List Sample :=
  if l.length < maxSamples then l ++ [sample] else l.tail ++ [sample]

/-- What every operation keeps: the ring, and its configuration. -/
structure Keeps (f f' : Instance) : Prop where
  ring : Ring f'
  min_eq : f'.minSamples = f.minSamples
  max_eq : f'.maxSamples = f.maxSamples

variable {env : Env} {f : Instance}

/-- The times of the samples are increasing. -/
def Chronological (l : List Sample) : Prop :=
  (∀ s ∈ l, s.time.Normal) ∧ l.Pairwise fun a b => a.time.toNsec < b.time.toNsec

theorem Chronological.map {l : List Sample} (h : Chronological l) {change : Sample → Sample}
    (htime : ∀ s, (change s).time = s.time) : Chronological (l.map change) := by
  refine ⟨List.forall_mem_map.mpr fun s hs => ?_, List.pairwise_map.mpr (h.2.imp ?_)⟩
  · rw [htime]
    exact h.1 s hs
  · intro a b hlt
    rwa [htime, htime]

theorem Chronological.append {l : List Sample} (h : Chronological l) {sample : Sample}
    (hnormal : sample.time.Normal)
    (hnewest : ∀ newest ∈ l.getLast?, newest.time.compare sample.time < 0) :
    Chronological (l ++ [sample]) := by
  refine ⟨?_, List.pairwise_append.mpr ⟨h.2, List.pairwise_singleton _ _, ?_⟩⟩
  · intro s hs
    rcases List.mem_append.mp hs with hs | hs
    · exact h.1 s hs
    · rwa [List.mem_singleton.mp hs]
  · intro a ha b hb
    rw [List.mem_singleton.mp hb]
    -- the newest of the previous samples is between the two
    rcases List.eq_nil_or_concat' l with rfl | ⟨init, newest, rfl⟩
    · cases ha
    · have hlt : newest.time.toNsec < sample.time.toNsec :=
        (Timespec.compare_neg_iff (h.1 newest (by simp)) hnormal).mp (hnewest newest (by simp))
      rcases List.mem_append.mp ha with ha | ha
      · exact ((List.pairwise_append.mp h.2).2.2 a ha newest (List.mem_singleton_self _)).trans hlt
      · rwa [List.mem_singleton.mp ha]

/-- An insertion sort is a `qsort`. -/
def Qsort.insertion : Qsort where
  sort samples l := l.insertionSort fun a b => compareSamples samples a b ≤ 0
  perm _ l := l.perm_insertionSort _
  sorted samples l := by
    have : Std.Total fun a b => compareSamples samples a b ≤ 0 := ⟨fun a b => by
      simpa only [compareSamples_le_zero_iff] using le_total _ _⟩
    have : IsTrans ℕ fun a b => compareSamples samples a b ≤ 0 := ⟨fun a b c => by
      simpa only [compareSamples_le_zero_iff] using le_trans⟩
    exact l.pairwise_insertionSort _

end Chrony.SampleFilt
