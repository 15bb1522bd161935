import Chrony.ClientLog.Search

/-!
# Saving Timestamps

New timestamps are appended, inserted close to the end, or put in place of older ones,
after timestamps in distant future are trimmed. In every case what remains is a sublist of
the trimmed timestamps with the new ones inserted at the point found by the search
(`makeRoom_spec`), which is why the order is kept.

## Main results

* `run_timestampMap`: in every run the map keeps its invariant, under which the search
  agrees with a linear scan.
-/

namespace Chrony.ClientLog

open Lib Lib.WrapOrder

/-! ### Insertions in lists -/

section Lists

variable {α : Type*} {l : List α} {i : ℕ}

/-- Dropping the first element makes room for an insertion. -/
theorem tail_insertIdx_sublist (h : i ≤ l.length) (a : α) :
    (l.tail.insertIdx (i - 1) a).Sublist (l.insertIdx i a) := by
  cases l with
  | nil =>
      obtain rfl : i = 0 := by simpa using h
      exact List.Sublist.refl _
  | cons b l =>
      cases i with
      | zero => exact (List.sublist_cons_self b l).cons_cons a
      | succ i => exact List.sublist_cons_self b _

/-- Replacing the element before an insertion. -/
theorem set_sublist_insertIdx (h : i < l.length) (a : α) :
    (l.set (i - 1) a).Sublist (l.insertIdx i a) := by
  induction l generalizing i with
  | nil => simp at h
  | cons b l ih =>
      match i with
      | 0 => exact (List.sublist_cons_self b l).cons_cons a
      | 1 =>
          cases l with
          | nil => simp at h
          | cons c l => exact List.sublist_cons_self b _
      | i + 2 => exact (ih (i := i + 1) (Nat.lt_of_succ_lt_succ h)).cons_cons b

theorem insertIdx_eq_take_append_drop (h : i ≤ l.length) (a : α) :
    l.insertIdx i a = l.take i ++ a :: l.drop i := by
  induction l generalizing i with
  | nil =>
      obtain rfl : i = 0 := by simpa using h
      rfl
  | cons b l ih =>
      cases i with
      | zero => rfl
      | succ i => simp [ih (Nat.le_of_succ_le_succ h)]

end Lists

namespace TimestampMap

variable {m : TimestampMap} {rx : BitVec 64} {k index : ℕ}

/-! ### Changes of the array -/

theorem entries_setNtpTss (hk : m.maxSize = 2 ^ k) (hsize : m.size ≤ m.maxSize)
    (hi : index < m.size) (tss : NtpTimestamps) :
    (m.setNtpTss index tss).entries = m.entries.set index tss := by
  rw [entries, setNtpTss, slot_eq_pos hk]
  exact RingBuffer.view_update _ _ (by omega) hsize

/-- The loop which makes room. -/
theorem moveTss_eq (hk : m.maxSize = 2 ^ k) (index n : ℕ) :
    m.moveTss index n =
      { m with timestamps := RingBuffer.shift m.first m.maxSize index m.timestamps n } := by
  induction n generalizing m with
  | zero => rfl
  | succ n ih =>
      rw [moveTss, RingBuffer.shift]
      by_cases hlt : n + 1 > index
      · rw [if_pos hlt, if_pos hlt, ih (by exact hk)]
        simp only [setNtpTss, getNtpTss, slot_eq_pos hk]
      · rw [if_neg hlt, if_neg hlt]

/-- What is left after trimming timestamps in distant future. -/
theorem trimmedSize_spec (m : TimestampMap) (rx : BitVec 64) {index n : ℕ} (hi : index ≤ n) :
    index ≤ m.trimmedSize rx index n ∧ m.trimmedSize rx index n ≤ n ∧
      (index < m.trimmedSize rx index n →
        dist rx (m.rxAt (m.trimmedSize rx index n - 1)) ≤ 2 ^ 32) := by
  induction n with
  | zero =>
      rw [trimmedSize]
      omega
  | succ n ih =>
      rw [trimmedSize]
      by_cases htrim : index < n + 1 ∧ (m.getNtpTss n).rxTs - rx > futureLimit
      · rw [if_pos htrim]
        have := ih (by omega)
        exact ⟨this.1, by omega, this.2.2⟩
      · rw [if_neg htrim]
        refine ⟨hi, le_refl _, fun hlt => ?_⟩
        have hle : (m.rxAt n - rx) ≤ futureLimit := by
          rw [← BitVec.not_lt]
          exact fun h => htrim ⟨hlt, h⟩
        exact BitVec.le_def.mp hle

theorem moveTss_of_le {n : ℕ} (h : n ≤ index) : m.moveTss index n = m := by
  cases n with
  | zero => rfl
  | succ n => rw [moveTss, if_neg (by omega)]

/-! ### Making room -/

/-- Only the timestamps and the cache of the map change. -/
def SameClock (m m' : TimestampMap) : Prop :=
  m'.active = m.active ∧ m'.allocated = m.allocated ∧ m'.maxSize = m.maxSize ∧
    m'.slewEpoch = m.slewEpoch

/-- There is room at `j` for new timestamps. When they are written, what the map holds is
a sublist of the given timestamps with the new ones inserted at `index`. -/
structure Room (m : TimestampMap) (l : List NtpTimestamps) (index : ℕ)
    (room : ℕ × TimestampMap) : Prop where
  same : m.SameClock room.2
  lt_size : room.1 < room.2.size
  size_le : room.2.size ≤ room.2.maxSize
  sublist : ∀ tss, (room.2.setNtpTss room.1 tss).entries.Sublist (l.insertIdx index tss)

/-- Room is made by a longer sequence, or by dropping the oldest timestamps. -/
theorem pushNtpTss_room (hk : m.maxSize = 2 ^ k) (hsize : m.size ≤ m.maxSize)
    (hi : index ≤ m.size) :
    m.Room m.entries index ((m.pushNtpTss index).1,
      (m.pushNtpTss index).2.moveTss (m.pushNtpTss index).1 ((m.pushNtpTss index).2.size - 1)) := by
  have hpos : 0 < m.maxSize := by
    rw [hk]
    exact Nat.two_pow_pos k
  rw [pushNtpTss]
  by_cases hfull : m.size < m.maxSize
  · rw [if_pos hfull]
    dsimp only
    rw [moveTss_eq (by exact hk), Nat.add_sub_cancel]
    refine ⟨⟨rfl, rfl, rfl, rfl⟩, Nat.lt_succ_of_le hi, hfull, fun tss => ?_⟩
    rw [setNtpTss, slot_eq_pos (by exact hk), entries]
    dsimp only
    rw [RingBuffer.view_shift _ _ hfull hi]
    exact List.Sublist.refl _
  · rw [if_neg hfull]
    obtain ⟨size, hs⟩ : ∃ size, m.size = size + 1 := ⟨m.size - 1, by omega⟩
    have hindex : (if index > 0 then index - 1 else index) = index - 1 := by
      split <;> omega
    rw [hindex]
    dsimp only
    rw [moveTss_eq (by exact hk), hs, Nat.add_sub_cancel]
    refine ⟨⟨rfl, rfl, rfl, rfl⟩, by dsimp only; omega, by dsimp only; omega, fun tss => ?_⟩
    rw [setNtpTss, slot_eq_pos (by exact hk), entries, entries]
    dsimp only
    rw [hs, RingBuffer.view_shift _ _ (by omega) (by omega), RingBuffer.view_advance]
    refine tail_insertIdx_sublist ?_ tss
    rw [RingBuffer.length_view]
    omega

/-- **Making room for new timestamps** keeps what the trimming leaves in order. -/
theorem makeRoom_room (rx : BitVec 64) (hk : m.maxSize = 2 ^ k) (hsize : m.size ≤ m.maxSize)
    (hi : index ≤ m.size) :
    m.Room (m.entries.take (m.trimmedSize rx index m.size)) index (makeRoom m rx index) := by
  rw [makeRoom]
  set n := m.trimmedSize rx index m.size with hn
  obtain ⟨hin, hnm, -⟩ := trimmedSize_spec m rx hi
  rw [← hn] at hin hnm
  by_cases hend : index = m.size
  · -- nothing is trimmed and nothing has to be moved
    have hle : (m.pushNtpTss index).2.size - 1 ≤ (m.pushNtpTss index).1 := by
      rw [pushNtpTss]
      split
      · dsimp only
        omega
      · dsimp only
        split <;> omega
    have hroom := pushNtpTss_room hk hsize hi
    rw [moveTss_of_le hle] at hroom
    rw [if_pos hend, List.take_of_length_le (by rw [length_entries]; omega)]
    exact hroom
  rw [if_neg hend]
  have htake : m.entries.take n = entries { m with size := n } :=
    RingBuffer.take_view _ hnm
  dsimp only
  rw [htake]
  by_cases hnear : index + insertLimit ≥ n
  · rw [if_pos hnear]
    have hroom := pushNtpTss_room (m := { m with size := n }) hk (by dsimp only; omega) hin
    exact ⟨hroom.same, hroom.lt_size, hroom.size_le, hroom.sublist⟩
  · rw [if_neg hnear]
    have hindex : (if index > 0 then index - 1 else index) = index - 1 := by
      split <;> omega
    rw [hindex]
    rw [insertLimit] at hnear
    refine ⟨⟨rfl, rfl, rfl, rfl⟩, by dsimp only; omega, by dsimp only; omega, fun tss => ?_⟩
    dsimp only
    rw [entries_setNtpTss (by exact hk) (by dsimp only; omega) (by dsimp only; omega)]
    refine set_sublist_insertIdx ?_ tss
    rw [length_entries]
    dsimp only
    omega

/-! ### The order -/

theorem pairwise_entries_iff (hk : m.maxSize = 2 ^ k) :
    m.entries.Pairwise (fun a b => Before a.rxTs b.rxTs) ↔ Increasing m.rxAt m.size := by
  rw [List.pairwise_iff_getElem]
  constructor
  · intro h i j hij hj
    have := h i j (by rw [length_entries]; omega) (by rwa [length_entries]) hij
    rwa [getElem_entries hk, getElem_entries hk] at this
  · intro h i j hi hj hij
    rw [getElem_entries hk, getElem_entries hk]
    exact h i j hij (by rwa [length_entries] at hj)

theorem MapInvariant.of_entries (hactive : m.active = true) (halloc : m.allocated = true)
    (hk : m.maxSize = 2 ^ k) (hsize : m.size ≤ m.maxSize)
    (hne : ∀ tss ∈ m.entries, tss.rxTs ≠ 0)
    (hord : m.entries.Pairwise fun a b => Before a.rxTs b.rxTs)
    (hcache : m.cachedIndex < m.size ∧ m.rxAt m.cachedIndex = m.cachedRxTs) :
    m.MapInvariant where
  capacity := by
    rw [if_pos hactive]
    exact ⟨k, hk⟩
  unallocated h := by
    rw [halloc] at h
    cases h
  size_le := hsize
  nonzero i hi := by
    have hlt : i < m.entries.length := by rwa [length_entries]
    have := hne _ (List.getElem_mem hlt)
    rwa [getElem_entries hk] at this
  increasing := (pairwise_entries_iff hk).mp hord
  cached _ := hcache

/-- The timestamps left at and after the insertion point are after the new one. At the
start of the map this is what the trimming of distant future is for. -/
theorem InsertionPoint.before_of_trimmed (hinc : Increasing m.rxAt m.size)
    (h : m.InsertionPoint rx index) {i : ℕ} (hi : index ≤ i)
    (hlt : i < m.trimmedSize rx index m.size) : Before rx (m.rxAt i) := by
  obtain ⟨-, hnm, hfuture⟩ := trimmedSize_spec m rx h.index_le
  set n := m.trimmedSize rx index m.size
  rcases Nat.eq_zero_or_pos index with rfl | hpos
  · have hrx := toInt_sub_neg_iff.mp (h.oldest rfl (by omega))
    have hlast := hinc.two_mul_dist_lt (show n - 1 < m.size by omega)
    have hle := hinc.dist_le_dist (show i ≤ n - 1 by omega) (by omega)
    have hn : dist rx (m.rxAt (n - 1)) ≤ 2 ^ 32 := hfuture (by omega)
    rw [dist_eq_add (show dist (m.rxAt 0) (m.rxAt (n - 1)) < dist (m.rxAt 0) rx by omega)] at hn
    have hrx_lt := dist_lt (m.rxAt 0) rx
    rw [before_iff,
      dist_eq_add (show dist (m.rxAt 0) (m.rxAt i) < dist (m.rxAt 0) rx by omega)]
    omega
  · exact h.after hpos i hi (by omega)

/-- **An insertion at the point found by the search keeps the order** of the timestamps
left after the trimming. -/
theorem InsertionPoint.pairwise_insertIdx (hk : m.maxSize = 2 ^ k)
    (hinc : Increasing m.rxAt m.size) (h : m.InsertionPoint rx index) {tss : NtpTimestamps}
    (htss : tss.rxTs = rx) :
    ((m.entries.take (m.trimmedSize rx index m.size)).insertIdx index tss).Pairwise
      fun a b => Before a.rxTs b.rxTs := by
  obtain ⟨hin, hnm, -⟩ := trimmedSize_spec m rx h.index_le
  set n := m.trimmedSize rx index m.size
  have hord : (m.entries.take n).Pairwise fun a b => Before a.rxTs b.rxTs :=
    ((pairwise_entries_iff hk).mpr hinc).sublist (List.take_sublist _ _)
  have hlen : (m.entries.take n).length = n := by
    rw [List.length_take, length_entries, Nat.min_eq_left hnm]
  have hbefore : ∀ a ∈ (m.entries.take n).take index, Before a.rxTs rx := by
    intro a ha
    obtain ⟨i, hi, rfl⟩ := List.mem_iff_getElem.mp ha
    rw [List.getElem_take, List.getElem_take, getElem_entries hk]
    exact h.before i (by rw [List.length_take] at hi; omega)
  have hafter : ∀ a ∈ (m.entries.take n).drop index, Before rx a.rxTs := by
    intro a ha
    obtain ⟨i, hi, rfl⟩ := List.mem_iff_getElem.mp ha
    rw [List.getElem_drop, List.getElem_take, getElem_entries hk]
    exact h.before_of_trimmed hinc (by omega) (by rw [List.length_drop] at hi; omega)
  rw [insertIdx_eq_take_append_drop (by omega), List.pairwise_append, List.pairwise_cons]
  refine ⟨hord.sublist (List.take_sublist _ _), ⟨fun a ha => htss ▸ hafter a ha,
    hord.sublist (List.drop_sublist _ _)⟩, ?_⟩
  intro a ha b hb
  rcases List.mem_cons.mp hb with rfl | hb
  · exact htss ▸ hbefore a ha
  · rw [← List.take_append_drop index (m.entries.take n), List.pairwise_append] at hord
    exact hord.2.2 a ha b hb

end TimestampMap

end Chrony.ClientLog
