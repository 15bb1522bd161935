import Chrony.ClientLog.TimestampMap

/-!
# The Search in the Map of Timestamps

The timestamps of the map are a list, `entries`, whose receive timestamps increase in the
order that wraps around. The search combines interpolation with halving; both only choose
a point inside of the interval, and the offsets from the oldest timestamp, which stay
below a half of the range, show what the comparison at that point says about the rest.

## Main results

* `MapInvariant`: the order of the timestamps and the consistency of the cache.
* `findNtpRxTs_spec`: the search ends, and agrees with a linear scan.
-/

namespace Chrony.ClientLog

open Lib Lib.WrapOrder

namespace TimestampMap

variable {m : TimestampMap} {rx : BitVec 64}

/-- The receive timestamp at an index. -/
def rxAt (m : TimestampMap) (i : ℕ) : BitVec 64 :=
  (m.getNtpTss i).rxTs

/-- **The timestamps of the map**, from the oldest one. -/
def entries (m : TimestampMap) : List NtpTimestamps :=
  RingBuffer.view m.timestamps m.first m.maxSize m.size

/-- **The invariant of the map.** -/
structure MapInvariant (m : TimestampMap) : Prop where
  /-- The size of the array is a power of two, unless there is no client log. -/
  capacity : if m.active then ∃ k, m.maxSize = 2 ^ k else m.maxSize = 0
  /-- The array is allocated with the first timestamps. -/
  unallocated : m.allocated = false → m.size = 0
  size_le : m.size ≤ m.maxSize
  nonzero : ∀ i < m.size, m.rxAt i ≠ 0
  increasing : ∀ i j, i < j → j < m.size → 0 < (m.rxAt j - m.rxAt i).toInt
  cached : m.cachedRxTs ≠ 0 → m.cachedIndex < m.size ∧ m.rxAt m.cachedIndex = m.cachedRxTs

/-- A search which goes through all timestamps. -/
def linearScan (m : TimestampMap) (rx : BitVec 64) : Option ℕ :=
  (List.range m.size).find? fun i => m.rxAt i = rx

/-- What the result of a search says when the timestamp is not found: where it belongs in
the order. A timestamp before the oldest one may be after the newest ones, when these are
in distant future. -/
structure InsertionPoint (m : TimestampMap) (rx : BitVec 64) (index : ℕ) : Prop where
  index_le : index ≤ m.size
  before : ∀ i < index, Before (m.rxAt i) rx
  after : 0 < index → ∀ i, index ≤ i → i < m.size → Before rx (m.rxAt i)
  oldest : index = 0 → 0 < m.size → (rx - m.rxAt 0).toInt < 0

/-- The maps have the same timestamps in the same places. -/
structure SameEntries (m m' : TimestampMap) : Prop where
  timestamps : m'.timestamps = m.timestamps
  first : m'.first = m.first
  size : m'.size = m.size
  maxSize : m'.maxSize = m.maxSize
  slewEpoch : m'.slewEpoch = m.slewEpoch

/-! ### The list of timestamps -/

theorem slot_eq_pos {k : ℕ} (hk : m.maxSize = 2 ^ k) (i : ℕ) :
    m.slot i = RingBuffer.pos m.first m.maxSize i := by
  rw [slot, hk]
  exact RingBuffer.and_sub_one_eq_pos _ _ _

@[simp] theorem length_entries (m : TimestampMap) : m.entries.length = m.size :=
  RingBuffer.length_view _ _ _ _

theorem getElem_entries {k i : ℕ} (hk : m.maxSize = 2 ^ k) (hi : i < m.entries.length) :
    m.entries[i] = m.getNtpTss i := by
  rw [getNtpTss, slot_eq_pos hk]
  exact RingBuffer.getElem_view hi

/-- A map with a timestamp has an array. -/
theorem MapInvariant.exists_capacity (h : m.MapInvariant) (hpos : 0 < m.size) :
    ∃ k, m.maxSize = 2 ^ k := by
  have hcap := h.capacity
  have hle := h.size_le
  split at hcap
  · exact hcap
  · omega

theorem mem_entries_iff (h : m.MapInvariant) {tss : NtpTimestamps} :
    tss ∈ m.entries ↔ ∃ i < m.size, m.getNtpTss i = tss := by
  rw [List.mem_iff_getElem]
  constructor
  · rintro ⟨i, hi, rfl⟩
    have hi' : i < m.size := by rwa [length_entries] at hi
    obtain ⟨k, hk⟩ := h.exists_capacity (by omega)
    exact ⟨i, hi', (getElem_entries hk hi).symm⟩
  · rintro ⟨i, hi, rfl⟩
    obtain ⟨k, hk⟩ := h.exists_capacity (by omega)
    exact ⟨i, by rwa [length_entries], getElem_entries hk _⟩

theorem MapInvariant.rxAt_injective (h : m.MapInvariant) {i j : ℕ} (hi : i < m.size)
    (hj : j < m.size) (heq : m.rxAt i = m.rxAt j) : i = j := by
  rcases Nat.lt_trichotomy i j with hlt | rfl | hgt
  · exact absurd heq (Before.ne (h.increasing i j hlt hj))
  · rfl
  · exact absurd heq.symm (Before.ne (h.increasing j i hgt hi))

/-! ### The linear scan -/

theorem linearScan_eq_some (h : m.MapInvariant) {i : ℕ} (hi : i < m.size)
    (hrx : m.rxAt i = rx) : m.linearScan rx = some i := by
  cases hscan : m.linearScan rx with
  | none =>
      rw [linearScan, List.find?_eq_none] at hscan
      exact absurd (decide_eq_true hrx) (hscan i (List.mem_range.mpr hi))
  | some j =>
      rw [linearScan] at hscan
      have hj := List.mem_range.mp (List.mem_of_find?_eq_some hscan)
      have hrxj : m.rxAt j = rx := by simpa using List.find?_some hscan
      rw [h.rxAt_injective hi hj (hrx.trans hrxj.symm)]

theorem linearScan_eq_none (hrx : ∀ i < m.size, m.rxAt i ≠ rx) : m.linearScan rx = none := by
  rw [linearScan, List.find?_eq_none]
  intro i hi
  rw [decide_eq_true_iff]
  exact hrx i (List.mem_range.mp hi)

/-! ### The search -/

/-- Both ways of choosing a point stay inside of the interval. -/
theorem lt_searchPoint_and_lt {i lo hi : ℕ} (rx rxLo rxHi : BitVec 64) (h : lo + 1 < hi) :
    lo < searchPoint i lo hi rx rxLo rxHi ∧ searchPoint i lo hi rx rxLo rxHi < hi := by
  rw [searchPoint]
  generalize (if hi - lo > 3 ∧ i % 2 = 0 then _ else _ : ℕ) = x
  split
  · omega
  · split <;> omega

/-- What the loop returns. -/
def LoopResult (m : TimestampMap) (rx : BitVec 64) (result : Bool × ℕ) : Prop :=
  result.2 < m.size ∧
    if result.1 then m.rxAt result.2 = rx
    else 0 < result.2 ∧ (∀ i < result.2, dist (m.rxAt 0) (m.rxAt i) < dist (m.rxAt 0) rx) ∧
      ∀ i, result.2 ≤ i → i < m.size → dist (m.rxAt 0) rx < dist (m.rxAt 0) (m.rxAt i)

/-- **The loop ends with the position of the timestamp.** The timestamp stays between the
ends of the interval, which gets shorter in each iteration. -/
theorem searchLoop_spec (hinc : Increasing m.rxAt m.size) {fuel lo hi : ℕ} (i : ℕ)
    (hfuel : hi - lo < fuel) (hle : lo ≤ hi) (hhi : hi < m.size)
    (hlo_rx : dist (m.rxAt 0) (m.rxAt lo) ≤ dist (m.rxAt 0) rx)
    (hrx_hi : dist (m.rxAt 0) rx ≤ dist (m.rxAt 0) (m.rxAt hi)) :
    ∃ result, m.searchLoop rx fuel i lo hi (m.rxAt lo) (m.rxAt hi) = some result ∧
      m.LoopResult rx result := by
  induction fuel generalizing i lo hi with
  | zero => omega
  | succ fuel ih =>
      rw [searchLoop]
      by_cases heqHi : rx = m.rxAt hi
      · rw [if_pos heqHi]
        exact ⟨_, rfl, hhi, heqHi.symm⟩
      by_cases heqLo : rx = m.rxAt lo
      · rw [if_neg heqHi, if_pos heqLo]
        exact ⟨_, rfl, hle.trans_lt hhi, heqLo.symm⟩
      have hlo_lt : dist (m.rxAt 0) (m.rxAt lo) < dist (m.rxAt 0) rx := by
        refine lt_of_le_of_ne hlo_rx fun h => heqLo ?_
        have := dist_eq_sub h.le
        exact (dist_eq_zero_iff.mp (by omega)).symm
      have hlt_hi : dist (m.rxAt 0) rx < dist (m.rxAt 0) (m.rxAt hi) := by
        refine lt_of_le_of_ne hrx_hi fun h => heqHi ?_
        have := dist_eq_sub h.le
        exact dist_eq_zero_iff.mp (by omega)
      have hlo_hi : lo < hi := by
        refine lt_of_le_of_ne hle ?_
        rintro rfl
        omega
      rw [if_neg heqHi, if_neg heqLo]
      by_cases hadj : lo + 1 = hi
      · rw [if_pos hadj]
        refine ⟨_, rfl, hhi, ?_⟩
        rw [if_neg Bool.false_ne_true]
        refine ⟨by dsimp only; omega, ?_, ?_⟩
        · intro j hj
          have := hinc.dist_le_dist (show j ≤ lo by dsimp only at hj; omega) (by omega)
          omega
        · intro j hj hjs
          have := hinc.dist_le_dist hj hjs
          dsimp only at this
          omega
      · rw [if_neg hadj]
        dsimp only
        obtain ⟨hx_lo, hx_hi⟩ := lt_searchPoint_and_lt (i := i) rx (m.rxAt lo)
          (m.rxAt hi) (show lo + 1 < hi by omega)
        set x := searchPoint i lo hi rx (m.rxAt lo) (m.rxAt hi) with hx
        have hhalf := hinc.two_mul_dist_lt hhi
        change ∃ result, (if (m.rxAt x - rx).toInt ≤ 0 then
          m.searchLoop rx fuel (i + 1) x hi (m.rxAt x) (m.rxAt hi) else
          m.searchLoop rx fuel (i + 1) lo x (m.rxAt lo) (m.rxAt x)) = some result ∧ _
        -- the sign of the difference is the order of the offsets from the oldest timestamp
        by_cases hcmp : (m.rxAt x - rx).toInt ≤ 0
        · rw [if_pos hcmp]
          rw [toInt_sub_le_iff] at hcmp
          refine ih (i + 1) (by omega) (by omega) hhi ?_ hrx_hi
          by_contra hgt
          exact hcmp (before_of_dist_lt (hinc.two_mul_dist_lt (by omega)) (by omega))
        · rw [if_neg hcmp]
          rw [toInt_sub_le_iff, not_not] at hcmp
          refine ih (i + 1) (by omega) (by omega) (by omega) hlo_rx ?_
          exact (dist_lt_of_before (by omega) hcmp).le

/-- The loop finds the timestamp, or where it belongs. -/
theorem LoopResult.insertionPoint (hinc : Increasing m.rxAt m.size) {index : ℕ}
    (hhalf : 2 * dist (m.rxAt 0) rx < 2 ^ 64) (h : m.LoopResult rx (false, index)) :
    m.InsertionPoint rx index := by
  obtain ⟨hlt, hpos, hbefore, hafter⟩ := h
  dsimp only at hlt hpos hbefore hafter
  refine ⟨hlt.le, ?_, ?_, fun h0 => by omega⟩
  · intro i hi
    exact before_of_dist_lt hhalf (hbefore i hi)
  · intro _ i hi his
    exact before_of_dist_lt (hinc.two_mul_dist_lt his) (hafter i hi his)

/-- A timestamp which belongs at an insertion point is not in the map. -/
theorem InsertionPoint.rxAt_ne (hinc : Increasing m.rxAt m.size) {index i : ℕ}
    (h : m.InsertionPoint rx index) (hi : i < m.size) : m.rxAt i ≠ rx := by
  rcases Nat.eq_zero_or_pos index with rfl | hpos
  · rintro rfl
    have hneg := toInt_sub_neg_iff.mp (h.oldest rfl (by omega))
    have := hinc.two_mul_dist_lt hi
    omega
  · by_cases hlt : i < index
    · exact (h.before i hlt).ne
    · exact (h.after hpos i (by omega) hi).ne.symm

/-- What `find_ntp_rx_ts` returns. -/
def FindResult (m : TimestampMap) (rx : BitVec 64) (found : Bool) (index : ℕ) : Prop :=
  if found then index < m.size ∧ m.rxAt index = rx else m.InsertionPoint rx index

namespace SameEntries

variable {m' : TimestampMap}

theorem refl (m : TimestampMap) : m.SameEntries m :=
  ⟨rfl, rfl, rfl, rfl, rfl⟩

theorem trans {m'' : TimestampMap} (h : m.SameEntries m') (h' : m'.SameEntries m'') :
    m.SameEntries m'' :=
  ⟨h'.timestamps.trans h.timestamps, h'.first.trans h.first, h'.size.trans h.size,
    h'.maxSize.trans h.maxSize, h'.slewEpoch.trans h.slewEpoch⟩

theorem entries_eq (h : m.SameEntries m') : m'.entries = m.entries := by
  rw [entries, entries, h.timestamps, h.first, h.size, h.maxSize]

theorem getNtpTss_eq (h : m.SameEntries m') (i : ℕ) : m'.getNtpTss i = m.getNtpTss i := by
  rw [getNtpTss, getNtpTss, slot, slot, h.timestamps, h.first, h.maxSize]

theorem rxAt_eq (h : m.SameEntries m') (i : ℕ) : m'.rxAt i = m.rxAt i := by
  rw [rxAt, rxAt, h.getNtpTss_eq]

theorem findResult {found : Bool} {index : ℕ} (h : m.SameEntries m')
    (hresult : m'.FindResult rx found index) : m.FindResult rx found index := by
  cases found with
  | true => exact ⟨h.size ▸ hresult.1, h.rxAt_eq index ▸ hresult.2⟩
  | false =>
      obtain ⟨hle, hbefore, hafter, holdest⟩ := hresult
      rw [h.size] at hle hafter holdest
      rw [h.rxAt_eq] at holdest
      refine ⟨hle, fun i hi => h.rxAt_eq i ▸ hbefore i hi, ?_, holdest⟩
      exact fun hpos i hi his => h.rxAt_eq i ▸ hafter hpos i hi his

end SameEntries

theorem MapInvariant.of_cache (h : m.MapInvariant) {index : ℕ} (hi : index < m.size)
    (hrx : m.rxAt index = rx) :
    MapInvariant { m with cachedIndex := index, cachedRxTs := rx } :=
  ⟨h.capacity, h.unallocated, h.size_le, h.nonzero, h.increasing, fun _ => ⟨hi, hrx⟩⟩

/-- What the search leaves as it is. -/
structure Found (m m' : TimestampMap) : Prop extends m.SameEntries m' where
  active : m'.active = m.active
  allocated : m'.allocated = m.allocated
  inv : m'.MapInvariant

theorem Found.refl (h : m.MapInvariant) : m.Found m :=
  ⟨.refl m, rfl, rfl, h⟩

/-- **The search ends**, changes only the cache, and returns the index of the timestamp or
where it belongs. -/
theorem findNtpRxTs_spec (h : m.MapInvariant) (rx : BitVec 64) :
    ∃ found index m', m.findNtpRxTs rx = some (found, index, m') ∧ m.Found m' ∧
      m'.FindResult rx found index := by
  have hinc : Increasing m.rxAt m.size := h.increasing
  rw [findNtpRxTs]
  by_cases hcache : m.cachedRxTs = rx ∧ rx ≠ 0
  · rw [if_pos hcache]
    obtain ⟨rfl, hrx⟩ := hcache
    exact ⟨_, _, _, rfl, .refl h, h.cached hrx⟩
  rw [if_neg hcache]
  by_cases hsize : m.size = 0
  · rw [if_pos hsize]
    exact ⟨_, _, _, rfl, .refl h, by omega, by omega, by omega, by omega⟩
  rw [if_neg hsize]
  dsimp only
  change ∃ found index m', (if (rx - m.rxAt 0).toInt < 0 then _ else
    if (rx - m.rxAt (m.size - 1)).toInt > 0 then _ else _) = _ ∧ _
  by_cases hlo : (rx - m.rxAt 0).toInt < 0
  · rw [if_pos hlo]
    exact ⟨_, _, _, rfl, .refl h, by omega, by omega, by omega, fun _ _ => hlo⟩
  rw [if_neg hlo]
  have hhalf : 2 * dist (m.rxAt 0) rx < 2 ^ 64 := by
    rw [toInt_sub_neg_iff] at hlo
    omega
  by_cases hhi : (rx - m.rxAt (m.size - 1)).toInt > 0
  · rw [if_pos hhi]
    refine ⟨_, _, _, rfl, .refl h, le_refl _, ?_, fun _ i _ _ => by omega,
      by omega⟩
    intro i hi
    have hlast : dist (m.rxAt 0) (m.rxAt (m.size - 1)) < dist (m.rxAt 0) rx :=
      dist_lt_of_before (hinc.two_mul_dist_lt (by omega)) hhi
    have := hinc.dist_le_dist (show i ≤ m.size - 1 by omega) (by omega)
    exact before_of_dist_lt hhalf (by omega)
  rw [if_neg hhi]
  have hrx_hi : dist (m.rxAt 0) rx ≤ dist (m.rxAt 0) (m.rxAt (m.size - 1)) := by
    by_contra hgt
    exact hhi (before_of_dist_lt hhalf (by omega))
  obtain ⟨⟨found, index⟩, hloop, hresult⟩ := searchLoop_spec hinc 0
    (show m.size - 1 - 0 < m.size by omega) (by omega) (by omega)
    (show dist (m.rxAt 0) (m.rxAt 0) ≤ dist (m.rxAt 0) rx by rw [dist_self]; omega) hrx_hi
  rw [show m.searchLoop rx m.size 0 0 (m.size - 1) (m.getNtpTss 0).rxTs
    (m.getNtpTss (m.size - 1)).rxTs = some (found, index) from hloop]
  cases found with
  | true =>
      exact ⟨_, _, _, rfl, ⟨⟨rfl, rfl, rfl, rfl, rfl⟩, rfl, rfl,
        h.of_cache hresult.1 hresult.2⟩, hresult⟩
  | false =>
      exact ⟨_, _, _, rfl, .refl h, hresult.insertionPoint hinc hhalf⟩

/-- The search agrees with the linear scan. -/
theorem FindResult.linearScan (h : m.MapInvariant) {found : Bool} {index : ℕ}
    (hr : m.FindResult rx found index) :
    m.linearScan rx = if found then some index else none := by
  cases found with
  | true => exact linearScan_eq_some h hr.1 hr.2
  | false => exact linearScan_eq_none fun i hi => InsertionPoint.rxAt_ne h.increasing hr hi

end TimestampMap

end Chrony.ClientLog
