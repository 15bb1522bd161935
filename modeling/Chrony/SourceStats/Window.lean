import Chrony.Lib.Run
import Chrony.SourceStats.Register

/-!
# The Window of the Sample Register

The samples that were accumulated are a log, with the latest one first. The register keeps
the first samples of the log: the longer arrays have those used by the regression and by its
runs test, and the shorter ones only the former. The latest sample is in the slot
`last_sample`, and the older ones before it, going around at the start of the arrays.

## Main results

* `Inv`: the invariant of the register for a log.
* `Window.findMinDelaySample`: the search establishes the cached index.
* `Inv.pruneRegister`, `Inv.storeSample`: the operations that move the window.
-/

namespace Chrony.SourceStats

open Chrony.Lib Chrony.Regress

variable {s s' : Stats} {log : List Entry}

/-! ### Slots -/

/-- The slot of the sample which has `k` newer ones. -/
def Stats.slot (s : Stats) (k : ℕ) : ℕ :=
  (s.lastSample + runsBufSize - k) % runsBufSize

theorem runsBufSize_eq : runsBufSize = 128 := rfl

theorem bufSize_eq : bufSize = 64 := rfl

theorem slot_zero (h : s.lastSample < runsBufSize) : s.slot 0 = s.lastSample := by
  rw [Stats.slot, runsBufSize_eq] at *
  omega

/-- Different samples are in different slots. -/
theorem slot_injective {j k : ℕ} (hj : j < runsBufSize) (hk : k < runsBufSize)
    (h : s.slot j = s.slot k) : j = k := by
  rw [Stats.slot, Stats.slot, runsBufSize_eq] at *
  omega

/-- So are they in the shorter arrays. -/
theorem slot_mod_injective {j k : ℕ} (hj : j < bufSize) (hk : k < bufSize)
    (h : s.slot j % bufSize = s.slot k % bufSize) : j = k := by
  rw [Stats.slot, Stats.slot, runsBufSize_eq, bufSize_eq] at *
  omega

/-- `get_runsbuf_index` counts from the oldest sample of the regression. -/
theorem getRunsbufIndex_eq (hlast : s.lastSample < runsBufSize) {i : ℤ} {k : ℕ}
    (hk : k < runsBufSize) (hi : i + k + 1 = s.nSamples) : s.getRunsbufIndex i = s.slot k := by
  rw [Stats.getRunsbufIndex, Stats.slot, runsBufSize_eq] at *
  omega

theorem getBufIndex_eq (hlast : s.lastSample < runsBufSize) {i : ℤ} {k : ℕ}
    (hk : k < runsBufSize) (hi : i + k + 1 = s.nSamples) :
    s.getBufIndex i = s.slot k % bufSize := by
  rw [Stats.getBufIndex, Stats.slot, runsBufSize_eq, bufSize_eq] at *
  omega

/-! ### The invariant -/

/-- The slots of the sample with `k` newer ones hold what the longer arrays keep of it. -/
structure Stats.HoldsRuns (s : Stats) (k : ℕ) (e : Entry) : Prop where
  time : s.sampleTimes (s.slot k) = e.time
  offset : s.offsets (s.slot k) = e.offset
  peerDelay : s.peerDelays (s.slot k) = e.peerDelay

/-- The slots of the sample with `k` newer ones hold what the shorter arrays keep of it. -/
structure Stats.HoldsBuf (s : Stats) (k : ℕ) (e : Entry) : Prop where
  origOffset : s.origOffsets (s.slot k % bufSize) = e.origOffset
  peerDispersion : s.peerDispersions (s.slot k % bufSize) = e.peerDispersion
  rootDelay : s.rootDelays (s.slot k % bufSize) = e.rootDelay
  rootDispersion : s.rootDispersions (s.slot k % bufSize) = e.rootDispersion

/-- **The window** over the latest samples of the log. -/
structure Window (s : Stats) (log : List Entry) : Prop where
  nSamples_le : s.nSamples ≤ bufSize
  runsSamples_le : s.runsSamples ≤ s.nSamples
  lastSample_lt : s.lastSample < runsBufSize
  runs : ∀ k < s.nSamples + s.runsSamples, ∃ e, log[k]? = some e ∧ s.HoldsRuns k e
  buf : ∀ k < s.nSamples, ∃ e, log[k]? = some e ∧ s.HoldsBuf k e
  sorted : ∀ k, k + 1 < s.nSamples + s.runsSamples →
    s.sampleTimes (s.slot (k + 1)) < s.sampleTimes (s.slot k)

/-- The slot is that of a sample of the window with the least delay. -/
def Stats.LeastDelay (s : Stats) (slot : ℕ) : Prop :=
  ∃ k < s.nSamples + s.runsSamples, slot = s.slot k ∧
    ∀ j < s.nSamples + s.runsSamples, s.peerDelays slot ≤ s.peerDelays (s.slot j)

/-- **The invariant of the register**: the window, and the cached index. -/
structure Inv (s : Stats) (log : List Entry) : Prop extends Window s log where
  minDelay : 0 < s.nSamples → s.LeastDelay s.minDelaySample

theorem Window.size_le (h : Window s log) : s.nSamples + s.runsSamples ≤ runsBufSize := by
  have hn := h.nSamples_le
  have hruns := h.runsSamples_le
  rw [bufSize_eq] at hn
  rw [runsBufSize_eq]
  omega

/-- The latest sample is the newest one of the window. -/
theorem Window.time_le (h : Window s log) {k : ℕ} (hk : k < s.nSamples + s.runsSamples) :
    s.sampleTimes (s.slot k) ≤ s.sampleTimes s.lastSample := by
  induction k with
  | zero => rw [slot_zero h.lastSample_lt]
  | succ k ih => exact (h.sorted k hk).le.trans (ih (by omega))

/-- Older samples of the window have earlier times. -/
theorem Window.time_lt (h : Window s log) {j k : ℕ} (hjk : j < k)
    (hk : k < s.nSamples + s.runsSamples) :
    s.sampleTimes (s.slot k) < s.sampleTimes (s.slot j) := by
  induction k with
  | zero => omega
  | succ k ih =>
      have hstep := h.sorted k hk
      rcases Nat.lt_succ_iff_lt_or_eq.mp hjk with hlt | rfl
      · exact hstep.trans (ih hlt (by omega))
      · exact hstep

/-- What the invariant depends on is the same in both registers. -/
structure SameRegister (s s' : Stats) : Prop where
  nSamples : s'.nSamples = s.nSamples
  runsSamples : s'.runsSamples = s.runsSamples
  lastSample : s'.lastSample = s.lastSample
  minDelaySample : s'.minDelaySample = s.minDelaySample
  sampleTimes : s'.sampleTimes = s.sampleTimes
  offsets : s'.offsets = s.offsets
  origOffsets : s'.origOffsets = s.origOffsets
  peerDelays : s'.peerDelays = s.peerDelays
  peerDispersions : s'.peerDispersions = s.peerDispersions
  rootDelays : s'.rootDelays = s.rootDelays
  rootDispersions : s'.rootDispersions = s.rootDispersions

namespace SameRegister

theorem slot (h : SameRegister s s') (k : ℕ) : s'.slot k = s.slot k := by
  rw [Stats.slot, Stats.slot, h.lastSample]

theorem inv (h : SameRegister s s') (hs : Inv s log) : Inv s' log where
  nSamples_le := by rw [h.nSamples]; exact hs.nSamples_le
  runsSamples_le := by rw [h.nSamples, h.runsSamples]; exact hs.runsSamples_le
  lastSample_lt := by rw [h.lastSample]; exact hs.lastSample_lt
  runs := by
    rw [h.nSamples, h.runsSamples]
    intro k hk
    obtain ⟨e, he, hold⟩ := hs.runs k hk
    refine ⟨e, he, ?_, ?_, ?_⟩
    · rw [h.slot, h.sampleTimes]
      exact hold.time
    · rw [h.slot, h.offsets]
      exact hold.offset
    · rw [h.slot, h.peerDelays]
      exact hold.peerDelay
  buf := by
    rw [h.nSamples]
    intro k hk
    obtain ⟨e, he, hold⟩ := hs.buf k hk
    refine ⟨e, he, ?_, ?_, ?_, ?_⟩
    · rw [h.slot, h.origOffsets]
      exact hold.origOffset
    · rw [h.slot, h.peerDispersions]
      exact hold.peerDispersion
    · rw [h.slot, h.rootDelays]
      exact hold.rootDelay
    · rw [h.slot, h.rootDispersions]
      exact hold.rootDispersion
  sorted := by
    rw [h.nSamples, h.runsSamples, h.sampleTimes]
    intro k hk
    rw [h.slot, h.slot]
    exact hs.sorted k hk
  minDelay := by
    rw [h.nSamples, h.minDelaySample]
    intro hpos
    obtain ⟨k, hk, hslot, hleast⟩ := hs.minDelay hpos
    refine ⟨k, ?_, ?_, fun j hj => ?_⟩
    · rw [h.nSamples, h.runsSamples]
      exact hk
    · rw [h.slot]
      exact hslot
    · rw [h.nSamples, h.runsSamples] at hj
      rw [h.slot, h.peerDelays]
      exact hleast j hj

end SameRegister

/-! ### The cached index -/

/-- The loop of the search keeps the best of what it has seen. -/
theorem minDelayLoop_spec (hlast : s.lastSample < runsBufSize) {k : ℕ}
    (hk : k ≤ runsBufSize) (best : ℕ) :
    (s.minDelayLoop k best = best ∨ ∃ j < k, s.minDelayLoop k best = s.slot j) ∧
      s.peerDelays (s.minDelayLoop k best) ≤ s.peerDelays best ∧
      ∀ j < k, s.peerDelays (s.minDelayLoop k best) ≤ s.peerDelays (s.slot j) := by
  induction k generalizing best with
  | zero => exact ⟨.inl rfl, le_rfl, fun j hj => absurd hj (Nat.not_lt_zero j)⟩
  | succ k ih =>
      have hslot : s.getRunsbufIndex (s.nSamples - (k + 1)) = s.slot k :=
        getRunsbufIndex_eq hlast (by omega) (by omega)
      rw [Stats.minDelayLoop, hslot]
      split
      next hlt =>
          obtain ⟨hresult, hbest, hleast⟩ := ih (by omega) (s.slot k)
          refine ⟨.inr ?_, hbest.trans hlt.le, fun j hj => ?_⟩
          · rcases hresult with heq | ⟨j, hj, heq⟩
            · exact ⟨k, by omega, heq⟩
            · exact ⟨j, by omega, heq⟩
          · rcases Nat.lt_succ_iff_lt_or_eq.mp hj with hlt' | rfl
            · exact hleast j hlt'
            · exact hbest
      next hge =>
          obtain ⟨hresult, hbest, hleast⟩ := ih (by omega) best
          refine ⟨?_, hbest, fun j hj => ?_⟩
          · rcases hresult with heq | ⟨j, hj, heq⟩
            · exact .inl heq
            · exact .inr ⟨j, by omega, heq⟩
          · rcases Nat.lt_succ_iff_lt_or_eq.mp hj with hlt' | rfl
            · exact hleast j hlt'
            · exact hbest.trans (not_lt.mp hge)

/-- **`find_min_delay_sample`** establishes the cached index. -/
theorem Window.findMinDelaySample (h : Window s log) : Inv s.findMinDelaySample log where
  nSamples_le := h.nSamples_le
  runsSamples_le := h.runsSamples_le
  lastSample_lt := h.lastSample_lt
  runs := fun k hk => by
    obtain ⟨e, he, hold⟩ := h.runs k hk
    exact ⟨e, he, hold.time, hold.offset, hold.peerDelay⟩
  buf := fun k hk => by
    obtain ⟨e, he, hold⟩ := h.buf k hk
    exact ⟨e, he, hold.origOffset, hold.peerDispersion, hold.rootDelay, hold.rootDispersion⟩
  sorted := h.sorted
  minDelay := by
    intro hpos
    change 0 < s.nSamples at hpos
    have hsize := h.size_le
    have hfirst : s.getRunsbufIndex (-s.runsSamples) =
        s.slot (s.nSamples + s.runsSamples - 1) :=
      getRunsbufIndex_eq h.lastSample_lt (by omega) (by omega)
    obtain ⟨hresult, hbest, hleast⟩ := minDelayLoop_spec h.lastSample_lt
      (show s.nSamples + s.runsSamples - 1 ≤ runsBufSize by omega)
      (s.slot (s.nSamples + s.runsSamples - 1))
    obtain ⟨k, hk, heq⟩ : ∃ k < s.nSamples + s.runsSamples,
        s.minDelayLoop (s.nSamples + s.runsSamples - 1)
          (s.slot (s.nSamples + s.runsSamples - 1)) = s.slot k := by
      rcases hresult with heq | ⟨j, hj, heq⟩
      · exact ⟨_, by omega, heq⟩
      · exact ⟨j, by omega, heq⟩
    refine ⟨k, hk, ?_, fun j hj => ?_⟩
    · change s.minDelayLoop _ (s.getRunsbufIndex (-s.runsSamples)) = s.slot k
      rw [hfirst]
      exact heq
    · change s.peerDelays (s.minDelayLoop _ (s.getRunsbufIndex (-s.runsSamples))) ≤
        s.peerDelays (s.slot j)
      rw [hfirst]
      change j < s.nSamples + s.runsSamples at hj
      by_cases hlast : j = s.nSamples + s.runsSamples - 1
      · rw [hlast]
        exact hbest
      · exact hleast j (by omega)

/-! ### The window moves -/

/-- A register without samples. -/
theorem inv_resetInstance (s : Stats) (log : List Entry) : Inv s.resetInstance log where
  nSamples_le := Nat.zero_le _
  runsSamples_le := le_rfl
  lastSample_lt := show 0 < runsBufSize by decide
  runs := fun k hk => absurd hk (Nat.not_lt_zero k)
  buf := fun k hk => absurd hk (Nat.not_lt_zero k)
  sorted := fun k hk => absurd hk (Nat.not_lt_zero (k + 1))
  minDelay := fun hpos => absurd hpos (lt_irrefl 0)

/-- **`prune_register`** succeeds and keeps the newest samples. -/
theorem Inv.pruneRegister (h : Inv s log) {newOldest : ℕ} (hle : newOldest ≤ s.nSamples) :
    ∃ s', s.pruneRegister newOldest = .ok s' ∧ Inv s' log ∧
      s'.nSamples = s.nSamples - newOldest ∧ s'.fixedMinDelay = s.fixedMinDelay := by
  rw [Stats.pruneRegister]
  split
  next hzero =>
      refine ⟨s, rfl, h, ?_, rfl⟩
      rw [hzero, Nat.sub_zero]
  next hpos =>
      dsimp only
      have hcap : (if s.runsSamples + newOldest > (s.nSamples - newOldest) * (regressRunsRatio - 1)
          then (s.nSamples - newOldest) * (regressRunsRatio - 1)
          else s.runsSamples + newOldest) =
          min (s.runsSamples + newOldest) (s.nSamples - newOldest) := by
        rw [show regressRunsRatio - 1 = 1 from rfl, Nat.mul_one]
        split <;> omega
      rw [hcap]
      have hn := h.nSamples_le
      have hruns := h.runsSamples_le
      have hsize := h.size_le
      rw [if_neg (by omega)]
      refine ⟨_, rfl, ?_, rfl, rfl⟩
      refine Window.findMinDelaySample ⟨?_, ?_, h.lastSample_lt, ?_, ?_, ?_⟩
      · change s.nSamples - newOldest ≤ bufSize
        omega
      · exact min_le_right _ _
      · intro k hk
        change k < s.nSamples - newOldest + min (s.runsSamples + newOldest) _ at hk
        obtain ⟨e, he, hold⟩ := h.runs k (by omega)
        exact ⟨e, he, hold.time, hold.offset, hold.peerDelay⟩
      · intro k hk
        change k < s.nSamples - newOldest at hk
        obtain ⟨e, he, hold⟩ := h.buf k (by omega)
        exact ⟨e, he, hold.origOffset, hold.peerDispersion, hold.rootDelay, hold.rootDispersion⟩
      · intro k hk
        change k + 1 < s.nSamples - newOldest + min (s.runsSamples + newOldest) _ at hk
        exact h.sorted k (by omega)

/-- **What `prune_register` changes.** -/
theorem pruneRegister_eq {newOldest : ℕ} (h : s.pruneRegister newOldest = .ok s') :
    s' = { s with
      nSamples := s.nSamples - newOldest
      runsSamples := s'.runsSamples
      minDelaySample := s'.minDelaySample } := by
  rw [Stats.pruneRegister] at h
  split at h
  next hzero =>
      cases h
      rw [hzero, Nat.sub_zero]
  next =>
      split at h
      · cases h
      · dsimp only at h
        split_ifs at h
        · cases h
          rfl
        · cases h
          rfl

/-- There is room for a new sample. -/
theorem Inv.makeRoom (h : Inv s log) :
    ∃ s', s.makeRoom = .ok s' ∧ Inv s' log ∧ s'.nSamples < bufSize ∧
      s'.fixedMinDelay = s.fixedMinDelay := by
  have hn := h.nSamples_le
  rw [Stats.makeRoom]
  split
  next hfull =>
      obtain ⟨s', hs', hinv, hn', hdelay⟩ := h.pruneRegister (show 1 ≤ s.nSamples from hfull.1)
      refine ⟨s', hs', hinv, ?_, hdelay⟩
      have hpos := hfull.1
      omega
  next hroom =>
      refine ⟨s, rfl, h, ?_, rfl⟩
      by_contra hge
      rw [bufSize_eq] at *
      exact hroom ⟨by omega, .inl (by omega)⟩

/-- The log entry of a new sample. -/
def Stats.newEntry (s : Stats) (sample : NtpSample) : Entry where
  time := sample.time
  offset := -sample.offset
  origOffset := some (-sample.offset)
  peerDelay := s.storedDelay sample.peerDelay
  peerDispersion := sample.peerDispersion
  rootDelay := sample.rootDelay
  rootDispersion := sample.rootDispersion

/-- The slots of the older samples after a new one is stored. -/
theorem slot_storeSample (s : Stats) (sample : NtpSample) (h : s.lastSample < runsBufSize) :
    (s.storeSample sample).slot 0 = (s.lastSample + 1) % runsBufSize ∧
      ∀ k < runsBufSize, (s.storeSample sample).slot (k + 1) = s.slot k := by
  have hslot : ∀ k, (s.storeSample sample).slot k =
      ((s.lastSample + 1) % runsBufSize + runsBufSize - k) % runsBufSize := fun k => rfl
  refine ⟨?_, fun k hk => ?_⟩
  · rw [hslot, runsBufSize_eq]
    omega
  · rw [hslot, Stats.slot, runsBufSize_eq] at *
    omega

/-- The new slot is not one of the window. -/
theorem slot_ne_new {k : ℕ} (hk : k + 1 < runsBufSize) :
    s.slot k ≠ (s.lastSample + 1) % runsBufSize := by
  rw [Stats.slot, runsBufSize_eq] at *
  omega

theorem slot_mod_ne_new {k : ℕ} (hk : k + 1 < bufSize) :
    s.slot k % bufSize ≠ (s.lastSample + 1) % runsBufSize % bufSize := by
  rw [Stats.slot, runsBufSize_eq, bufSize_eq] at *
  omega

/-- **A new sample is stored** in front of the window. -/
theorem Inv.storeSample (h : Inv s log) (hroom : s.nSamples < bufSize) {sample : NtpSample}
    (horder : ¬s.OutOfOrder sample) :
    Inv (s.storeSample sample) (s.newEntry sample :: log) := by
  have hruns := h.runsSamples_le
  have hsize : s.nSamples + s.runsSamples + 1 < runsBufSize := by
    rw [bufSize_eq] at hroom
    rw [runsBufSize_eq]
    omega
  obtain ⟨hnew, hold⟩ := slot_storeSample s sample h.lastSample_lt
  -- what the arrays hold after the sample is stored
  have htimes : ∀ k < s.nSamples + s.runsSamples,
      (s.storeSample sample).sampleTimes (s.slot k) = s.sampleTimes (s.slot k) := fun k hk =>
    Function.update_of_ne (slot_ne_new (by omega)) _ _
  have hdelays : ∀ k < s.nSamples + s.runsSamples,
      (s.storeSample sample).peerDelays (s.slot k) = s.peerDelays (s.slot k) := fun k hk =>
    Function.update_of_ne (slot_ne_new (by omega)) _ _
  have hdelay : (s.storeSample sample).peerDelays ((s.lastSample + 1) % runsBufSize) =
      s.storedDelay sample.peerDelay := Function.update_self ..
  have hn : (s.storeSample sample).nSamples = s.nSamples + 1 := rfl
  have hr : (s.storeSample sample).runsSamples = s.runsSamples := rfl
  refine ⟨⟨?_, ?_, Nat.mod_lt _ (by decide), ?_, ?_, ?_⟩, fun _ => ?_⟩
  · rw [hn]
    omega
  · rw [hn, hr]
    omega
  · intro k hk
    rw [hn, hr] at hk
    cases k with
    | zero =>
        refine ⟨_, rfl, ?_, ?_, ?_⟩
        · rw [hnew]
          exact Function.update_self ..
        · rw [hnew]
          exact Function.update_self ..
        · rw [hnew]
          exact hdelay
    | succ k =>
        obtain ⟨e, he, hholds⟩ := h.runs k (by omega)
        refine ⟨e, he, ?_, ?_, ?_⟩
        · rw [hold k (by omega), htimes k (by omega)]
          exact hholds.time
        · rw [hold k (by omega)]
          exact (Function.update_of_ne (slot_ne_new (by omega)) _ _).trans hholds.offset
        · rw [hold k (by omega), hdelays k (by omega)]
          exact hholds.peerDelay
  · intro k hk
    rw [hn] at hk
    cases k with
    | zero =>
        refine ⟨_, rfl, ?_, ?_, ?_, ?_⟩
        all_goals
          rw [hnew]
          exact Function.update_self ..
    | succ k =>
        obtain ⟨e, he, hholds⟩ := h.buf k (by omega)
        have hne := slot_mod_ne_new (s := s) (show k + 1 < bufSize by omega)
        refine ⟨e, he, ?_, ?_, ?_, ?_⟩
        · rw [hold k (by omega)]
          exact (Function.update_of_ne hne _ _).trans hholds.origOffset
        · rw [hold k (by omega)]
          exact (Function.update_of_ne hne _ _).trans hholds.peerDispersion
        · rw [hold k (by omega)]
          exact (Function.update_of_ne hne _ _).trans hholds.rootDelay
        · rw [hold k (by omega)]
          exact (Function.update_of_ne hne _ _).trans hholds.rootDispersion
  · intro k hk
    rw [hn, hr] at hk
    cases k with
    | zero =>
        -- the new sample is newer than the last one
        have hlt : s.sampleTimes s.lastSample < sample.time := by
          by_contra hge
          exact horder ⟨by omega, not_lt.mp hge⟩
        have htime : (s.storeSample sample).sampleTimes ((s.lastSample + 1) % runsBufSize) =
            sample.time := Function.update_self ..
        rw [hold 0 (by omega), htimes 0 (by omega), slot_zero h.lastSample_lt, hnew, htime]
        exact hlt
    | succ k =>
        rw [hold (k + 1) (by omega), hold k (by omega), htimes (k + 1) (by omega),
          htimes k (by omega)]
        exact h.sorted k (by omega)
  · have hcached : (s.storeSample sample).minDelaySample =
        if s.nSamples = 0 ∨ (s.storeSample sample).peerDelays ((s.lastSample + 1) % runsBufSize) <
          (s.storeSample sample).peerDelays s.minDelaySample
        then (s.lastSample + 1) % runsBufSize else s.minDelaySample := rfl
    rw [hcached]
    by_cases hzero : s.nSamples = 0
    · rw [if_pos (.inl hzero)]
      refine ⟨0, by omega, hnew.symm, fun j hj => ?_⟩
      obtain rfl : j = 0 := by omega
      rw [hnew]
    · obtain ⟨k, hk, hslot, hleast⟩ := h.minDelay (by omega)
      rw [hslot, hdelays k hk, hdelay]
      rw [hslot] at hleast
      split
      next hcond =>
          have hlt := hcond.resolve_left hzero
          refine ⟨0, by omega, hnew.symm, fun j hj => ?_⟩
          rw [hn, hr] at hj
          rw [hdelay]
          cases j with
          | zero => rw [hnew, hdelay]
          | succ j =>
              rw [hold j (by omega), hdelays j (by omega)]
              exact hlt.le.trans (hleast j (by omega))
      next hcond =>
          have hge := not_lt.mp fun hlt => hcond (.inr hlt)
          refine ⟨k + 1, by omega, (hold k (by omega)).symm, fun j hj => ?_⟩
          rw [hn, hr] at hj
          rw [hdelays k hk]
          cases j with
          | zero =>
              rw [hnew, hdelay]
              exact hge
          | succ j =>
              rw [hold j (by omega), hdelays j (by omega)]
              exact hleast j (by omega)

end Chrony.SourceStats
