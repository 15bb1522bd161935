import Mathlib.Data.Int.ConditionallyCompleteOrder
import Chrony.Lib.FirstLeast
import Chrony.SourceStats.Window

/-!
# Runs of the Sample Register

Each operation of `sourcestats.c` on the register succeeds and keeps the invariant, with the
log of the samples as they are after the corrections of the clock.

## Main results

* `step_inv`: every operation succeeds and keeps the invariant.
* `run_register`: the register is in order after every run.
-/

namespace Chrony.SourceStats

open Chrony.Lib Chrony.Regress

variable {s s' : Stats} {log : List Entry}

/-! ### The regression -/

theorem setEstimates_same (s : Stats) (env : Env) (r : Regression) :
    SameRegister s (s.setEstimates env r) :=
  ⟨rfl, rfl, rfl, rfl, rfl, rfl, rfl, rfl, rfl, rfl, rfl⟩

theorem resetEstimates_same (s : Stats) : SameRegister s s.resetEstimates :=
  ⟨rfl, rfl, rfl, rfl, rfl, rfl, rfl, rfl, rfl, rfl, rfl⟩

theorem correctAsymmetry_same (s : Stats) (timesBack offsets : ℕ → ℚ) :
    SameRegister s (s.correctAsymmetry timesBack offsets).1 := by
  rw [Stats.correctAsymmetry]
  split
  · exact ⟨rfl, rfl, rfl, rfl, rfl, rfl, rfl, rfl, rfl, rfl, rfl⟩
  · dsimp only
    split
    · exact ⟨rfl, rfl, rfl, rfl, rfl, rfl, rfl, rfl, rfl, rfl, rfl⟩
    · split
      · exact ⟨rfl, rfl, rfl, rfl, rfl, rfl, rfl, rfl, rfl, rfl, rfl⟩
      · exact ⟨rfl, rfl, rfl, rfl, rfl, rfl, rfl, rfl, rfl, rfl, rfl⟩

/-- The times relative to the last sample are not positive. -/
theorem Window.timesBack_nonpos (h : Window s log) {k : ℕ}
    (hk : k < s.nSamples + s.runsSamples) : s.timesBack k ≤ 0 := by
  have hsize := h.size_le
  have hslot : s.getRunsbufIndex (k - s.runsSamples) =
      s.slot (s.nSamples + s.runsSamples - 1 - k) :=
    getRunsbufIndex_eq h.lastSample_lt (by omega) (by omega)
  rw [Stats.timesBack, hslot]
  exact sub_nonpos.mpr (h.time_le (by omega))

/-- **`find_best_sample_index`** finds the first one of the samples with the least distance, if
the times are not positive. -/
theorem findBestSampleIndex_firstLeast (s : Stats) (timesBack : ℕ → ℚ)
    (hback : ∀ i < s.nSamples, timesBack i ≤ 0) (hpos : 0 < s.nSamples) :
    ∃ i, s.findBestSampleIndex timesBack = .ok { s with bestSingleSample := i } ∧
      FirstLeast (fun j => s.rootDistance j (-timesBack j)) s.nSamples i := by
  set distance := fun j => s.rootDistance j (-timesBack j) with hdistance
  have hloop : Returns (fun _ => False)
      ((List.range s.nSamples).foldlM (s.betterSample timesBack) none)
      fun best => s.nSamples = 0 ∧ best = none ∨
        ∃ i, best = some (i, distance i) ∧ FirstLeast distance s.nSamples i := by
    refine Returns.foldlM_range (P := fun k best => k = 0 ∧ best = none ∨
      ∃ i, best = some (i, distance i) ∧ FirstLeast distance k i) ?_ (.inl ⟨rfl, rfl⟩)
    intro k hk best hbest
    have helapsed : -timesBack k ≥ 0 := neg_nonneg.mpr (hback k hk)
    rw [Stats.betterSample, if_neg (not_not.mpr helapsed)]
    rcases hbest with ⟨rfl, rfl⟩ | ⟨i, rfl, hleast⟩
    · exact .inr ⟨0, rfl, .single distance⟩
    · dsimp only
      split
      next hless =>
          have hlt : distance k < distance i := by simpa using hless
          exact .inr ⟨k, rfl, hleast.succ_of_lt hlt⟩
      next hmore =>
          have hle : distance i ≤ distance k := by simpa using hmore
          exact .inr ⟨i, rfl, hleast.succ_of_le hle⟩
  rw [Stats.findBestSampleIndex, if_neg (by omega)]
  cases hresult : (List.range s.nSamples).foldlM (s.betterSample timesBack) none with
  | error e => exact (hloop.error hresult).elim
  | ok best =>
      rcases hloop.value hresult with ⟨hzero, -⟩ | ⟨i, rfl, hleast⟩
      · omega
      · exact ⟨i, rfl, hleast⟩

/-- **The assertions of `find_best_sample_index`** do not fail if the times are not
positive. -/
theorem findBestSampleIndex_spec (s : Stats) (timesBack : ℕ → ℚ)
    (hback : ∀ i < s.nSamples, timesBack i ≤ 0) :
    ∃ s', s.findBestSampleIndex timesBack = .ok s' ∧ SameRegister s s' := by
  rcases Nat.eq_zero_or_pos s.nSamples with hzero | hpos
  · rw [Stats.findBestSampleIndex, if_pos hzero]
    exact ⟨s, rfl, rfl, rfl, rfl, rfl, rfl, rfl, rfl, rfl, rfl, rfl, rfl⟩
  · obtain ⟨i, hresult, -⟩ := findBestSampleIndex_firstLeast s timesBack hback hpos
    exact ⟨_, hresult, rfl, rfl, rfl, rfl, rfl, rfl, rfl, rfl, rfl, rfl, rfl⟩

/-- The data of the regression are prepared without a change of the register. -/
theorem prepareRegression_spec (env : Env) (h : Inv s log) :
    ∃ r, s.prepareRegression env = .ok r ∧ SameRegister s r.1 := by
  rw [Stats.prepareRegression]
  dsimp only
  split
  next hpos =>
      obtain ⟨m, hm⟩ := rgrFindMedian_isSome hpos h.nSamples_le
        (show s.nSamples ≤ maxPoints from h.nSamples_le) env.leftFirst s.peerDistances
      rw [hm]
      exact ⟨_, rfl, correctAsymmetry_same s _ _⟩
  · exact ⟨_, rfl, rfl, rfl, rfl, rfl, rfl, rfl, rfl, rfl, rfl, rfl, rfl⟩

/-- **`SST_DoNewRegression`** succeeds and keeps the invariant. -/
theorem Inv.doNewRegression (h : Inv s log) (env : Env) :
    ∃ s', s.doNewRegression env = .ok s' ∧ Inv s' log := by
  obtain ⟨⟨s₁, offsets, weights⟩, hprepare, hsame⟩ := prepareRegression_spec env h
  dsimp only at hsame
  have h₁ := hsame.inv h
  have hback : ∀ k < s₁.nSamples + s₁.runsSamples, s.timesBack k ≤ 0 := by
    rw [hsame.nSamples, hsame.runsSamples]
    exact fun k hk => h.timesBack_nonpos hk
  rw [Stats.doNewRegression, hprepare]
  simp only [bind, Except.bind]
  cases hregression : findBestRegression env.sqrt (fromIndex s.timesBack s₁.runsSamples)
      (fromIndex offsets s₁.runsSamples) (fromIndex weights 0) s₁.nSamples s₁.runsSamples
      s₁.minSamples with
  | none =>
      dsimp only
      obtain ⟨s₂, hs₂, hsame₂⟩ := findBestSampleIndex_spec s₁.resetEstimates s.timesBack
        fun i hi => hback i (Nat.lt_add_right _ hi)
      exact ⟨s₂, hs₂, hsame₂.inv ((resetEstimates_same s₁).inv h₁)⟩
  | some r =>
      dsimp only
      have hstart : r.newStart ≤ (s₁.setEstimates env r).nSamples :=
        (Nat.le_add_right _ _).trans (findBestRegression_newStart env.sqrt hregression)
      obtain ⟨s₂, hs₂, h₂, hn₂, -⟩ :=
        ((setEstimates_same s₁ env r).inv h₁).pruneRegister hstart
      rw [hs₂]
      obtain ⟨s₃, hs₃, hsame₃⟩ := findBestSampleIndex_spec s₂
        (fun i => s.timesBack (s₁.runsSamples + r.newStart + i)) fun i hi => by
          change s₂.nSamples = s₁.nSamples - r.newStart at hn₂
          exact hback _ (by omega)
      exact ⟨s₃, hs₃, hsame₃.inv h₂⟩

/-! ### Corrections of the clock -/

/-- The slots in use are all different. -/
theorem Window.runsSlots_nodup (h : Window s log) : s.runsSlots.Nodup := by
  have hsize := h.size_le
  refine List.Nodup.map_on ?_ List.nodup_range
  intro j hj k hk heq
  rw [List.mem_range] at hj hk
  rw [getRunsbufIndex_eq (k := s.nSamples + s.runsSamples - 1 - j) h.lastSample_lt (by omega)
      (by omega),
    getRunsbufIndex_eq (k := s.nSamples + s.runsSamples - 1 - k) h.lastSample_lt (by omega)
      (by omega)] at heq
  have := slot_injective (by omega) (by omega) heq
  omega

theorem Window.slot_mem_runsSlots (h : Window s log) {k : ℕ}
    (hk : k < s.nSamples + s.runsSamples) : s.slot k ∈ s.runsSlots := by
  have hsize := h.size_le
  refine List.mem_map.mpr ⟨s.nSamples + s.runsSamples - 1 - k, List.mem_range.mpr (by omega), ?_⟩
  exact getRunsbufIndex_eq h.lastSample_lt (by omega) (by omega)

/-- A loop over different slots changes each of them once. -/
theorem foldl_update_apply {f : ℚ → ℚ} {slots : List ℕ} (hnodup : slots.Nodup) (a : ℕ → ℚ) (j : ℕ) :
    slots.foldl (fun a i => Function.update a i (f (a i))) a j =
      if j ∈ slots then f (a j) else a j := by
  induction slots generalizing a with
  | nil => rfl
  | cons i slots ih =>
      rw [List.nodup_cons] at hnodup
      rw [List.foldl_cons, ih hnodup.2]
      by_cases hji : j = i
      · subst hji
        rw [if_neg hnodup.1, if_pos List.mem_cons_self, Function.update_self]
      · rw [Function.update_of_ne hji]
        simp [hji]

theorem foldl_slewSample_apply (cooked dfreq doffset : ℚ) {slots : List ℕ} (hnodup : slots.Nodup)
    (arrays : (ℕ → ℚ) × (ℕ → ℚ)) {j : ℕ} (hj : j ∈ slots) :
    (slots.foldl (slewSample cooked dfreq doffset) arrays).1 j =
        arrays.1 j + deltaTime (arrays.1 j) cooked dfreq doffset ∧
      (slots.foldl (slewSample cooked dfreq doffset) arrays).2 j =
        arrays.2 j + deltaTime (arrays.1 j) cooked dfreq doffset := by
  have hkept : ∀ (slots : List ℕ) (arrays : (ℕ → ℚ) × (ℕ → ℚ)), j ∉ slots →
      (slots.foldl (slewSample cooked dfreq doffset) arrays).1 j = arrays.1 j ∧
      (slots.foldl (slewSample cooked dfreq doffset) arrays).2 j = arrays.2 j := by
    intro slots
    induction slots with
    | nil => exact fun arrays _ => ⟨rfl, rfl⟩
    | cons i slots ih =>
        intro arrays hnot
        rw [List.mem_cons, not_or] at hnot
        obtain ⟨h1, h2⟩ := ih (slewSample cooked dfreq doffset arrays i) hnot.2
        rw [List.foldl_cons, h1, h2]
        exact ⟨Function.update_of_ne hnot.1 _ _, Function.update_of_ne hnot.1 _ _⟩
  induction slots generalizing arrays with
  | nil => cases hj
  | cons i slots ih =>
      rw [List.nodup_cons] at hnodup
      rw [List.foldl_cons]
      by_cases hji : j = i
      · subst hji
        obtain ⟨h1, h2⟩ := hkept slots (slewSample cooked dfreq doffset arrays j) hnodup.1
        rw [h1, h2]
        exact ⟨Function.update_self .., Function.update_self ..⟩
      · obtain ⟨h1, h2⟩ := ih hnodup.2 (slewSample cooked dfreq doffset arrays i)
          ((List.mem_cons.mp hj).resolve_left hji)
        have hne1 : (slewSample cooked dfreq doffset arrays i).1 j = arrays.1 j :=
          Function.update_of_ne hji _ _
        have hne2 : (slewSample cooked dfreq doffset arrays i).2 j = arrays.2 j :=
          Function.update_of_ne hji _ _
        rw [h1, h2, hne1, hne2]
        exact ⟨rfl, rfl⟩

/-- A sample after a correction of the clock. -/
def Entry.slew (e : Entry) (cooked dfreq doffset : ℚ) : Entry :=
  { e with
    time := e.time + deltaTime e.time cooked dfreq doffset
    offset := e.offset + deltaTime e.time cooked dfreq doffset }

/-- A clock which is not slowed down to a stop keeps the order of times. -/
theorem adjusted_lt {a b cooked dfreq doffset : ℚ} (hdfreq : dfreq < 1) (h : a < b) :
    a + deltaTime a cooked dfreq doffset < b + deltaTime b cooked dfreq doffset := by
  have hpos : 0 < (b - a) * (1 - dfreq) := mul_pos (sub_pos.mpr h) (sub_pos.mpr hdfreq)
  rw [deltaTime, deltaTime]
  linarith

theorem Inv.slewSamples (h : Inv s log) (cooked : ℚ) {dfreq : ℚ} (hdfreq : dfreq < 1)
    (doffset : ℚ) :
    Inv (s.slewSamples cooked dfreq doffset) (log.map fun e => e.slew cooked dfreq doffset) := by
  rw [Stats.slewSamples]
  split
  next hzero =>
      have hruns := h.runsSamples_le
      refine ⟨⟨h.nSamples_le, hruns, h.lastSample_lt, fun k hk => ?_, fun k hk => ?_, h.sorted⟩,
        h.minDelay⟩
      · omega
      · omega
  next hpos =>
      have harrays : ∀ k < s.nSamples + s.runsSamples, _ := fun k hk =>
        foldl_slewSample_apply cooked dfreq doffset h.runsSlots_nodup (s.sampleTimes, s.offsets)
          (h.slot_mem_runsSlots hk)
      dsimp only at harrays ⊢
      generalize s.runsSlots.foldl (slewSample cooked dfreq doffset) (s.sampleTimes, s.offsets) =
        arrays at harrays ⊢
      refine ⟨⟨h.nSamples_le, h.runsSamples_le, h.lastSample_lt, fun k hk => ?_, fun k hk => ?_,
        fun k hk => ?_⟩, h.minDelay⟩
      · obtain ⟨e, he, hold⟩ := h.runs k hk
        obtain ⟨htime, hoffset⟩ := harrays k hk
        rw [hold.time] at htime hoffset
        rw [hold.offset] at hoffset
        exact ⟨e.slew cooked dfreq doffset, by rw [List.getElem?_map, he]; rfl, htime, hoffset,
          hold.peerDelay⟩
      · obtain ⟨e, he, hold⟩ := h.buf k hk
        exact ⟨e.slew cooked dfreq doffset, by rw [List.getElem?_map, he]; rfl, hold.origOffset,
          hold.peerDispersion, hold.rootDelay, hold.rootDispersion⟩
      · change arrays.1 (s.slot (k + 1)) < arrays.1 (s.slot k)
        change k + 1 < s.nSamples + s.runsSamples at hk
        rw [(harrays (k + 1) hk).1, (harrays k (by omega)).1]
        exact adjusted_lt hdfreq (h.sorted k hk)

/-- A sample with a corrected offset. -/
def Entry.correctOffset (e : Entry) (doffset : ℚ) : Entry :=
  { e with offset := e.offset + doffset }

theorem Inv.correctOffset (h : Inv s log) (doffset : ℚ) :
    Inv (s.correctOffset doffset) (log.map fun e => e.correctOffset doffset) := by
  rw [Stats.correctOffset]
  split
  next hzero =>
      have hruns := h.runsSamples_le
      refine ⟨⟨h.nSamples_le, hruns, h.lastSample_lt, fun k hk => ?_, fun k hk => ?_, h.sorted⟩,
        h.minDelay⟩
      · omega
      · omega
  next hpos =>
      refine ⟨⟨h.nSamples_le, h.runsSamples_le, h.lastSample_lt, fun k hk => ?_, fun k hk => ?_,
        h.sorted⟩, h.minDelay⟩
      · obtain ⟨e, he, hold⟩ := h.runs k hk
        refine ⟨e.correctOffset doffset, by rw [List.getElem?_map, he]; rfl, hold.time, ?_,
          hold.peerDelay⟩
        change s.runsSlots.foldl (fun a i => Function.update a i (a i + doffset)) s.offsets
          (s.slot k) = _
        rw [foldl_update_apply (f := fun x => x + doffset) h.runsSlots_nodup,
          if_pos (h.slot_mem_runsSlots hk), hold.offset]
        rfl
      · obtain ⟨e, he, hold⟩ := h.buf k hk
        exact ⟨e.correctOffset doffset, by rw [List.getElem?_map, he]; rfl, hold.origOffset,
          hold.peerDispersion, hold.rootDelay, hold.rootDispersion⟩

/-- A sample with more dispersion. -/
def Entry.addDispersion (e : Entry) (dispersion : ℚ) : Entry :=
  { e with
    rootDispersion := e.rootDispersion + dispersion
    peerDispersion := e.peerDispersion + dispersion }

theorem Inv.addDispersion (h : Inv s log) (dispersion : ℚ) :
    Inv (s.addDispersion dispersion) (log.map fun e => e.addDispersion dispersion) := by
  have hn := h.nSamples_le
  have hindex : ∀ k < s.nSamples, s.getBufIndex ((s.nSamples - 1 - k : ℕ) : ℤ) =
      s.slot k % bufSize := fun k hk =>
    getBufIndex_eq h.lastSample_lt (by rw [bufSize_eq] at hn; rw [runsBufSize_eq]; omega) (by omega)
  have hnodup : ((List.range s.nSamples).map fun i : ℕ => s.getBufIndex i).Nodup := by
    refine List.Nodup.map_on ?_ List.nodup_range
    intro j hj k hk heq
    rw [List.mem_range] at hj hk
    have hj' := hindex (s.nSamples - 1 - j) (by omega)
    have hk' := hindex (s.nSamples - 1 - k) (by omega)
    rw [show s.nSamples - 1 - (s.nSamples - 1 - j) = j by omega] at hj'
    rw [show s.nSamples - 1 - (s.nSamples - 1 - k) = k by omega] at hk'
    rw [hj', hk'] at heq
    have := slot_mod_injective (by omega) (by omega) heq
    omega
  have hmem : ∀ k < s.nSamples, s.slot k % bufSize ∈
      (List.range s.nSamples).map fun i : ℕ => s.getBufIndex i := fun k hk =>
    List.mem_map.mpr ⟨s.nSamples - 1 - k, List.mem_range.mpr (by omega), hindex k hk⟩
  refine ⟨⟨h.nSamples_le, h.runsSamples_le, h.lastSample_lt, fun k hk => ?_, fun k hk => ?_,
    h.sorted⟩, h.minDelay⟩
  · obtain ⟨e, he, hold⟩ := h.runs k hk
    exact ⟨e.addDispersion dispersion, by rw [List.getElem?_map, he]; rfl, hold.time, hold.offset,
      hold.peerDelay⟩
  · obtain ⟨e, he, hold⟩ := h.buf k hk
    have hadd : ∀ a : ℕ → ℚ, ((List.range s.nSamples).map fun i : ℕ => s.getBufIndex i).foldl
        (fun a i => Function.update a i (a i + dispersion)) a (s.slot k % bufSize) =
        a (s.slot k % bufSize) + dispersion := fun a => by
      rw [foldl_update_apply (f := fun x => x + dispersion) hnodup, if_pos (hmem k hk)]
    refine ⟨e.addDispersion dispersion, by rw [List.getElem?_map, he]; rfl, hold.origOffset, ?_,
      hold.rootDelay, ?_⟩
    · exact (hadd s.peerDispersions).trans (congrArg (· + dispersion) hold.peerDispersion)
    · exact (hadd s.rootDispersions).trans (congrArg (· + dispersion) hold.rootDispersion)

/-! ### Loading -/

/-- The number at a place of a line. -/
def number (numbers : List (Option ℚ)) (k : ℕ) : ℚ :=
  numbers[k]?.join.getD 0

/-- The sample of a line. -/
def File.entry (file : File) (i : ℕ) : Entry :=
  let numbers := (file.lines i).getD []
  { time := doubleToTimespec (number numbers 0)
    offset := number numbers 1
    origOffset := numbers[2]?.join
    peerDelay := number numbers 3
    peerDispersion := number numbers 4
    rootDelay := number numbers 5
    rootDispersion := number numbers 6 }

/-- The samples of the first lines of a file, the last line first. -/
def File.entries (file : File) (count : ℕ) : List Entry :=
  (List.range count).reverse.map file.entry

theorem File.getElem?_entries (file : File) {count k : ℕ} (hk : k < count) :
    (file.entries count)[k]? = some (file.entry (count - 1 - k)) := by
  rw [File.entries, List.getElem?_map, List.getElem?_reverse (by simpa using hk),
    List.length_range, List.getElem?_range (by omega)]
  rfl

/-- A line is read into one slot of each array. -/
structure SameElsewhere (s s' : Stats) (i : ℕ) : Prop where
  nSamples : s'.nSamples = s.nSamples
  runsSamples : s'.runsSamples = s.runsSamples
  lastSample : s'.lastSample = s.lastSample
  entryAt : ∀ j, j ≠ i → s'.entryAt j j = s.entryAt j j

theorem writeNumber_of_ne (a : ℕ → ℚ) {i j : ℕ} (hne : j ≠ i) (x : Option (Option ℚ)) :
    writeNumber a i x j = a j := by
  rcases x with _ | _ | q
  · rfl
  · rfl
  · exact Function.update_of_ne hne _ _

theorem scanLine_same (s : Stats) (i : ℕ) (numbers : List (Option ℚ)) :
    SameElsewhere s (s.scanLine i numbers) i := by
  refine ⟨rfl, rfl, rfl, fun j hne => ?_⟩
  have horig : (s.scanLine i numbers).origOffsets j = s.origOffsets j := by
    rw [Stats.scanLine]
    cases numbers[2]? with
    | none => rfl
    | some x => exact Function.update_of_ne hne _ _
  rw [Stats.entryAt, Stats.entryAt, horig, Entry.mk.injEq]
  exact ⟨rfl, writeNumber_of_ne _ hne _, rfl, writeNumber_of_ne _ hne _,
    writeNumber_of_ne _ hne _, writeNumber_of_ne _ hne _, writeNumber_of_ne _ hne _⟩

/-- The time of the sample is the last number to be stored. -/
theorem SameElsewhere.setTime {i : ℕ} (h : SameElsewhere s s' i) (time : ℚ) :
    SameElsewhere s { s' with sampleTimes := Function.update s'.sampleTimes i time } i := by
  refine ⟨h.nSamples, h.runsSamples, h.lastSample, fun j hne => ?_⟩
  rw [← h.entryAt j hne, Stats.entryAt, Stats.entryAt, Entry.mk.injEq]
  exact ⟨Function.update_of_ne hne _ _, rfl, rfl, rfl, rfl, rfl, rfl⟩

theorem loadLine_same {env : Env} {file : File} {i : ℕ} {ok : Bool}
    (h : s.loadLine env file i = (ok, s')) : SameElsewhere s s' i := by
  rw [Stats.loadLine] at h
  split at h
  next =>
      cases h
      exact ⟨rfl, rfl, rfl, fun j _ => rfl⟩
  next numbers hline =>
      dsimp only at h
      split at h
      next time _ _ _ _ _ _ =>
          split at h
          next =>
              cases h
              exact scanLine_same s i _
          next =>
              split at h
              · cases h
                exact (scanLine_same s i _).setTime (doubleToTimespec time)
              · cases h
                exact (scanLine_same s i _).setTime (doubleToTimespec time)
      next =>
          cases h
          exact scanLine_same s i _

/-- **An accepted line** is stored, and its time is after that of the line before it. -/
theorem loadLine_ok {env : Env} {file : File} {i : ℕ} (h : s.loadLine env file i = (true, s')) :
    s'.entryAt i i = file.entry i ∧ (0 < i → s'.sampleTimes (i - 1) < s'.sampleTimes i) := by
  rw [Stats.loadLine] at h
  split at h
  next => cases h
  next numbers hline =>
      dsimp only at h
      split at h
      next time offset orig peerDelay peerDispersion rootDelay rootDispersion =>
          split at h
          next => cases h
          next =>
              split at h
              next => cases h
              next hsane =>
                  cases h
                  refine ⟨?_, (not_not.mp hsane).2.2.2⟩
                  rw [File.entry, hline, Stats.entryAt, Entry.mk.injEq]
                  exact ⟨Function.update_self .., Function.update_self .., Function.update_self ..,
                    Function.update_self .., Function.update_self .., Function.update_self ..,
                    Function.update_self ..⟩
      next => cases h

/-- The first lines were accepted. -/
structure Loaded (s : Stats) (file : File) (i : ℕ) : Prop where
  entryAt : ∀ j < i, s.entryAt j j = file.entry j
  sorted : ∀ j, j + 1 < i → s.sampleTimes j < s.sampleTimes (j + 1)

theorem Loaded.loadLine {env : Env} {file : File} {i : ℕ} (h : Loaded s file i)
    (hline : s.loadLine env file i = (true, s')) : Loaded s' file (i + 1) := by
  have hsame := loadLine_same hline
  obtain ⟨hentry, hafter⟩ := loadLine_ok hline
  have htime : ∀ j, j ≠ i → s'.sampleTimes j = s.sampleTimes j := fun j hne =>
    congrArg Entry.time (hsame.entryAt j hne)
  refine ⟨fun j hj => ?_, fun j hj => ?_⟩
  · rcases Nat.lt_succ_iff_lt_or_eq.mp hj with hlt | rfl
    · rw [hsame.entryAt j (by omega)]
      exact h.entryAt j hlt
    · exact hentry
  · rcases Nat.lt_succ_iff_lt_or_eq.mp hj with hlt | heq
    · rw [htime j (by omega), htime (j + 1) (by omega)]
      exact h.sorted j hlt
    · subst heq
      exact hafter (Nat.succ_pos j)

/-- The loop over the lines. -/
theorem loadLines_spec {env : Env} {file : File} {count i : ℕ} {ok : Bool}
    (hs : Loaded s file i) (h : s.loadLines env file count i = (ok, s')) :
    s'.nSamples = s.nSamples ∧ s'.runsSamples = s.runsSamples ∧ s'.lastSample = s.lastSample ∧
      (ok = true → Loaded s' file (i + count)) := by
  induction count generalizing s i with
  | zero =>
      cases h
      exact ⟨rfl, rfl, rfl, fun _ => hs⟩
  | succ count ih =>
      rw [Stats.loadLines] at h
      split at h
      next s₁ hline =>
          have hsame := loadLine_same hline
          obtain ⟨hn, hruns, hlast, hloaded⟩ := ih (hs.loadLine hline) h
          refine ⟨hn.trans hsame.nSamples, hruns.trans hsame.runsSamples,
            hlast.trans hsame.lastSample, fun hok => ?_⟩
          rw [show i + (count + 1) = i + 1 + count by omega]
          exact hloaded hok
      next s₁ hline =>
          have hsame := loadLine_same hline
          cases h
          exact ⟨hsame.nSamples, hsame.runsSamples, hsame.lastSample, fun hok => by cases hok⟩

/-- The window over the samples of a file. -/
theorem Loaded.window {file : File} {n : ℕ} (h : Loaded s file n) (hn : s.nSamples = n)
    (hpos : 0 < n) (hle : n ≤ bufSize) (hruns : s.runsSamples = 0)
    (hlast : s.lastSample = n - 1) : Window s (file.entries n ++ log) := by
  have hlt : n - 1 < runsBufSize := by
    rw [bufSize_eq] at hle
    rw [runsBufSize_eq]
    omega
  have hslot : ∀ k < n, s.slot k = n - 1 - k := fun k hk => by
    rw [Stats.slot, hlast, runsBufSize_eq] at *
    omega
  have hslot' : ∀ k < n, s.slot k % bufSize = n - 1 - k := fun k hk => by
    rw [hslot k hk, bufSize_eq] at *
    omega
  have hlog : ∀ k < n, (file.entries n ++ log)[k]? = some (file.entry (n - 1 - k)) :=
    fun k hk => by
      rw [List.getElem?_append_left (by simpa [File.entries] using hk)]
      exact file.getElem?_entries hk
  refine ⟨by omega, by omega, by omega, fun k hk => ?_, fun k hk => ?_, fun k hk => ?_⟩
  · have hk : k < n := by omega
    have hentry := h.entryAt (n - 1 - k) (by omega)
    refine ⟨_, hlog k hk, ?_⟩
    rw [← hentry]
    refine ⟨?_, ?_, ?_⟩
    · rw [hslot k hk]
      rfl
    · rw [hslot k hk]
      rfl
    · rw [hslot k hk]
      rfl
  · have hk : k < n := by omega
    have hentry := h.entryAt (n - 1 - k) (by omega)
    refine ⟨_, hlog k hk, ?_⟩
    rw [← hentry]
    refine ⟨?_, ?_, ?_, ?_⟩
    · rw [hslot' k hk]
      rfl
    · rw [hslot' k hk]
      rfl
    · rw [hslot' k hk]
      rfl
    · rw [hslot' k hk]
      rfl
  · have hk : k + 1 < n := by omega
    rw [hslot (k + 1) hk, hslot k (by omega), show n - 1 - k = n - 1 - (k + 1) + 1 by omega]
    exact h.sorted _ (by omega)

/-- The samples a file starts with, according to its first line. -/
def File.samples (file : File) : List Entry :=
  match file.header with
  | none => []
  | some (nSamples, _) => file.entries nSamples.toNat

/-- **`SST_LoadFromFile`** succeeds for any file. The samples are those of the file, or there
are none, or nothing changes. -/
theorem Inv.loadFromFile (h : Inv s log) (env : Env) (file : File) :
    ∃ ok s', s.loadFromFile env file = .ok (ok, s') ∧
      Inv s' (if ok then file.samples ++ log else log) := by
  rw [Stats.loadFromFile]
  split
  next => exact ⟨false, s, rfl, h⟩
  next nSamples arun hheader =>
      split
      next => exact ⟨false, s, rfl, h⟩
      next hrange =>
          rw [not_or] at hrange
          have hzero : Loaded s.resetInstance file 0 :=
            ⟨fun j hj => absurd hj (Nat.not_lt_zero j), fun j hj => absurd hj (Nat.not_lt_zero _)⟩
          split
          next s₁ hlines =>
              -- The register has no samples after a failure.
              obtain ⟨hn, hruns, hlast, -⟩ := loadLines_spec hzero hlines
              change s₁.nSamples = 0 at hn
              change s₁.runsSamples = 0 at hruns
              change s₁.lastSample = 0 at hlast
              refine ⟨false, s₁, rfl, ⟨⟨?_, ?_, ?_, ?_, ?_, ?_⟩, ?_⟩⟩
              · rw [hn]
                exact Nat.zero_le _
              · rw [hruns]
                exact Nat.zero_le _
              · rw [hlast]
                decide
              all_goals intros; omega
          next s₁ hlines =>
              obtain ⟨hn, hruns, hlast, hloaded⟩ := loadLines_spec hzero hlines
              have hloaded := hloaded rfl
              rw [Nat.zero_add] at hloaded
              have hwindow : Window { s₁ with
                  nSamples := nSamples.toNat
                  lastSample := nSamples.toNat - 1
                  asymmetryRun := clamp (-maxAsymmetryRun) arun maxAsymmetryRun }
                  (file.entries nSamples.toNat ++ log) :=
                Loaded.window ⟨hloaded.entryAt, hloaded.sorted⟩ rfl (by omega) (by omega) hruns rfl
              obtain ⟨s₂, hs₂, hinv⟩ := hwindow.findMinDelaySample.doNewRegression env
              refine ⟨true, s₂, ?_, ?_⟩
              · dsimp only
                rw [hs₂]
                rfl
              · rw [if_pos rfl, File.samples, hheader]
                exact hinv

/-! ### Runs -/

/-- **`SST_AccumulateSample`** succeeds and adds the sample to the log. -/
theorem Inv.accumulateSample (h : Inv s log) (sample : NtpSample) :
    ∃ s', s.accumulateSample sample = .ok s' ∧ Inv s' (s.newEntry sample :: log) := by
  obtain ⟨s₁, hs₁, h₁, hroom, hdelay⟩ := h.makeRoom
  have hentry : ∀ s₂ : Stats, s₂.fixedMinDelay = s₁.fixedMinDelay →
      s₂.newEntry sample = s.newEntry sample := fun s₂ h₂ => by
    rw [Stats.newEntry, Stats.newEntry, Stats.storedDelay, Stats.storedDelay, h₂, hdelay]
  refine ⟨_, by rw [Stats.accumulateSample, hs₁]; rfl, ?_⟩
  split
  next =>
      have hstored := (inv_resetInstance s₁ log).storeSample (show 0 < bufSize by decide)
        fun (horder : s₁.resetInstance.OutOfOrder sample) => horder.1 rfl
      rw [hentry s₁.resetInstance rfl] at hstored
      exact hstored
  next horder =>
      have hstored := h₁.storeSample hroom horder
      rw [hentry s₁ rfl] at hstored
      exact hstored

/-- **`SST_SaveToFile`** writes the samples of the log, the oldest one first. -/
theorem Inv.saveToFile (h : Inv s log) (hpos : 0 < s.nSamples) :
    s.saveToFile = some (s.nSamples, s.asymmetryRun, (log.take s.nSamples).reverse) := by
  have hn := h.nSamples_le
  have hlength : s.nSamples ≤ log.length := by
    obtain ⟨e, he, -⟩ := h.buf (s.nSamples - 1) (by omega)
    obtain ⟨hlt, -⟩ := List.getElem?_eq_some_iff.mp he
    omega
  have hsamples : ((List.range s.nSamples).map fun m : ℕ =>
      s.entryAt (s.getRunsbufIndex m) (s.getBufIndex m)) = (log.take s.nSamples).reverse := by
    refine List.ext_getElem (by simp; omega) fun m hm _ => ?_
    rw [List.length_map, List.length_range] at hm
    obtain ⟨e, he, hruns⟩ := h.runs (s.nSamples - 1 - m) (by omega)
    obtain ⟨e', he', hbuf⟩ := h.buf (s.nSamples - 1 - m) (by omega)
    rw [he, Option.some.injEq] at he'
    subst he'
    have hlt : s.nSamples - 1 - m < runsBufSize := by
      rw [bufSize_eq] at hn
      rw [runsBufSize_eq]
      omega
    have hindex : ∀ m' : ℕ, m' = m → s.getRunsbufIndex m' = s.slot (s.nSamples - 1 - m) ∧
        s.getBufIndex m' = s.slot (s.nSamples - 1 - m) % bufSize := fun m' hm' =>
      ⟨getRunsbufIndex_eq h.lastSample_lt hlt (by omega),
        getBufIndex_eq h.lastSample_lt hlt (by omega)⟩
    obtain ⟨_, hget⟩ := List.getElem?_eq_some_iff.mp he
    rw [List.getElem_map, List.getElem_range, (hindex m rfl).1, (hindex m rfl).2, Stats.entryAt,
      hruns.time, hruns.offset, hruns.peerDelay, hbuf.origOffset, hbuf.peerDispersion,
      hbuf.rootDelay, hbuf.rootDispersion, List.getElem_reverse, List.getElem_take]
    simp only [List.length_take, Nat.min_eq_left hlength]
    exact hget.symm
  rw [Stats.saveToFile, if_neg (by omega), hsamples]

/-- What can happen to a register. The clock is never slowed down to a stop. -/
inductive Op
  | accumulateSample (sample : NtpSample)
  | doNewRegression
  | slewSamples (cooked dfreq doffset : ℚ) (hdfreq : dfreq < 1)
  | correctOffset (doffset : ℚ)
  | addDispersion (dispersion : ℚ)
  | resetInstance
  | loadFromFile (file : File)
  | saveToFile

/-- An operation on a register, and on the log of all samples it has got, with the latest one
first. The corrections of the clock are made in the log, too. -/
def step (env : Env) (state : Stats × List Entry) (op : Op) : Except Abort (Stats × List Entry) :=
  let (s, log) := state
  match op with
  | .accumulateSample sample => do
      let s' ← s.accumulateSample sample
      .ok (s', s.newEntry sample :: log)
  | .doNewRegression => do
      let s' ← s.doNewRegression env
      .ok (s', log)
  | .slewSamples cooked dfreq doffset _ =>
      .ok (s.slewSamples cooked dfreq doffset, log.map fun e => e.slew cooked dfreq doffset)
  | .correctOffset doffset =>
      .ok (s.correctOffset doffset, log.map fun e => e.correctOffset doffset)
  | .addDispersion dispersion =>
      .ok (s.addDispersion dispersion, log.map fun e => e.addDispersion dispersion)
  | .resetInstance => .ok (s.resetInstance, log)
  | .loadFromFile file => do
      let (ok, s') ← s.loadFromFile env file
      .ok (s', if ok then file.samples ++ log else log)
  | .saveToFile => .ok (s, log)

/-- **Every operation succeeds and keeps the invariant.** -/
theorem step_inv (env : Env) (h : Inv s log) (op : Op) :
    ∃ s' log', step env (s, log) op = .ok (s', log') ∧ Inv s' log' := by
  cases op with
  | accumulateSample sample =>
      obtain ⟨s', hs', hinv⟩ := h.accumulateSample sample
      exact ⟨s', s.newEntry sample :: log, by simp only [step, hs', bind, Except.bind], hinv⟩
  | doNewRegression =>
      obtain ⟨s', hs', hinv⟩ := h.doNewRegression env
      exact ⟨s', log, by simp only [step, hs', bind, Except.bind], hinv⟩
  | slewSamples cooked dfreq doffset hdfreq =>
      exact ⟨_, _, rfl, h.slewSamples cooked hdfreq doffset⟩
  | correctOffset doffset => exact ⟨_, _, rfl, h.correctOffset doffset⟩
  | addDispersion dispersion => exact ⟨_, _, rfl, h.addDispersion dispersion⟩
  | resetInstance => exact ⟨_, _, rfl, inv_resetInstance s log⟩
  | loadFromFile file =>
      obtain ⟨ok, s', hs', hinv⟩ := h.loadFromFile env file
      exact ⟨s', _, by simp only [step, hs', bind, Except.bind], hinv⟩
  | saveToFile => exact ⟨s, log, rfl, h⟩

/-- A run of operations. -/
def run (env : Env) (state : Stats × List Entry) (ops : List Op) :
    Except Abort (Stats × List Entry) :=
  ops.foldlM (step env) state

theorem run_inv (env : Env) (h : Inv s log) (ops : List Op) :
    ∃ s' log', run env (s, log) ops = .ok (s', log') ∧ Inv s' log' := by
  induction ops generalizing s log with
  | nil => exact ⟨s, log, rfl, h⟩
  | cons op ops ih =>
      obtain ⟨s₁, log₁, hstep, h₁⟩ := step_inv env h op
      obtain ⟨s', log', hrun, hinv⟩ := ih h₁
      refine ⟨s', log', ?_, hinv⟩
      rw [run, List.foldlM_cons, hstep]
      exact hrun

/-- The indices of the samples in the longer arrays. -/
def Stats.runsIndices (s : Stats) : Set ℤ :=
  Set.Ico (-s.runsSamples) s.nSamples

/-- The indices of the samples in the shorter arrays. -/
def Stats.indices (s : Stats) : Set ℤ :=
  Set.Ico 0 s.nSamples

/-- The longer arrays have the sample in a slot. -/
def Stats.RunsSlotHas (s : Stats) (slot : ℕ) (e : Entry) : Prop :=
  s.sampleTimes slot = e.time ∧ s.offsets slot = e.offset ∧ s.peerDelays slot = e.peerDelay

/-- The shorter arrays have the sample in a slot. -/
def Stats.SlotHas (s : Stats) (slot : ℕ) (e : Entry) : Prop :=
  s.origOffsets slot = e.origOffset ∧ s.peerDispersions slot = e.peerDispersion ∧
    s.rootDelays slot = e.rootDelay ∧ s.rootDispersions slot = e.rootDispersion

/-- **A register in order**, for the log of its samples with the latest one first. -/
structure InOrder (s : Stats) (log : List Entry) : Prop where
  nSamples_le : s.nSamples ≤ bufSize
  runsSamples_le : s.runsSamples ≤ s.nSamples
  runsIndex_lt : ∀ i ∈ s.runsIndices, s.getRunsbufIndex i < runsBufSize
  runsIndex_injOn : Set.InjOn s.getRunsbufIndex s.runsIndices
  runsIndex_has : ∀ i ∈ s.runsIndices, ∃ e,
    log[(s.nSamples - i - 1).toNat]? = some e ∧ s.RunsSlotHas (s.getRunsbufIndex i) e
  index_lt : ∀ i ∈ s.indices, s.getBufIndex i < bufSize
  index_injOn : Set.InjOn s.getBufIndex s.indices
  index_has : ∀ i ∈ s.indices, ∃ e,
    log[(s.nSamples - i - 1).toNat]? = some e ∧ s.SlotHas (s.getBufIndex i) e
  increasing : StrictMonoOn (fun i => s.sampleTimes (s.getRunsbufIndex i)) s.runsIndices
  minDelaySample : 0 < s.nSamples → ∃ i ∈ s.runsIndices, s.minDelaySample = s.getRunsbufIndex i ∧
    ∀ j ∈ s.runsIndices, s.peerDelays s.minDelaySample ≤ s.peerDelays (s.getRunsbufIndex j)

/-- The slot of an index of the longer arrays. -/
theorem Window.runsIndex_slot (h : Window s log) {i : ℤ} (hi : i ∈ s.runsIndices) :
    (s.nSamples - i - 1).toNat < s.nSamples + s.runsSamples ∧
      s.getRunsbufIndex i = s.slot (s.nSamples - i - 1).toNat := by
  obtain ⟨hlow, hhigh⟩ := Set.mem_Ico.mp hi
  have hsize := h.size_le
  exact ⟨by omega, getRunsbufIndex_eq h.lastSample_lt (by omega) (by omega)⟩

/-- The slot of an index of the shorter arrays. -/
theorem Window.index_slot (h : Window s log) {i : ℤ} (hi : i ∈ s.indices) :
    (s.nSamples - i - 1).toNat < s.nSamples ∧
      s.getBufIndex i = s.slot (s.nSamples - i - 1).toNat % bufSize := by
  obtain ⟨hlow, hhigh⟩ := Set.mem_Ico.mp hi
  have hsize := h.size_le
  exact ⟨by omega, getBufIndex_eq h.lastSample_lt (by omega) (by omega)⟩

/-- The index of a slot of the window. -/
theorem Window.exists_runsIndex (h : Window s log) {k : ℕ}
    (hk : k < s.nSamples + s.runsSamples) :
    ∃ i ∈ s.runsIndices, s.getRunsbufIndex i = s.slot k := by
  have hsize := h.size_le
  refine ⟨s.nSamples - 1 - k, Set.mem_Ico.mpr ⟨by omega, by omega⟩, ?_⟩
  exact getRunsbufIndex_eq h.lastSample_lt (by omega) (by omega)

/-- The invariant puts the register in order. -/
theorem Inv.inOrder (h : Inv s log) : InOrder s log where
  nSamples_le := h.nSamples_le
  runsSamples_le := h.runsSamples_le
  runsIndex_lt := fun i _ => Nat.mod_lt _ (by decide)
  runsIndex_injOn := by
    intro i hi j hj heq
    have hsize := h.size_le
    obtain ⟨hi', hslot⟩ := h.runsIndex_slot hi
    obtain ⟨hj', hslot'⟩ := h.runsIndex_slot hj
    rw [hslot, hslot'] at heq
    have hnewer := slot_injective (by omega) (by omega) heq
    have := (Set.mem_Ico.mp hi).2
    have := (Set.mem_Ico.mp hj).2
    omega
  runsIndex_has := by
    intro i hi
    obtain ⟨hk, hslot⟩ := h.runsIndex_slot hi
    obtain ⟨e, he, hold⟩ := h.runs _ hk
    rw [hslot]
    exact ⟨e, he, hold.time, hold.offset, hold.peerDelay⟩
  index_lt := fun i _ => Nat.mod_lt _ (by decide)
  index_injOn := by
    intro i hi j hj heq
    have hn := h.nSamples_le
    obtain ⟨hi', hslot⟩ := h.index_slot hi
    obtain ⟨hj', hslot'⟩ := h.index_slot hj
    rw [hslot, hslot'] at heq
    have hnewer := slot_mod_injective (by omega) (by omega) heq
    have := (Set.mem_Ico.mp hi).2
    have := (Set.mem_Ico.mp hj).2
    omega
  index_has := by
    intro i hi
    obtain ⟨hk, hslot⟩ := h.index_slot hi
    obtain ⟨e, he, hold⟩ := h.buf _ hk
    rw [hslot]
    exact ⟨e, he, hold.origOffset, hold.peerDispersion, hold.rootDelay, hold.rootDispersion⟩
  increasing := by
    intro i hi j hj hlt
    obtain ⟨hi', hslot⟩ := h.runsIndex_slot hi
    obtain ⟨hj', hslot'⟩ := h.runsIndex_slot hj
    dsimp only
    rw [hslot, hslot']
    have := (Set.mem_Ico.mp hj).2
    exact h.time_lt (by omega) hi'
  minDelaySample := by
    intro hpos
    obtain ⟨k, hk, hslot, hleast⟩ := h.minDelay hpos
    obtain ⟨i, hi, hindex⟩ := h.exists_runsIndex hk
    refine ⟨i, hi, hslot.trans hindex.symm, fun j hj => ?_⟩
    obtain ⟨hj', hslot'⟩ := h.runsIndex_slot hj
    rw [hslot']
    exact hleast _ hj'

/-- **The register is in order after every run**, and no assertion fails. -/
theorem run_register (env : Env) (memory : Stats) (minSamples maxSamples : ℤ)
    (minDelay asymmetry : ℚ) (ops : List Op) :
    ∃ s log, run env (createInstance memory minSamples maxSamples minDelay asymmetry, []) ops =
        .ok (s, log) ∧ InOrder s log := by
  obtain ⟨s, log, hrun, hinv⟩ := run_inv env (inv_resetInstance _ []) ops
  exact ⟨s, log, hrun, hinv.inOrder⟩

end Chrony.SourceStats
