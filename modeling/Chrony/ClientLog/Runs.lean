import Chrony.ClientLog.Save

/-!
# Runs of the Map of Timestamps

Everything a call can do to the timestamps of the map is one of the cases of `StepEffect`.
The order of the map and the history of each entry are derived from it.

## Main results

* `run_timestampMap`: in every run the map keeps its invariant, and under the invariant
  the search agrees with a linear scan.
-/

namespace Chrony.ClientLog

open Lib Lib.WrapOrder TimestampMap

variable {eraSplit : ℤ} {m m' : TimestampMap} {rx : BitVec 64}

/-- The call stores or disables the timestamps of `rx` when they are in the map. -/
def Call.Writes (rx : BitVec 64) : Call → Prop
  | .save rx' _ _ => rx' = rx
  | .update rx' _ _ => rx' = rx
  | .disable rx' => rx' = rx
  | _ => False

/-- The new timestamps of a save, in a slot which held `old`. -/
def savedTss (eraSplit : ℤ) (old : NtpTimestamps) (slewEpoch : BitVec 16) (rx : BitVec 64)
    (txTs : Option Timespec) (txSrc : TimestampSource) : NtpTimestamps :=
  setNtpTx eraSplit { old with rxTs := rx, disabled := false, validTx := false, slewEpoch }
    rx txTs txSrc

/-- **What a call does to the timestamps of the map.** -/
inductive StepEffect (eraSplit : ℤ) (m : TimestampMap) : Call → List NtpTimestamps → Prop
  | keep {c : Call} (hwrites : ∀ tss ∈ m.entries, ¬c.Writes tss.rxTs)
      (hslew : ∀ doffset, c ≠ .slew doffset .unknownStep) : StepEffect eraSplit m c m.entries
  | disable {c : Call} {i : ℕ} (hi : i < m.size)
      (hc : c = .disable (m.rxAt i) ∨ ∃ txTs txSrc, c = .save (m.rxAt i) txTs txSrc) :
      StepEffect eraSplit m c (m.entries.set i { m.getNtpTss i with disabled := true })
  | update {i : ℕ} (hi : i < m.size) (txTs : Option Timespec) (txSrc : TimestampSource) :
      StepEffect eraSplit m (.update (m.rxAt i) txTs txSrc)
        (m.entries.set i (setNtpTx eraSplit (m.getNtpTss i) (m.rxAt i) txTs txSrc))
  | insert {rx : BitVec 64} {txTs : Option Timespec} {txSrc : TimestampSource}
      {l : List NtpTimestamps} (old : NtpTimestamps)
      (hrx : ∀ tss ∈ m.entries, tss.rxTs ≠ rx)
      (hnew : savedTss eraSplit old m.slewEpoch rx txTs txSrc ∈ l)
      (hl : ∀ tss ∈ l, tss = savedTss eraSplit old m.slewEpoch rx txTs txSrc ∨
        tss ∈ m.entries) :
      StepEffect eraSplit m (.save rx txTs txSrc) l
  | forget (doffset : ℚ) : StepEffect eraSplit m (.slew doffset .unknownStep) []

@[simp] theorem setNtpTx_rxTs (eraSplit : ℤ) (tss : NtpTimestamps) (rx : BitVec 64)
    (txTs : Option Timespec)
    (txSrc : TimestampSource) : (setNtpTx eraSplit tss rx txTs txSrc).rxTs = tss.rxTs := by
  cases txTs with
  | none => rfl
  | some txTs =>
      rw [setNtpTx]
      split <;> rfl

@[simp] theorem setNtpTx_disabled (tss : NtpTimestamps) (rx : BitVec 64)
    (txTs : Option Timespec) (txSrc : TimestampSource) :
    (setNtpTx eraSplit tss rx txTs txSrc).disabled = tss.disabled := by
  cases txTs with
  | none => rfl
  | some txTs =>
      rw [setNtpTx]
      split <;> rfl

@[simp] theorem savedTss_rxTs (old : NtpTimestamps) (slewEpoch : BitVec 16) (rx : BitVec 64)
    (txTs : Option Timespec) (txSrc : TimestampSource) :
    (savedTss eraSplit old slewEpoch rx txTs txSrc).rxTs = rx :=
  setNtpTx_rxTs _ _ _ _ _

/-! ### Writing timestamps which are in the map -/

theorem rxAt_setNtpTss {i : ℕ} {tss : NtpTimestamps} (h : tss.rxTs = m.rxAt i) (j : ℕ) :
    (m.setNtpTss i tss).rxAt j = m.rxAt j := by
  change (Function.update m.timestamps (m.slot i) tss (m.slot j)).rxTs = m.rxAt j
  by_cases hj : m.slot j = m.slot i
  · rw [hj, Function.update_self, h, rxAt, getNtpTss, ← hj]
    rfl
  · rw [Function.update_of_ne hj]
    rfl

theorem MapInvariant.setNtpTss (h : m.MapInvariant) {i : ℕ} {tss : NtpTimestamps}
    (htss : tss.rxTs = m.rxAt i) : (m.setNtpTss i tss).MapInvariant where
  capacity := h.capacity
  unallocated := h.unallocated
  size_le := h.size_le
  nonzero j hj := by
    rw [rxAt_setNtpTss htss]
    exact h.nonzero j hj
  increasing j k hjk hk := by
    rw [rxAt_setNtpTss htss, rxAt_setNtpTss htss]
    exact h.increasing j k hjk hk
  cached hc := by
    rw [rxAt_setNtpTss htss]
    exact h.cached hc

/-- Writing the timestamps found by a search. -/
theorem setNtpTss_spec (h : m.MapInvariant) {i : ℕ} (hi : i < m.size) (tss : NtpTimestamps)
    (htss : tss.rxTs = m.rxAt i) :
    (m.setNtpTss i tss).MapInvariant ∧ (m.setNtpTss i tss).entries = m.entries.set i tss := by
  obtain ⟨k, hk⟩ := h.exists_capacity (by omega)
  exact ⟨MapInvariant.setNtpTss h htss, entries_setNtpTss hk h.size_le hi tss⟩

/-- Timestamps which the search does not find are not in the map. -/
theorem InsertionPoint.rxTs_ne (h : m.MapInvariant) {index : ℕ}
    (hp : m.InsertionPoint rx index) {tss : NtpTimestamps} (htss : tss ∈ m.entries) :
    tss.rxTs ≠ rx := by
  obtain ⟨i, hi, rfl⟩ := (mem_entries_iff h).mp htss
  exact hp.rxAt_ne h.increasing hi

theorem entries_eq_nil (h : m.size = 0) : m.entries = [] := by
  rw [← List.length_eq_zero_iff, length_entries, h]

/-- Without an array there are no timestamps. -/
theorem StepEffect.of_size_eq_zero (h : m.size = 0) {c : Call}
    (hslew : ∀ doffset, c ≠ .slew doffset .unknownStep) : StepEffect eraSplit m c m.entries := by
  refine .keep ?_ hslew
  intro tss htss
  rw [entries_eq_nil h] at htss
  cases htss

/-! ### The calls -/

/-- Timestamps found by the search are disabled. -/
theorem disableTss_effect (h : m.MapInvariant) {i : ℕ} (hi : i < m.size) {c : Call}
    (hc : c = .disable (m.rxAt i) ∨ ∃ txTs txSrc, c = .save (m.rxAt i) txTs txSrc) :
    (m.disableTss i).MapInvariant ∧ StepEffect eraSplit m c (m.disableTss i).entries := by
  obtain ⟨hinv, hentries⟩ := setNtpTss_spec h hi { m.getNtpTss i with disabled := true } rfl
  refine ⟨hinv, ?_⟩
  rw [disableTss, hentries]
  exact .disable hi hc

/-- New timestamps are put in the map. -/
theorem addNtpTimestamps_effect (h : m.MapInvariant) (hactive : m.active = true)
    (halloc : m.allocated = true) (hrx : rx ≠ 0) {index : ℕ} (hp : m.InsertionPoint rx index)
    (txTs : Option Timespec) (txSrc : TimestampSource) :
    (addNtpTimestamps eraSplit m rx txTs txSrc index).MapInvariant ∧
      StepEffect eraSplit m (.save rx txTs txSrc)
        (addNtpTimestamps eraSplit m rx txTs txSrc index).entries := by
  obtain ⟨k, hk⟩ : ∃ k, m.maxSize = 2 ^ k := by
    have := h.capacity
    rwa [if_pos hactive] at this
  have hroom := makeRoom_room rx hk h.size_le hp.index_le
  rw [addNtpTimestamps]
  generalize makeRoom m rx index = room at hroom
  obtain ⟨j, r⟩ := room
  obtain ⟨hact', halloc', hmax', hepoch'⟩ := hroom.same
  dsimp only at hact' halloc' hmax' hepoch'
  set r' : TimestampMap := { r with cachedIndex := j, cachedRxTs := rx } with hr'
  set tss : NtpTimestamps := setNtpTx eraSplit _ rx txTs txSrc with htss
  have htss' : tss = savedTss eraSplit (r'.getNtpTss j) m.slewEpoch rx txTs txSrc := by
    rw [savedTss, ← hepoch']
  have hkr : r'.maxSize = 2 ^ k := hmax'.trans hk
  have hrxTs : tss.rxTs = rx := by rw [htss', savedTss_rxTs]
  have hentries : (r'.setNtpTss j tss).entries = r'.entries.set j tss :=
    entries_setNtpTss hkr hroom.size_le hroom.lt_size tss
  have hsub : (r'.setNtpTss j tss).entries.Sublist
      ((m.entries.take (m.trimmedSize rx index m.size)).insertIdx index tss) :=
    hroom.sublist tss
  have hmem : ∀ a ∈ (r'.setNtpTss j tss).entries, a = tss ∨ a ∈ m.entries := by
    intro a ha
    rcases List.eq_or_mem_of_mem_insertIdx (hsub.subset ha) with rfl | ha
    · exact .inl rfl
    · exact .inr (List.mem_of_mem_take ha)
  have hnew : tss ∈ (r'.setNtpTss j tss).entries := by
    rw [hentries]
    refine List.mem_iff_getElem.mpr ⟨j, ?_, List.getElem_set_self _⟩
    rw [List.length_set, length_entries]
    exact hroom.lt_size
  refine ⟨MapInvariant.of_entries (hact'.trans hactive) (halloc'.trans halloc)
    (by exact hkr) hroom.size_le ?_ ((hp.pairwise_insertIdx hk h.increasing hrxTs).sublist hsub)
    ⟨hroom.lt_size, ?_⟩, ?_⟩
  · intro a ha
    rcases hmem a ha with rfl | ha
    · rwa [hrxTs]
    · obtain ⟨i, hi, rfl⟩ := (mem_entries_iff h).mp ha
      exact h.nonzero i hi
  · change (Function.update r'.timestamps (r'.slot j) tss (r'.slot j)).rxTs = rx
    rw [Function.update_self, hrxTs]
  · change StepEffect eraSplit m _ (r'.setNtpTss j tss).entries
    exact .insert (r'.getNtpTss j) (fun a ha => InsertionPoint.rxTs_ne h hp ha)
      (by rwa [← htss']) (by rwa [← htss'])

/-- A call for timestamps which are not found changes nothing. -/
theorem InsertionPoint.keep (h : m.MapInvariant) {index : ℕ} (hp : m.InsertionPoint rx index)
    {c : Call} (hc : ∀ rx', c.Writes rx' → rx' = rx)
    (hslew : ∀ doffset, c ≠ .slew doffset .unknownStep) : StepEffect eraSplit m c m.entries := by
  refine .keep ?_ hslew
  intro tss htss hwrites
  exact InsertionPoint.rxTs_ne h hp htss (hc _ hwrites)

theorem StepEffect.congr {c : Call} {l : List NtpTimestamps} (h : StepEffect eraSplit m' c l)
    (hsame : m.SameEntries m') : StepEffect eraSplit m c l := by
  have hentries := hsame.entries_eq
  cases h with
  | keep hwrites hslew =>
      rw [hentries] at hwrites ⊢
      exact .keep hwrites hslew
  | disable hi hc =>
      rw [hentries, hsame.getNtpTss_eq]
      rw [hsame.rxAt_eq] at hc
      exact .disable (hsame.size ▸ hi) hc
  | update hi txTs txSrc =>
      rw [hentries, hsame.getNtpTss_eq, hsame.rxAt_eq]
      exact .update (hsame.size ▸ hi) txTs txSrc
  | insert old hrx hnew hl =>
      rw [hsame.slewEpoch] at hnew hl
      rw [hentries] at hrx hl
      exact .insert old hrx hnew hl
  | forget doffset => exact .forget doffset

theorem saveNtpTimestamps_effect (h : m.MapInvariant) (rx : BitVec 64)
    (txTs : Option Timespec) (txSrc : TimestampSource) :
    ∃ m', saveNtpTimestamps eraSplit m rx txTs txSrc = some m' ∧ m'.MapInvariant ∧
      StepEffect eraSplit m (.save rx txTs txSrc) m'.entries := by
  rw [saveNtpTimestamps]
  by_cases hactive : m.active = true
  · rw [if_neg (by rw [hactive]; decide)]
    set m₀ : TimestampMap := { m with allocated := true } with hm₀
    have h₀ : m₀.MapInvariant :=
      ⟨h.capacity, fun h => (by cases h), h.size_le, h.nonzero, h.increasing, h.cached⟩
    have hsame₀ : m.SameEntries m₀ := ⟨rfl, rfl, rfl, rfl, rfl⟩
    have hactive₀ : m₀.active = true := hactive
    have halloc₀ : m₀.allocated = true := rfl
    clear_value m₀
    by_cases hrx : rx = 0
    · rw [if_pos hrx]
      refine ⟨_, rfl, h₀, .congr (.keep ?_ fun _ hc => by cases hc) hsame₀⟩
      intro tss htss hwrites
      obtain ⟨i, hi, rfl⟩ := (mem_entries_iff h₀).mp htss
      exact h₀.nonzero i hi (hwrites.symm.trans hrx)
    rw [if_neg hrx]
    obtain ⟨found, index, m₁, hfind, hm₁, hresult⟩ := findNtpRxTs_spec h₀ rx
    have hsame₁ := hsame₀.trans hm₁.toSameEntries
    rw [hfind]
    cases found with
    | true =>
        obtain ⟨hi, rfl⟩ := hresult
        obtain ⟨hinv, heffect⟩ := disableTss_effect hm₁.inv hi (.inr ⟨txTs, txSrc, rfl⟩)
        exact ⟨_, rfl, hinv, heffect.congr hsame₁⟩
    | false =>
        dsimp only
        rw [if_pos hresult.index_le]
        obtain ⟨hinv, heffect⟩ := addNtpTimestamps_effect hm₁.inv (hm₁.active.trans hactive₀)
          (hm₁.allocated.trans halloc₀) hrx hresult txTs txSrc
        exact ⟨_, rfl, hinv, heffect.congr hsame₁⟩
  · rw [Bool.not_eq_true] at hactive
    rw [if_pos (by rw [hactive]; rfl)]
    have hcap := h.capacity
    rw [if_neg (by rw [hactive]; decide)] at hcap
    exact ⟨m, rfl, h, .of_size_eq_zero (by have := h.size_le; omega) fun _ hc => by cases hc⟩

/-- A call which looks only at allocated timestamps. -/
theorem findNtpRxTs_effect (eraSplit : ℤ) (rx : BitVec 64) (h : m.MapInvariant) (c : Call)
    (hslew : ∀ doffset, c ≠ .slew doffset .unknownStep)
    (hc : ∀ rx', c.Writes rx' → rx' = rx) (found : ℕ → TimestampMap → TimestampMap)
    (hfound : ∀ index m₁, m₁.MapInvariant → index < m₁.size → m₁.rxAt index = rx →
      (found index m₁).MapInvariant ∧ StepEffect eraSplit m₁ c (found index m₁).entries) :
    ∃ m', (if !m.allocated then some m
      else (m.findNtpRxTs rx).map fun r => if r.1 then found r.2.1 r.2.2 else r.2.2) = some m' ∧
      m'.MapInvariant ∧ StepEffect eraSplit m c m'.entries := by
  by_cases halloc : m.allocated = true
  · rw [if_neg (by rw [halloc]; decide)]
    obtain ⟨b, index, m₁, hfind, hm₁, hresult⟩ := findNtpRxTs_spec h rx
    rw [hfind]
    cases b with
    | true =>
        obtain ⟨hinv, heffect⟩ := hfound index m₁ hm₁.inv hresult.1 hresult.2
        exact ⟨_, rfl, hinv, heffect.congr hm₁.toSameEntries⟩
    | false =>
        exact ⟨_, rfl, hm₁.inv,
          (InsertionPoint.keep hm₁.inv hresult hc hslew).congr hm₁.toSameEntries⟩
  · rw [Bool.not_eq_true] at halloc
    rw [if_pos (by rw [halloc]; rfl)]
    exact ⟨m, rfl, h, .of_size_eq_zero (h.unallocated halloc) hslew⟩

theorem StepEffect.of_reads {c : Call} (hc : ∀ rx', ¬c.Writes rx')
    (hslew : ∀ doffset, c ≠ .slew doffset .unknownStep) : StepEffect eraSplit m c m.entries :=
  .keep (fun tss _ => hc tss.rxTs) hslew

theorem updateNtpTxTimestamp_effect (h : m.MapInvariant) (rx : BitVec 64)
    (txTs : Option Timespec) (txSrc : TimestampSource) :
    ∃ m', updateNtpTxTimestamp eraSplit m rx txTs txSrc = some m' ∧ m'.MapInvariant ∧
      StepEffect eraSplit m (.update rx txTs txSrc) m'.entries := by
  have heffect := findNtpRxTs_effect eraSplit rx h (.update rx txTs txSrc)
    (fun _ hc => by cases hc) (fun rx' hc => hc.symm)
    (fun index m => m.setNtpTss index (setNtpTx eraSplit (m.getNtpTss index) rx txTs txSrc)) ?_
  · convert heffect using 4
    rw [updateNtpTxTimestamp]
    congr 1
    match m.findNtpRxTs rx with
    | none => rfl
    | some (true, index, m₁) => rfl
    | some (false, index, m₁) => rfl
  · rintro index m₁ hinv hi rfl
    obtain ⟨hinv', hentries⟩ := setNtpTss_spec hinv hi _
      (setNtpTx_rxTs eraSplit (m₁.getNtpTss index) (m₁.rxAt index) txTs txSrc)
    refine ⟨hinv', ?_⟩
    rw [hentries]
    exact .update hi txTs txSrc

theorem disableNtpTimestamps_effect (h : m.MapInvariant) (rx : BitVec 64) :
    ∃ m', disableNtpTimestamps m rx = some m' ∧ m'.MapInvariant ∧
      StepEffect eraSplit m (.disable rx) m'.entries := by
  have heffect := findNtpRxTs_effect eraSplit rx h (.disable rx)
    (fun _ hc => by cases hc) (fun rx' hc => hc.symm) (fun index m => m.disableTss index) ?_
  · convert heffect using 4
    rw [disableNtpTimestamps]
    congr 1
    match m.findNtpRxTs rx with
    | none => rfl
    | some (true, index, m₁) => rfl
    | some (false, index, m₁) => rfl
  · rintro index m₁ hinv hi rfl
    exact disableTss_effect hinv hi (.inl rfl)

theorem getNtpTxTimestamp_effect (h : m.MapInvariant) (rx : BitVec 64) :
    ∃ m', (getNtpTxTimestamp eraSplit m rx).map (·.2) = some m' ∧ m'.MapInvariant ∧
      StepEffect eraSplit m (.get rx) m'.entries := by
  have heffect := findNtpRxTs_effect eraSplit rx h (.get rx)
    (fun _ hc => by cases hc) (fun rx' hc => hc.elim) (fun _ m => m)
    (fun _ _ hinv _ _ => ⟨hinv, .of_reads (fun _ hc => hc) fun _ hc => by cases hc⟩)
  convert heffect using 4
  rw [getNtpTxTimestamp]
  split
  · rfl
  · match m.findNtpRxTs rx with
    | none => rfl
    | some (true, index, m₁) =>
        dsimp only
        split <;> rfl
    | some (false, index, m₁) => rfl

theorem undoNtpTxTimestampSlew_effect (h : m.MapInvariant) (rx : BitVec 64) (txTs : Timespec) :
    ∃ m', (undoNtpTxTimestampSlew m rx txTs).map (·.2) = some m' ∧ m'.MapInvariant ∧
      StepEffect eraSplit m (.undoSlew rx txTs) m'.entries := by
  have heffect := findNtpRxTs_effect eraSplit rx h (.undoSlew rx txTs)
    (fun _ hc => by cases hc) (fun rx' hc => hc.elim) (fun _ m => m)
    (fun _ _ hinv _ _ => ⟨hinv, .of_reads (fun _ hc => hc) fun _ hc => by cases hc⟩)
  convert heffect using 4
  rw [undoNtpTxTimestampSlew]
  split
  · rfl
  · match m.findNtpRxTs rx with
    | none => rfl
    | some (true, index, m₁) =>
        dsimp only
        split <;> rfl
    | some (false, index, m₁) => rfl

theorem handleSlew_effect (h : m.MapInvariant) (doffset : ℚ) (changeType : ChangeType) :
    (handleSlew m doffset changeType).MapInvariant ∧
      StepEffect eraSplit m (.slew doffset changeType)
        (handleSlew m doffset changeType).entries := by
  rw [handleSlew]
  by_cases hc : changeType = .unknownStep
  · rw [if_pos hc]
    subst hc
    refine ⟨⟨h.capacity, fun _ => rfl, Nat.zero_le _, ?_, ?_, ?_⟩, .forget doffset⟩
    · intro i hi
      exact absurd hi (Nat.not_lt_zero i)
    · intro i j _ hj
      exact absurd hj (Nat.not_lt_zero j)
    · intro hne
      exact absurd rfl hne
  · rw [if_neg hc]
    refine ⟨⟨h.capacity, h.unallocated, h.size_le, h.nonzero, h.increasing, h.cached⟩,
      .of_reads (fun _ hc => hc) ?_⟩
    rintro _ ⟨⟩
    exact hc rfl

/-- **Every call returns**, keeps the invariant, and has one of the effects. -/
theorem step_effect (eraSplit : ℤ) (h : m.MapInvariant) (c : Call) :
    ∃ m', step eraSplit m c = some m' ∧ m'.MapInvariant ∧
      StepEffect eraSplit m c m'.entries := by
  cases c with
  | save rx txTs txSrc => exact saveNtpTimestamps_effect h rx txTs txSrc
  | update rx txTs txSrc => exact updateNtpTxTimestamp_effect h rx txTs txSrc
  | get rx => exact getNtpTxTimestamp_effect h rx
  | undoSlew rx txTs => exact undoNtpTxTimestampSlew_effect h rx txTs
  | disable rx => exact disableNtpTimestamps_effect h rx
  | slew doffset changeType => exact ⟨_, rfl, handleSlew_effect h doffset changeType⟩

theorem initialise_inv (noClientLog : Bool) (slots : ℕ) (timestamps : ℕ → NtpTimestamps) :
    (initialise noClientLog slots timestamps).MapInvariant where
  capacity := by
    cases noClientLog with
    | true => rfl
    | false => exact ⟨_, Nat.one_shiftLeft _⟩
  unallocated _ := rfl
  size_le := Nat.zero_le _
  nonzero i hi := absurd hi (Nat.not_lt_zero i)
  increasing i j _ hj := absurd hj (Nat.not_lt_zero j)
  cached hne := absurd rfl hne

/-- **Every run of calls returns** and keeps the invariant. -/
theorem run_inv (eraSplit : ℤ) (h : m.MapInvariant) (calls : List Call) :
    ∃ m', run eraSplit m calls = some m' ∧ m'.MapInvariant := by
  induction calls generalizing m with
  | nil => exact ⟨m, rfl, h⟩
  | cons c calls ih =>
      obtain ⟨m₁, hstep, h₁, -⟩ := step_effect eraSplit h c
      obtain ⟨m', hrun, h'⟩ := ih h₁
      refine ⟨m', ?_, h'⟩
      rw [run, List.foldlM_cons, hstep]
      exact hrun

theorem InsertionPoint.pairwise_rxTs (h : m.MapInvariant) {index : ℕ}
    (hp : m.InsertionPoint rx index) :
    (((m.entries.take (m.trimmedSize rx index m.size)).map (·.rxTs)).insertIdx index
      rx).Pairwise Before := by
  by_cases hsize : m.size = 0
  · obtain rfl : index = 0 := by have := hp.index_le; omega
    rw [entries_eq_nil hsize, List.take_nil, List.map_nil]
    exact List.pairwise_singleton _ _
  · obtain ⟨k, hk⟩ := h.exists_capacity (by omega)
    set tss : NtpTimestamps := { m.getNtpTss 0 with rxTs := rx } with htss
    have hord := hp.pairwise_insertIdx hk h.increasing (show tss.rxTs = rx from rfl)
    have hmap := hord.map NtpTimestamps.rxTs fun _ _ hab => hab
    rw [List.map_insertIdx] at hmap
    exact hmap

/-- **The map of timestamps stays ordered and its search is right.** After every sequence
of calls the map has its invariant. Under the invariant the search ends, agrees with a
linear scan, and changes nothing but the cache; for a timestamp which is not found it
returns an index at which an insertion, after the trimming of timestamps in distant future,
keeps all timestamps in order. -/
theorem run_timestampMap (eraSplit : ℤ) (noClientLog : Bool) (slots : ℕ)
    (timestamps : ℕ → NtpTimestamps) (calls : List Call) :
    (∃ m, run eraSplit (initialise noClientLog slots timestamps) calls = some m ∧
      m.MapInvariant) ∧
    ∀ m : TimestampMap, m.MapInvariant → ∀ rx, ∃ found index m',
      m.findNtpRxTs rx = some (found, index, m') ∧ m.SameEntries m' ∧ m'.MapInvariant ∧
      m.linearScan rx = (if found then some index else none) ∧
      (found = true ↔ ∃ i < m.size, m.rxAt i = rx) ∧
      (found = true → index < m.size ∧ m.rxAt index = rx) ∧
      (found = false → m.InsertionPoint rx index ∧
        (((m.entries.take (m.trimmedSize rx index m.size)).map (·.rxTs)).insertIdx index
          rx).Pairwise fun a b => 0 < (b - a).toInt) := by
  refine ⟨run_inv eraSplit (initialise_inv noClientLog slots timestamps) calls, ?_⟩
  intro m h rx
  obtain ⟨found, index, m', hfind, hm', hresult'⟩ := findNtpRxTs_spec h rx
  have hresult := hm'.toSameEntries.findResult hresult'
  refine ⟨found, index, m', hfind, hm'.toSameEntries, hm'.inv, hresult.linearScan h, ?_⟩
  cases found with
  | true => exact ⟨iff_of_true rfl ⟨index, hresult⟩, fun _ => hresult, fun hf => by cases hf⟩
  | false =>
      have hne : ¬∃ i < m.size, m.rxAt i = rx := by
        rintro ⟨i, hi, hrx⟩
        exact InsertionPoint.rxAt_ne h.increasing hresult hi hrx
      refine ⟨iff_of_false Bool.false_ne_true hne, fun hf => (by cases hf), fun _ => ⟨hresult, ?_⟩⟩
      exact InsertionPoint.pairwise_rxTs h hresult

end Chrony.ClientLog
