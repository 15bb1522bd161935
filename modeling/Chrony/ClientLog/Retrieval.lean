import Chrony.ClientLog.Runs

/-!
# What the Map of Timestamps Returns

A transmit timestamp returned for a receive timestamp is the last one stored for it, by the
save which put it in the map or by an update since then. The entries move in the array and
are overwritten by saves of other timestamps, so the history is a property of each entry,
carried from call to call by `StepEffect`.

## Main results

* `getNtpTx_setNtpTx`: the packed offset keeps the transmit timestamp to the nanosecond.
* `getNtpTxTimestamp_stored`: what is returned was stored.
-/

namespace Chrony.ClientLog

open Lib Lib.WrapOrder TimestampMap

variable {eraSplit : ℤ} {m m' : TimestampMap} {rx : BitVec 64}

/-! ### The packed offset -/

/-- The transmit timestamp is within `[-2, 2)` seconds of the receive timestamp. -/
def TxInRange (eraSplit : ℤ) (rx : BitVec 64) (txTs : Timespec) : Prop :=
  -2 * nsecPerSec ≤ txTs.toNsec - (Timespec.ofNtp64 eraSplit rx).toNsec ∧
    txTs.toNsec - (Timespec.ofNtp64 eraSplit rx).toNsec < 2 * nsecPerSec

/-- **What is returned when `txTs` was stored**: the same time to the nanosecond, or zero
when there was no timestamp or it was out of range. -/
def TxStored (eraSplit : ℤ) (rx : BitVec 64) (txTs : Option Timespec) (txSrc : TimestampSource)
    (result : Timespec × TimestampSource) : Prop :=
  (∀ ts, txTs = some ts → TxInRange eraSplit rx ts →
    result.1.toNsec = ts.toNsec ∧ result.1.Normal ∧ result.2 = txSrc) ∧
  ((∀ ts, txTs = some ts → ¬TxInRange eraSplit rx ts) → result.1 = Timespec.zero)

/-- The offset of 32 bits does not overflow. -/
theorem toInt_txTsOffset {sec nsec : ℤ} (hsec : -2 ≤ sec) (hsec' : sec ≤ 1) (hnsec : 0 ≤ nsec)
    (hnsec' : nsec < nsecPerSec) :
    (BitVec.ofInt 32 nsec + BitVec.ofInt 32 sec * BitVec.ofInt 32 nsecPerSec).toInt =
      sec * nsecPerSec + nsec := by
  unfold nsecPerSec at *
  rw [← BitVec.ofInt_mul, ← BitVec.ofInt_add, BitVec.toInt_ofInt_eq_self (by decide)]
  · omega
  · omega
  · omega

theorem toInt_sub_nsecPerSec {x : BitVec 32} (h : x.toInt ≥ nsecPerSec) :
    (x - BitVec.ofInt 32 nsecPerSec).toInt = x.toInt - nsecPerSec := by
  have hx := BitVec.toInt_lt (x := x)
  unfold nsecPerSec at *
  rw [BitVec.toInt_sub, BitVec.toInt_ofInt_eq_self (by decide) (by decide) (by decide)]
  exact Int.bmod_eq_of_le (by omega) (by omega)

/-- The transmit timestamp is the receive timestamp moved by the offset. -/
theorem getNtpTx_valid (eraSplit : ℤ) {tss : NtpTimestamps} (h : tss.validTx = true) :
    (getNtpTx eraSplit tss).1.Normal ∧
      (getNtpTx eraSplit tss).1.toNsec =
        (Timespec.ofNtp64 eraSplit tss.rxTs).toNsec + tss.txTsOffset.toInt := by
  rw [getNtpTx, if_pos h]
  refine ⟨Timespec.normalise_normal _, ?_⟩
  dsimp only
  rw [Timespec.toNsec_normalise]
  by_cases hge : tss.txTsOffset.toInt ≥ nsecPerSec
  · rw [if_pos hge]
    dsimp only
    rw [toInt_sub_nsecPerSec hge]
    unfold Timespec.toNsec
    dsimp only
    rw [Int.add_mul]
    omega
  · rw [if_neg hge]
    unfold Timespec.toNsec
    dsimp only
    omega

/-- **A stored transmit timestamp is returned.** -/
theorem getNtpTx_setNtpTx (tss : NtpTimestamps) (txTs : Option Timespec)
    (txSrc : TimestampSource) :
    TxStored eraSplit tss.rxTs txTs txSrc
      (getNtpTx eraSplit (setNtpTx eraSplit tss tss.rxTs txTs txSrc)) := by
  cases txTs with
  | none => exact ⟨fun _ hts => (by cases hts), fun _ => rfl⟩
  | some txTs =>
      have hdiff := Timespec.toNsec_diff txTs (Timespec.ofNtp64 eraSplit tss.rxTs)
      obtain ⟨hnsec, hnsec'⟩ :=
        Timespec.diff_normal txTs (Timespec.ofNtp64 eraSplit tss.rxTs)
      rw [setNtpTx]
      set ts := txTs.diff (Timespec.ofNtp64 eraSplit tss.rxTs)
      have hrange : TxInRange eraSplit tss.rxTs txTs ↔ ¬(ts.sec < -2 ∨ ts.sec > 1) := by
        rw [TxInRange, ← hdiff]
        unfold Timespec.toNsec nsecPerSec at *
        omega
      by_cases hout : ts.sec < -2 ∨ ts.sec > 1
      · rw [if_pos hout]
        refine ⟨?_, fun _ => rfl⟩
        rintro _ ⟨⟩ hin
        exact absurd hout (hrange.mp hin)
      · rw [if_neg hout]
        refine ⟨?_, fun h => absurd (hrange.mpr hout) (h _ rfl)⟩
        rintro _ ⟨⟩ -
        set tss' : NtpTimestamps := { tss with txTsOffset := _, validTx := true, txTsSource := _ }
        obtain ⟨hnormal, htx⟩ := getNtpTx_valid eraSplit (show tss'.validTx = true from rfl)
        refine ⟨htx.trans ?_, hnormal, rfl⟩
        dsimp only [tss']
        rw [toInt_txTsOffset (by omega) (by omega) hnsec hnsec']
        unfold Timespec.toNsec at *
        omega

/-! ### The history of an entry -/

/-- The timestamps of `rx` are in the map. -/
def Present (m : TimestampMap) (rx : BitVec 64) : Prop :=
  ∃ tss ∈ m.entries, tss.rxTs = rx

/-- The transmit timestamp stored for `rx` after a call, when `rx` is in the map. -/
def storedAfter (rx : BitVec 64) (stored : Option Timespec × TimestampSource) :
    Call → Option Timespec × TimestampSource
  | .update rx' txTs txSrc => if rx' = rx then (txTs, txSrc) else stored
  | _ => stored

/-- The call does not end the use of the timestamps of `rx`. -/
def Call.Keeps (rx : BitVec 64) : Call → Prop
  | .save rx' _ _ => rx' ≠ rx
  | .disable rx' => rx' ≠ rx
  | _ => True

/-- How an entry of the map after a call comes from an entry before the call. -/
structure Carried (eraSplit : ℤ) (c : Call) (tss tss' : NtpTimestamps) : Prop where
  rxTs : tss.rxTs = tss'.rxTs
  slew : ∀ doffset, c ≠ .slew doffset .unknownStep
  enabled : tss'.disabled = false → tss.disabled = false ∧ c.Keeps tss'.rxTs
  stored : ∀ stored, TxStored eraSplit tss.rxTs stored.1 stored.2 (getNtpTx eraSplit tss) →
    TxStored eraSplit tss'.rxTs (storedAfter tss'.rxTs stored c).1
      (storedAfter tss'.rxTs stored c).2 (getNtpTx eraSplit tss')

/-- How an entry of the map after a call comes from the call. -/
structure Saved (eraSplit : ℤ) (m : TimestampMap) (c : Call) (tss' : NtpTimestamps)
    (txTs : Option Timespec) (txSrc : TimestampSource) : Prop where
  call : c = .save tss'.rxTs txTs txSrc
  absent : ¬Present m tss'.rxTs
  stored : TxStored eraSplit tss'.rxTs txTs txSrc (getNtpTx eraSplit tss')

theorem Call.keeps_of_not_writes {c : Call} (h : ¬c.Writes rx) : c.Keeps rx := by
  cases c with
  | save rx' txTs txSrc => exact h
  | disable rx' => exact h
  | update rx' txTs txSrc => trivial
  | get rx' => trivial
  | undoSlew rx' txTs => trivial
  | slew doffset changeType => trivial

theorem storedAfter_of_not_writes {c : Call} (h : ¬c.Writes rx)
    (stored : Option Timespec × TimestampSource) : storedAfter rx stored c = stored := by
  cases c with
  | update rx' txTs txSrc => exact if_neg h
  | save rx' txTs txSrc => rfl
  | disable rx' => rfl
  | get rx' => rfl
  | undoSlew rx' txTs => rfl
  | slew doffset changeType => rfl

/-- An entry which is not written is carried as it is. -/
theorem Carried.of_not_writes {c : Call} {tss : NtpTimestamps} (h : ¬c.Writes tss.rxTs)
    (hslew : ∀ doffset, c ≠ .slew doffset .unknownStep) : Carried eraSplit c tss tss where
  rxTs := rfl
  slew := hslew
  enabled hd := ⟨hd, Call.keeps_of_not_writes h⟩
  stored stored hs := by rwa [storedAfter_of_not_writes h]

/-- What is in the map after one entry is written. -/
theorem mem_entries_set (h : m.MapInvariant) {i : ℕ} (hi : i < m.size) {tss new : NtpTimestamps}
    (htss : tss ∈ m.entries.set i new) :
    tss = new ∨ tss ∈ m.entries ∧ tss.rxTs ≠ m.rxAt i := by
  obtain ⟨j, hj, rfl⟩ := List.mem_iff_getElem.mp htss
  rw [List.length_set, length_entries] at hj
  obtain ⟨k, hk⟩ := h.exists_capacity (by omega)
  rw [List.getElem_set]
  by_cases hij : i = j
  · exact .inl (if_pos hij)
  · rw [if_neg hij, getElem_entries hk]
    refine .inr ⟨(mem_entries_iff h).mpr ⟨j, hj, rfl⟩, ?_⟩
    exact fun heq => hij (h.rxAt_injective hj hi heq).symm

/-- **Where an entry comes from.** -/
theorem StepEffect.origin (h : m.MapInvariant) {c : Call} {l : List NtpTimestamps}
    (heffect : StepEffect eraSplit m c l) {tss' : NtpTimestamps} (htss' : tss' ∈ l) :
    (∃ txTs txSrc, Saved eraSplit m c tss' txTs txSrc) ∨
      ∃ tss ∈ m.entries, Carried eraSplit c tss tss' := by
  cases heffect with
  | keep hwrites hslew =>
      exact .inr ⟨tss', htss', .of_not_writes (hwrites _ htss') hslew⟩
  | @disable c i hi hc =>
      have hslew : ∀ doffset, c ≠ .slew doffset .unknownStep := by
        rintro doffset rfl
        rcases hc with hc | ⟨_, _, hc⟩ <;> cases hc
      have hstored : ∀ stored, storedAfter (m.rxAt i) stored c = stored := by
        intro stored
        rcases hc with rfl | ⟨_, _, rfl⟩ <;> rfl
      rcases mem_entries_set h hi htss' with rfl | ⟨hmem, hne⟩
      · refine .inr ⟨m.getNtpTss i, (mem_entries_iff h).mpr ⟨i, hi, rfl⟩, rfl, hslew,
          fun hd => (by cases hd), fun stored hs => ?_⟩
        change TxStored eraSplit (m.rxAt i) (storedAfter (m.rxAt i) stored c).1
          (storedAfter (m.rxAt i) stored c).2 (getNtpTx eraSplit (m.getNtpTss i))
        rw [hstored]
        exact hs
      · refine .inr ⟨tss', hmem, .of_not_writes ?_ hslew⟩
        rcases hc with rfl | ⟨_, _, rfl⟩
        · exact hne.symm
        · exact hne.symm
  | @update i hi txTs txSrc =>
      have hslew : ∀ doffset, Call.update (m.rxAt i) txTs txSrc ≠ .slew doffset .unknownStep :=
        fun _ hc => by cases hc
      rcases mem_entries_set h hi htss' with rfl | ⟨hmem, hne⟩
      · refine .inr ⟨m.getNtpTss i, (mem_entries_iff h).mpr ⟨i, hi, rfl⟩,
          (setNtpTx_rxTs _ _ _ _ _).symm, hslew, ?_, ?_⟩
        · rw [setNtpTx_disabled]
          exact fun hd => ⟨hd, trivial⟩
        · intro stored _
          rw [setNtpTx_rxTs, show (m.getNtpTss i).rxTs = m.rxAt i from rfl, storedAfter,
            if_pos rfl]
          exact getNtpTx_setNtpTx _ txTs txSrc
      · exact .inr ⟨tss', hmem, .of_not_writes hne.symm hslew⟩
  | @insert rx txTs txSrc _ old hrx hnew hl =>
      rcases hl tss' htss' with rfl | hmem
      · refine .inl ⟨txTs, txSrc, by rw [savedTss_rxTs], ?_, ?_⟩
        · rintro ⟨tss, htss, heq⟩
          rw [savedTss_rxTs] at heq
          exact hrx tss htss heq
        · rw [savedTss_rxTs]
          exact getNtpTx_setNtpTx { old with
            rxTs := rx, disabled := false, validTx := false, slewEpoch := m.slewEpoch } txTs txSrc
      · refine .inr ⟨tss', hmem, .of_not_writes ?_ fun _ hc => by cases hc⟩
        exact fun hw => hrx tss' hmem hw.symm
  | forget doffset => cases htss'

/-- **The history of an entry**: the calls since the save which put it in the map. -/
structure History (eraSplit : ℤ) (m : TimestampMap) (calls : List Call) (rx : BitVec 64)
    (disabled : Bool) (result : Timespec × TimestampSource) (before after : List Call)
    (txTs : Option Timespec) (txSrc : TimestampSource) : Prop where
  /-- The timestamps were put in the map by the save between `before` and `after`. -/
  calls_eq : calls = before ++ .save rx txTs txSrc :: after
  /-- They were not in the map before the save. -/
  absent : ∀ m₁, run eraSplit m before = some m₁ → ¬Present m₁ rx
  /-- They were in the map all the time since then. -/
  present : ∀ l, l <+: after → ∀ m₁, run eraSplit m (before ++ .save rx txTs txSrc :: l) = some m₁ →
    Present m₁ rx
  /-- There was no unknown step. -/
  slew : ∀ c ∈ after, ∀ doffset, c ≠ .slew doffset .unknownStep
  /-- Timestamps which are not disabled were not saved again and not disabled. -/
  enabled : disabled = false → ∀ c ∈ after, c.Keeps rx
  /-- What is returned is what was stored last. -/
  stored : TxStored eraSplit rx (after.foldl (storedAfter rx) (txTs, txSrc)).1
    (after.foldl (storedAfter rx) (txTs, txSrc)).2 result

theorem run_snoc (eraSplit : ℤ) (m : TimestampMap) (calls : List Call) (c : Call) :
    run eraSplit m (calls ++ [c]) = (run eraSplit m calls).bind fun m' => step eraSplit m' c := by
  rw [run, List.foldlM_append]
  change (run eraSplit m calls).bind _ = _
  congr 1
  funext m'
  rw [List.foldlM_cons]
  cases step eraSplit m' c with
  | none => rfl
  | some m'' => rfl

/-- Every entry has a history. -/
theorem run_history (h : m.MapInvariant) (hempty : m.entries = []) (calls : List Call)
    (hrun : run eraSplit m calls = some m') {tss : NtpTimestamps} (htss : tss ∈ m'.entries) :
    ∃ before after txTs txSrc, History eraSplit m calls tss.rxTs tss.disabled
      (getNtpTx eraSplit tss) before after txTs txSrc := by
  induction calls using List.reverseRecOn generalizing m' tss with
  | nil =>
      cases hrun
      rw [hempty] at htss
      cases htss
  | append_singleton calls c ih =>
      rw [run_snoc] at hrun
      obtain ⟨m₁, hrun₁, hinv₁⟩ := run_inv eraSplit h calls
      rw [hrun₁, Option.bind_some] at hrun
      obtain ⟨m₂, hstep, hinv₂, heffect⟩ := step_effect eraSplit hinv₁ c
      obtain rfl : m₂ = m' := Option.some.inj (hstep.symm.trans hrun)
      rcases heffect.origin hinv₁ htss with ⟨txTs, txSrc, hsaved⟩ | ⟨tss₁, htss₁, hcarried⟩
      · refine ⟨calls, [], txTs, txSrc, ?_, ?_, ?_, ?_, ?_, hsaved.stored⟩
        · rw [hsaved.call]
        · intro m₃ hrun₃
          obtain rfl : m₁ = m₃ := Option.some.inj (hrun₁.symm.trans hrun₃)
          exact hsaved.absent
        · intro l hl m₃ hrun₃
          obtain rfl := List.prefix_nil.mp hl
          rw [← hsaved.call, run_snoc, hrun₁, Option.bind_some, hstep] at hrun₃
          cases hrun₃
          exact ⟨tss, htss, rfl⟩
        · intro c hc
          cases hc
        · intro _ c hc
          cases hc
      · obtain ⟨before, after, txTs, txSrc, hist⟩ := ih hrun₁ htss₁
        have hstored := hcarried.stored _ hist.stored
        rw [hcarried.rxTs] at hist hstored
        refine ⟨before, after ++ [c], txTs, txSrc, ?_, hist.absent, ?_, ?_, ?_, ?_⟩
        · rw [hist.calls_eq, List.append_assoc, List.cons_append]
        · intro l hl m₃ hrun₃
          rcases List.prefix_concat_iff.mp hl with rfl | hl
          · rw [← List.cons_append, ← List.append_assoc, ← hist.calls_eq, run_snoc, hrun₁,
              Option.bind_some, hstep] at hrun₃
            cases hrun₃
            exact ⟨tss, htss, rfl⟩
          · exact hist.present l hl m₃ hrun₃
        · intro c' hc'
          rcases List.mem_append.mp hc' with hc' | hc'
          · exact hist.slew c' hc'
          · rw [List.mem_singleton.mp hc']
            exact hcarried.slew
        · intro hd c' hc'
          obtain ⟨hd₁, hkeeps⟩ := hcarried.enabled hd
          rcases List.mem_append.mp hc' with hc' | hc'
          · exact hist.enabled hd₁ c' hc'
          · rwa [List.mem_singleton.mp hc']
        · rw [List.foldl_append]
          exact hstored

/-- **The map returns only what was saved.** When a transmit timestamp is returned for `rx`
after a sequence of calls, exactly one of the calls since `rx` was last absent from the map
saved it; since then there was no unknown step, no other save and no disabling of `rx`; and
what is returned is the timestamp stored last, to the nanosecond when it is in range, and
zero otherwise. -/
theorem getNtpTxTimestamp_stored (eraSplit : ℤ) (noClientLog : Bool) (slots : ℕ)
    (timestamps : ℕ → NtpTimestamps) (calls : List Call) (rx : BitVec 64) :
    ∃ m m' result, run eraSplit (initialise noClientLog slots timestamps) calls = some m ∧
      getNtpTxTimestamp eraSplit m rx = some (result, m') ∧
      ∀ r, result = some r → ∃ before after txTs txSrc,
        History eraSplit (initialise noClientLog slots timestamps) calls rx false r
          before after txTs txSrc := by
  have hinit := initialise_inv noClientLog slots timestamps
  obtain ⟨m, hrun, h⟩ := run_inv eraSplit hinit calls
  refine ⟨m, ?_⟩
  obtain ⟨found, index, m₁, hfind, hm₁, hresult⟩ := findNtpRxTs_spec h rx
  rw [getNtpTxTimestamp]
  by_cases halloc : m.allocated = true
  · rw [if_neg (by rw [halloc]; decide), hfind]
    cases found with
    | false => exact ⟨m₁, none, hrun, rfl, fun r hr => by cases hr⟩
    | true =>
        dsimp only
        by_cases hd : (m₁.getNtpTss index).disabled = true
        · rw [if_pos hd]
          exact ⟨m₁, none, hrun, rfl, fun r hr => by cases hr⟩
        · rw [if_neg hd]
          refine ⟨m₁, _, hrun, rfl, ?_⟩
          rintro r ⟨⟩
          obtain ⟨hi, rfl⟩ := hm₁.toSameEntries.findResult hresult
          rw [Bool.not_eq_true, hm₁.getNtpTss_eq] at hd
          obtain ⟨before, after, txTs, txSrc, hist⟩ := run_history hinit rfl calls hrun
            ((mem_entries_iff h).mpr ⟨index, hi, rfl⟩)
          rw [hd] at hist
          rw [hm₁.getNtpTss_eq]
          exact ⟨before, after, txTs, txSrc, hist⟩
  · rw [Bool.not_eq_true] at halloc
    rw [if_pos (by rw [halloc]; rfl)]
    exact ⟨m, none, hrun, rfl, fun r hr => by cases hr⟩

end Chrony.ClientLog
