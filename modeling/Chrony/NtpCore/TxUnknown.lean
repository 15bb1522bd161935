import Chrony.ClientLog.Retrieval
import Chrony.NtpCore.Association

/-!
# Transmit Timestamps of Responses

`NCR_ProcessTxUnknown`, which is called when a more accurate transmit timestamp of a response
is available. The timestamp saved in the client log is copied, the copy is passed to
`update_tx_timestamp`, which keeps it if the new timestamp is not acceptable, and then the
new timestamp is saved instead of the copy.

## Main results

* `processTxUnknown_keeps_iff`: when a timestamp which is not accepted leaves the saved one
  as it was.
-/

namespace Chrony.NtpCore

open Lib ClientLog TimestampMap

/-! ### The function -/

/-- `update_tx_timestamp`, as the value of the transmit timestamp after the call. The two
timestamps which identify the packet are optional. -/
def newTxTimestamp (txTs newTxTs : LocalTimestamp) (localNtpRx localNtpTx : Option (BitVec 64))
    (message : Message) : LocalTimestamp :=
  if txTs.ts = .zero then txTs
  else if localNtpRx.any (fun rx => compareNtp64 message.receiveTs rx ≠ 0) ∨
      localNtpTx.any (fun tx => compareNtp64 message.transmitTs tx ≠ 0) then txTs
  else
    let delay := newTxTs.ts.diffToDouble txTs.ts
    if delay < 0 ∨ delay > maxTxDelay then txTs else newTxTs

/-- For a packet sent by an association both timestamps are checked. -/
theorem updateTxTimestamp_eq (txTs : LocalTimestamp) (message : Message) (inst : Instance) :
    updateTxTimestamp txTs message inst = { inst with
      localTx := newTxTimestamp inst.localTx txTs (some inst.localNtpRx) (some inst.localNtpTx)
        message } := by
  rw [updateTxTimestamp, newTxTimestamp]
  simp only [Option.any_some, decide_eq_true_eq]
  split_ifs
  all_goals rfl

/-- The transmit timestamp with the offset of the time smoothing, which is added in
responses of a server if it is enabled. -/
def smoothed (smoothing : Option (Timespec → ℚ)) (mode : NtpMode) (txTs : LocalTimestamp) :
    LocalTimestamp :=
  match smoothing with
  | some offset =>
      if mode = .server then { txTs with ts := txTs.ts.addDouble (offset txTs.ts) } else txTs
  | none => txTs

/-- `NCR_ProcessTxUnknown`. The packet is none if it is not accepted by `parse_packet`. The
copy of the saved timestamp after `update_tx_timestamp` is not used. -/
def processTxUnknown (eraSplit : ℤ) (m : TimestampMap) (txTs : LocalTimestamp)
    (message : Option Message) (smoothing : Option (Timespec → ℚ)) : Option TimestampMap :=
  match message with
  | none => some m
  | some message =>
      if message.mode = .broadcast then some m
      else
        let newTx := smoothed smoothing message.mode txTs
        let localNtpRx := message.receiveTs
        match getNtpTxTimestamp eraSplit m localNtpRx with
        | none => none
        | some (none, m) => some m
        | some (some (ts, source), m) =>
            match undoNtpTxTimestampSlew m localNtpRx newTx.ts with
            | none => none
            | some (newTs, m) =>
                let newTx := { newTx with ts := newTs }
                let _oldTx := newTxTimestamp ⟨ts, source⟩ newTx (some localNtpRx) none message
                updateNtpTxTimestamp eraSplit m localNtpRx (some newTx.ts) newTx.source

/-! ### What is saved -/

/-- The position of the timestamps saved for a receive timestamp, if they are enabled. -/
def savedIndex (m : TimestampMap) (rx : BitVec 64) : Option ℕ :=
  (m.linearScan rx).filter fun i => !(m.getNtpTss i).disabled

/-- The saved transmit timestamp. -/
def savedTx (eraSplit : ℤ) (m : TimestampMap) (i : ℕ) : LocalTimestamp :=
  ⟨(getNtpTx eraSplit (m.getNtpTss i)).1, (getNtpTx eraSplit (m.getNtpTss i)).2⟩

/-- The new transmit timestamp, without the last adjustment of the clock if the receive
timestamp was captured before it. -/
def undoneTx (m : TimestampMap) (i : ℕ) (txTs : LocalTimestamp) : LocalTimestamp :=
  if (m.getNtpTss i).slewEpoch + 1 = m.slewEpoch then
    { txTs with ts := txTs.ts.addDouble m.slewOffset }
  else txTs

/-- **The new timestamp is accepted by `update_tx_timestamp`.** -/
def TxAccepted (txTs newTxTs : LocalTimestamp) : Prop :=
  txTs.ts ≠ .zero ∧ 0 ≤ newTxTs.ts.diffToDouble txTs.ts ∧
    newTxTs.ts.diffToDouble txTs.ts ≤ maxTxDelay

theorem compareNtp64_self (a : BitVec 64) : compareNtp64 a a = 0 := if_pos rfl

open Classical in
/-- The check of the received packet passes for every response. -/
theorem newTxTimestamp_response (txTs newTxTs : LocalTimestamp) (message : Message) :
    newTxTimestamp txTs newTxTs (some message.receiveTs) none message =
      if TxAccepted txTs newTxTs then newTxTs else txTs := by
  rw [newTxTimestamp]
  by_cases hzero : txTs.ts = .zero
  · rw [if_pos hzero, if_neg fun h => h.1 hzero]
  · rw [if_neg hzero, if_neg (by simp [compareNtp64_self])]
    dsimp only
    by_cases hdelay : newTxTs.ts.diffToDouble txTs.ts < 0 ∨
        newTxTs.ts.diffToDouble txTs.ts > maxTxDelay
    · rw [if_pos hdelay, if_neg]
      rintro ⟨-, hnonneg, hle⟩
      rcases hdelay with hlt | hgt
      · exact absurd hnonneg (not_le.mpr hlt)
      · exact absurd hle (not_le.mpr hgt)
    · rw [not_or, not_lt, not_lt] at hdelay
      rw [if_neg (by rw [not_or, not_lt, not_lt]; exact hdelay), if_pos ⟨hzero, hdelay⟩]

/-- **Saving of a timestamp makes no difference**: it is the one which is saved, or there is
none and this one is too far from the receive timestamp. -/
def TxUnchanged (eraSplit : ℤ) (tss : NtpTimestamps) (tx : LocalTimestamp) : Prop :=
  if tss.validTx then
    TxInRange eraSplit tss.rxTs tx.ts ∧ tx.ts.toNsec = (getNtpTx eraSplit tss).1.toNsec ∧
      tx.source = tss.txTsSource
  else ¬TxInRange eraSplit tss.rxTs tx.ts

theorem setNtpTx_eq_self_iff (eraSplit : ℤ) (tss : NtpTimestamps) (tx : LocalTimestamp) :
    setNtpTx eraSplit tss tss.rxTs (some tx.ts) tx.source = tss ↔ TxUnchanged eraSplit tss tx := by
  have hdiff := Timespec.toNsec_diff tx.ts (Timespec.ofNtp64 eraSplit tss.rxTs)
  obtain ⟨hnsec, hnsec'⟩ := Timespec.diff_normal tx.ts (Timespec.ofNtp64 eraSplit tss.rxTs)
  rw [setNtpTx, TxUnchanged]
  generalize tx.ts.diff (Timespec.ofNtp64 eraSplit tss.rxTs) = ts at hdiff hnsec hnsec'
  have hrange : TxInRange eraSplit tss.rxTs tx.ts ↔ ¬(ts.sec < -2 ∨ ts.sec > 1) := by
    rw [TxInRange, ← hdiff]
    unfold Timespec.toNsec nsecPerSec at *
    omega
  by_cases hout : ts.sec < -2 ∨ ts.sec > 1
  · rw [if_pos hout]
    have hnot : ¬TxInRange eraSplit tss.rxTs tx.ts := fun hin => hrange.mp hin hout
    cases hvalid : tss.validTx with
    | false =>
        rw [if_neg (by decide)]
        exact iff_of_true (by rw [← hvalid]) hnot
    | true =>
        rw [if_pos rfl]
        refine iff_of_false (fun heq => ?_) fun h => hnot h.1
        rw [← heq] at hvalid
        cases hvalid
  · rw [if_neg hout]
    have hin : TxInRange eraSplit tss.rxTs tx.ts := hrange.mpr hout
    have hoffset : (BitVec.ofInt 32 ts.nsec +
        BitVec.ofInt 32 ts.sec * BitVec.ofInt 32 nsecPerSec).toInt =
          ts.sec * nsecPerSec + ts.nsec :=
      toInt_txTsOffset (by omega) (by omega) hnsec hnsec'
    cases hvalid : tss.validTx with
    | false =>
        rw [if_neg (by decide)]
        refine iff_of_false (fun heq => ?_) fun h => h hin
        rw [← heq] at hvalid
        cases hvalid
    | true =>
        rw [if_pos rfl]
        have htx := (getNtpTx_valid eraSplit hvalid).2
        have hts : ts.toNsec = ts.sec * nsecPerSec + ts.nsec := rfl
        constructor
        · intro heq
          have hsame := congrArg NtpTimestamps.txTsOffset heq
          refine ⟨hin, ?_, congrArg NtpTimestamps.txTsSource heq⟩
          rw [htx, ← hsame, hoffset]
          omega
        · rintro ⟨-, htime, hsource⟩
          have hsame : BitVec.ofInt 32 ts.nsec +
              BitVec.ofInt 32 ts.sec * BitVec.ofInt 32 nsecPerSec = tss.txTsOffset := by
            refine BitVec.eq_of_toInt_eq ?_
            rw [hoffset]
            omega
          rw [hsame, hsource, ← hvalid]

variable {m : TimestampMap} {rx : BitVec 64} {i : ℕ}

theorem findNtpRxTs_slewOffset {r : Bool × ℕ × TimestampMap} (h : m.findNtpRxTs rx = some r) :
    r.2.2.slewOffset = m.slewOffset := by
  rw [findNtpRxTs] at h
  split at h
  · cases h
    rfl
  · split at h
    · cases h
      rfl
    · dsimp only at h
      split at h
      · cases h
        rfl
      · split at h
        · cases h
          rfl
        · split at h
          · cases h
          · cases h
            rfl
          · cases h
            rfl

/-- Saved timestamps are found by all of the searches. -/
theorem findNtpRxTs_saved (h : m.MapInvariant) (hsaved : m.linearScan rx = some i) :
    ∃ m₁, m.findNtpRxTs rx = some (true, i, m₁) ∧ m.Found m₁ ∧ m₁.slewOffset = m.slewOffset ∧
      m.allocated = true ∧ i < m.size ∧ m.rxAt i = rx ∧ m₁.linearScan rx = some i := by
  obtain ⟨found, index, m₁, hfind, hm₁, hresult⟩ := findNtpRxTs_spec h rx
  have hscan₁ := hresult.linearScan hm₁.inv
  have hscan := (hm₁.toSameEntries.findResult hresult).linearScan h
  rw [hsaved] at hscan
  cases found with
  | false => cases hscan
  | true =>
      obtain rfl := Option.some.inj hscan
      obtain ⟨hi, hrx⟩ := hm₁.toSameEntries.findResult hresult
      refine ⟨m₁, hfind, hm₁, findNtpRxTs_slewOffset hfind, ?_, hi, hrx, hscan₁⟩
      by_contra halloc
      rw [Bool.not_eq_true] at halloc
      rw [h.unallocated halloc] at hi
      cases hi

theorem getNtpTxTimestamp_spec (eraSplit : ℤ) (h : m.MapInvariant) (rx : BitVec 64) : ∃ m₁,
    getNtpTxTimestamp eraSplit m rx =
      some ((savedIndex m rx).map fun i => getNtpTx eraSplit (m.getNtpTss i), m₁) ∧
    m.Found m₁ ∧ m₁.slewOffset = m.slewOffset ∧ m₁.linearScan rx = m.linearScan rx := by
  obtain ⟨found, index, m₁, hfind, hm₁, hresult⟩ := findNtpRxTs_spec h rx
  have hscan₁ := hresult.linearScan hm₁.inv
  have hscan := (hm₁.toSameEntries.findResult hresult).linearScan h
  rw [getNtpTxTimestamp, savedIndex, hscan]
  by_cases halloc : m.allocated = true
  · rw [if_neg (by rw [halloc]; decide), hfind]
    refine ⟨m₁, ?_, hm₁, findNtpRxTs_slewOffset hfind, hscan₁⟩
    cases found with
    | false => rfl
    | true =>
        dsimp only
        rw [hm₁.getNtpTss_eq, if_pos rfl]
        cases hd : (m.getNtpTss index).disabled with
        | true => simp [hd]
        | false => simp [hd]
  · rw [Bool.not_eq_true] at halloc
    have hempty : m.linearScan rx = none := linearScan_eq_none fun i hi => by
      rw [h.unallocated halloc] at hi
      cases hi
    rw [if_pos (by rw [halloc]; rfl), ← hscan, hempty]
    exact ⟨m, rfl, .refl h, rfl, hempty⟩

theorem undoNtpTxTimestampSlew_saved (h : m.MapInvariant) (hsaved : m.linearScan rx = some i)
    (txTs : LocalTimestamp) : ∃ m₁,
    undoNtpTxTimestampSlew m rx txTs.ts = some ((undoneTx m i txTs).ts, m₁) ∧ m.Found m₁ ∧
      m₁.linearScan rx = some i := by
  obtain ⟨m₁, hfind, hm₁, hoffset, halloc, -, -, hscan⟩ := findNtpRxTs_saved h hsaved
  refine ⟨m₁, ?_, hm₁, hscan⟩
  rw [undoNtpTxTimestampSlew, if_neg (by rw [halloc]; decide), hfind, undoneTx]
  dsimp only
  rw [hm₁.getNtpTss_eq, hm₁.slewEpoch, hoffset]
  split
  · rfl
  · rfl

theorem updateNtpTxTimestamp_saved (eraSplit : ℤ) (h : m.MapInvariant)
    (hsaved : m.linearScan rx = some i) (txTs : Option Timespec) (txSrc : TimestampSource) :
    ∃ m', updateNtpTxTimestamp eraSplit m rx txTs txSrc = some m' ∧ m'.entries =
      m.entries.set i (setNtpTx eraSplit (m.getNtpTss i) rx txTs txSrc) := by
  obtain ⟨m₁, hfind, hm₁, -, halloc, hi, hrx, -⟩ := findNtpRxTs_saved h hsaved
  rw [updateNtpTxTimestamp, if_neg (by rw [halloc]; decide), hfind]
  refine ⟨_, rfl, ?_⟩
  rw [hm₁.getNtpTss_eq]
  have hspec := setNtpTss_spec hm₁.inv (i := i) (by rw [hm₁.size]; exact hi)
    (setNtpTx eraSplit (m.getNtpTss i) rx txTs txSrc) (by rw [setNtpTx_rxTs, hm₁.rxAt_eq]; rfl)
  rw [hspec.2, hm₁.entries_eq]

/-- **What `NCR_ProcessTxUnknown` saves.** The timestamps of the packet get the new transmit
timestamp, whatever `update_tx_timestamp` says about it. -/
theorem processTxUnknown_spec (eraSplit : ℤ) (h : m.MapInvariant) (txTs : LocalTimestamp)
    (message : Option Message) (smoothing : Option (Timespec → ℚ)) :
    ∃ m', processTxUnknown eraSplit m txTs message smoothing = some m' ∧
      ((∀ packet ∈ message, packet.mode ≠ .broadcast → savedIndex m packet.receiveTs = none) →
        m'.entries = m.entries) ∧
      ∀ packet ∈ message, packet.mode ≠ .broadcast → ∀ i ∈ savedIndex m packet.receiveTs,
        let tx := undoneTx m i (smoothed smoothing packet.mode txTs)
        m'.entries = m.entries.set i
          (setNtpTx eraSplit (m.getNtpTss i) packet.receiveTs (some tx.ts) tx.source) := by
  cases message with
  | none =>
      exact ⟨m, rfl, fun _ => rfl, fun _ hpacket => absurd hpacket (Option.not_mem_none _)⟩
  | some packet =>
      by_cases hmode : packet.mode = .broadcast
      · refine ⟨m, if_pos hmode, fun _ => rfl, ?_⟩
        rintro _ ⟨⟩ hno
        exact absurd hmode hno
      obtain ⟨m₁, hget, hm₁, hoffset, hscan⟩ := getNtpTxTimestamp_spec eraSplit h packet.receiveTs
      rw [processTxUnknown, if_neg hmode]
      dsimp only
      rw [hget]
      cases hsaved : savedIndex m packet.receiveTs with
      | none =>
          refine ⟨m₁, rfl, fun _ => hm₁.entries_eq, ?_⟩
          rintro _ ⟨⟩ - i hi
          rw [hsaved] at hi
          cases hi
      | some i =>
          have hi : m.linearScan packet.receiveTs = some i :=
            (Option.filter_eq_some_iff.mp hsaved).1
          rw [hi] at hscan
          obtain ⟨m₂, hundo, hm₂, hscan₂⟩ := undoNtpTxTimestampSlew_saved hm₁.inv hscan
            (smoothed smoothing packet.mode txTs)
          have hundone : ∀ tx, undoneTx m₁ i tx = undoneTx m i tx := fun tx => by
            rw [undoneTx, undoneTx, hm₁.getNtpTss_eq, hm₁.slewEpoch, hoffset]
          have hsource : ∀ tx, (undoneTx m i tx).source = tx.source := fun tx => by
            rw [undoneTx]
            split
            · rfl
            · rfl
          rw [hundone] at hundo
          obtain ⟨m', hupdate, hentries⟩ := updateNtpTxTimestamp_saved eraSplit hm₂.inv hscan₂
            (some (undoneTx m i (smoothed smoothing packet.mode txTs)).ts)
            (smoothed smoothing packet.mode txTs).source
          rw [Option.map_some]
          dsimp only
          rw [hundo]
          refine ⟨m', hupdate, fun hnone => ?_, ?_⟩
          · cases (hnone packet rfl hmode).symm.trans hsaved
          · rintro _ ⟨⟩ - j hj
            obtain rfl := Option.some.inj (hsaved.symm.trans hj)
            rw [hentries, hm₂.entries_eq, hm₁.entries_eq, hm₂.getNtpTss_eq, hm₁.getNtpTss_eq,
              hsource]

/-- An assignment to saved timestamps changes nothing if they are the same. -/
theorem entries_set_eq_self_iff (h : m.MapInvariant) (hi : i < m.size) (tss : NtpTimestamps) :
    m.entries.set i tss = m.entries ↔ tss = m.getNtpTss i := by
  obtain ⟨k, hk⟩ := h.exists_capacity (by omega)
  have hlength : i < m.entries.length := by rwa [length_entries]
  have hget := getElem_entries hk hlength
  constructor
  · intro heq
    rw [← hget, ← List.getElem_set_self (a := tss) (by rwa [List.length_set])]
    exact List.getElem_of_eq heq _
  · rintro rfl
    rw [← hget, List.set_getElem_self]

/-- **When a timestamp which is not accepted leaves the saved one as it was.** In every state of
the client log, the saved timestamps are not changed by a transmit timestamp that is rejected,
if and only if none is rejected, or saving of it makes no difference. -/
theorem processTxUnknown_keeps_iff (eraSplit : ℤ) (noClientLog : Bool) (slots : ℕ)
    (timestamps : ℕ → NtpTimestamps) (calls : List Call) (txTs : LocalTimestamp)
    (message : Option Message) (smoothing : Option (Timespec → ℚ)) :
    ∃ m m', ClientLog.run eraSplit (initialise noClientLog slots timestamps) calls = some m ∧
      processTxUnknown eraSplit m txTs message smoothing = some m' ∧
      ((∀ packet ∈ message, ∀ i ∈ savedIndex m packet.receiveTs,
        ¬TxAccepted (savedTx eraSplit m i)
          (undoneTx m i (smoothed smoothing packet.mode txTs)) → m'.entries = m.entries) ↔
      ∀ packet ∈ message, packet.mode ≠ .broadcast → ∀ i ∈ savedIndex m packet.receiveTs,
        TxAccepted (savedTx eraSplit m i) (undoneTx m i (smoothed smoothing packet.mode txTs)) ∨
        TxUnchanged eraSplit (m.getNtpTss i)
          (undoneTx m i (smoothed smoothing packet.mode txTs))) := by
  obtain ⟨m, hrun, h⟩ := run_inv eraSplit (initialise_inv noClientLog slots timestamps) calls
  obtain ⟨m', hprocess, hsame, hset⟩ := processTxUnknown_spec eraSplit h txTs message smoothing
  refine ⟨m, m', hrun, hprocess, ?_⟩
  have hkeep : ∀ packet ∈ message, packet.mode ≠ .broadcast →
      ∀ i ∈ savedIndex m packet.receiveTs, (m'.entries = m.entries ↔
        TxUnchanged eraSplit (m.getNtpTss i)
          (undoneTx m i (smoothed smoothing packet.mode txTs))) := by
    intro packet hpacket hmode i hi
    obtain ⟨-, -, -, -, -, hlt, hrx, -⟩ :=
      findNtpRxTs_saved h (Option.filter_eq_some_iff.mp hi).1
    have hrx' : (m.getNtpTss i).rxTs = packet.receiveTs := hrx
    rw [hset packet hpacket hmode i hi, ← hrx', entries_set_eq_self_iff h hlt,
      setNtpTx_eq_self_iff]
  constructor
  · intro hprop packet hpacket hmode i hi
    by_cases haccept : TxAccepted (savedTx eraSplit m i)
      (undoneTx m i (smoothed smoothing packet.mode txTs))
    · exact .inl haccept
    · exact .inr ((hkeep packet hpacket hmode i hi).mp (hprop packet hpacket i hi haccept))
  · intro hcond packet hpacket i hi hreject
    by_cases hmode : packet.mode = .broadcast
    · refine hsame fun packet' hpacket' hmode' => ?_
      obtain rfl := Option.some.inj (hpacket.symm.trans hpacket')
      exact absurd hmode hmode'
    · exact (hkeep packet hpacket hmode i hi).mpr
        ((hcond packet hpacket hmode i hi).resolve_left hreject)

/-- A response of a server. -/
def sampleReply : Message where
  leap := .normal
  mode := .server
  stratum := 1
  poll := 6
  rootDelay := 0
  rootDispersion := 0
  referenceId := 0
  originateTs := 0
  receiveTs := 0xE000000000000001
  transmitTs := 0xE000000001000000

/-- **An earlier timestamp replaces the saved one.** The hardware timestamp of a response is one
millisecond before the timestamp which was made by the daemon. -/
theorem processTxUnknown_replaces : ∃ m m',
    ClientLog.run 0 (initialise false 1 fun _ => ⟨0, false, false, .daemon, 0, 0⟩)
      [.save sampleReply.receiveTs (some ⟨1549107584, 5000000⟩) .daemon] = some m ∧
    savedIndex m sampleReply.receiveTs = some 0 ∧
    savedTx 0 m 0 = ⟨⟨1549107584, 5000000⟩, .daemon⟩ ∧
    ¬TxAccepted (savedTx 0 m 0) (undoneTx m 0 ⟨⟨1549107584, 4000000⟩, .hardware⟩) ∧
    processTxUnknown 0 m ⟨⟨1549107584, 4000000⟩, .hardware⟩ (some sampleReply) none = some m' ∧
    savedTx 0 m' 0 = ⟨⟨1549107584, 4000000⟩, .hardware⟩ := by
  let newTx : LocalTimestamp := ⟨⟨1549107584, 4000000⟩, .hardware⟩
  obtain ⟨m, hrun, hm⟩ := Option.map_eq_some_iff.mp (show
    (ClientLog.run 0 (initialise false 1 fun _ => ⟨0, false, false, .daemon, 0, 0⟩)
      [.save sampleReply.receiveTs (some ⟨1549107584, 5000000⟩) .daemon]).map
        (fun m => (savedIndex m sampleReply.receiveTs, savedTx 0 m 0, undoneTx m 0 newTx,
          (processTxUnknown 0 m newTx (some sampleReply) none).map fun m' => savedTx 0 m' 0)) =
      some (some 0, ⟨⟨1549107584, 5000000⟩, .daemon⟩, newTx, some newTx) by decide +kernel)
  simp only [Prod.mk.injEq, Option.map_eq_some_iff] at hm
  obtain ⟨hindex, hsaved, hundone, m', hprocess, hsaved'⟩ := hm
  refine ⟨m, m', hrun, hindex, hsaved, ?_, hprocess, hsaved'⟩
  rw [hsaved, hundone]
  rintro ⟨-, hdelay, -⟩
  exact absurd hdelay (by decide +kernel)

end Chrony.NtpCore
