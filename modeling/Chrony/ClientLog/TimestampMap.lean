import Chrony.Lib.RingBuffer
import Chrony.Lib.WrapOrder
import Chrony.Timespec

/-!
# The Map of RX to TX Timestamps

The functions of `clientlog.c` which keep the receive and transmit timestamps of
responses for clients using the interleaved mode. The map is an array in which the
timestamps are kept as a ring buffer ordered by the receive timestamp.

The indices of the map are natural numbers: the size is at most `2 ^ 24`, so that the
32-bit arithmetic of the source does not overflow. The one exception is the interpolated
index of the search, which is truncated as in the source. The array is not initialised
when it is allocated; its initial contents are a parameter.

A function returns `none` where the source would not return: in an endless search, or in
a failed assertion.
-/

namespace Chrony.ClientLog

open Lib

/-- `NtpTimestamps`. The two flags are `NTPTS_DISABLED` and `NTPTS_VALID_TX`. -/
structure NtpTimestamps where
  rxTs : BitVec 64
  disabled : Bool
  validTx : Bool
  txTsSource : TimestampSource
  slewEpoch : BitVec 16
  txTsOffset : BitVec 32
  deriving DecidableEq, Repr

/-- `NtpTimestampMap`, with the flag `active` of the client log. -/
structure TimestampMap where
  active : Bool
  allocated : Bool
  timestamps : ℕ → NtpTimestamps
  first : ℕ
  size : ℕ
  maxSize : ℕ
  cachedIndex : ℕ
  cachedRxTs : BitVec 64
  slewEpoch : BitVec 16
  slewOffset : ℚ

/-- `LCL_ChangeType`. -/
inductive ChangeType
  | adjust
  | step
  | unknownStep
  deriving DecidableEq, Repr

/-- `SLOT_BITS`. -/
def slotBits : ℕ := 3

/-- `MIN_SLOTS`. -/
def minSlots : ℕ := 1

/-- `MAX_SLOTS`. -/
def maxSlots : ℕ := 1 <<< (24 - slotBits)

/-- `NTPTS_FUTURE_LIMIT`. -/
def futureLimit : BitVec 64 := 1 <<< 32

/-- `NTPTS_INSERT_LIMIT`. -/
def insertLimit : ℕ := 64

/-- The part of `CLG_Initialise` for the map. The memory limit allows for `slots` slots of
the table of clients, and `slots2` of the source is the integer part of the logarithm. With
`noclientlog` the map stays zero. -/
def initialise (noClientLog : Bool) (slots : ℕ) (timestamps : ℕ → NtpTimestamps) :
    TimestampMap :=
  let slots2 := (max minSlots (min slots maxSlots)).log2
  { active := !noClientLog
    allocated := false
    timestamps
    first := 0
    size := 0
    maxSize := if noClientLog then 0 else 1 <<< (slots2 + slotBits)
    cachedIndex := 0
    cachedRxTs := 0
    slewEpoch := 0
    slewOffset := 0 }

namespace TimestampMap

/-- The slot of the timestamps `index` in the array. -/
def slot (m : TimestampMap) (index : ℕ) : ℕ :=
  (m.first + index) &&& (m.maxSize - 1)

/-- `get_ntp_tss`. -/
def getNtpTss (m : TimestampMap) (index : ℕ) : NtpTimestamps :=
  m.timestamps (m.slot index)

/-- An assignment to `*get_ntp_tss(index)`. -/
def setNtpTss (m : TimestampMap) (index : ℕ) (tss : NtpTimestamps) : TimestampMap :=
  { m with timestamps := Function.update m.timestamps (m.slot index) tss }

/-- The middle point of an iteration of `find_ntp_rx_ts`. -/
def searchPoint (i lo hi : ℕ) (rx rxLo rxHi : BitVec 64) : ℕ :=
  let x :=
    if hi - lo > 3 ∧ i % 2 = 0 then
      let step := (rxHi - rxLo) / BitVec.ofNat 64 (hi - lo)
      let step := if step = 0 then 1 else step
      (lo + ((rx - rxLo) / step).toNat) % 2 ^ 32
    else lo + (hi - lo) / 2
  if x ≤ lo then lo + 1 else if x ≥ hi then hi - 1 else x

/-- The loop of `find_ntp_rx_ts`, for at most the given number of iterations. It returns
whether the timestamp is found, and the index. -/
def searchLoop (m : TimestampMap) (rx : BitVec 64) :
    ℕ → ℕ → ℕ → ℕ → BitVec 64 → BitVec 64 → Option (Bool × ℕ)
  | 0, _, _, _, _, _ => none
  | fuel + 1, i, lo, hi, rxLo, rxHi =>
      if rx = rxHi then some (true, hi)
      else if rx = rxLo then some (true, lo)
      else if lo + 1 = hi then some (false, hi)
      else
        let x := searchPoint i lo hi rx rxLo rxHi
        let rxX := (m.getNtpTss x).rxTs
        if (rxX - rx).toInt ≤ 0 then m.searchLoop rx fuel (i + 1) x hi rxX rxHi
        else m.searchLoop rx fuel (i + 1) lo x rxLo rxX

/-- `find_ntp_rx_ts`. It returns whether the timestamp is found, the index, and the map
with an updated cache. The search needs no more iterations than there are timestamps
(`findNtpRxTs_spec`). -/
def findNtpRxTs (m : TimestampMap) (rx : BitVec 64) : Option (Bool × ℕ × TimestampMap) :=
  if m.cachedRxTs = rx ∧ rx ≠ 0 then some (true, m.cachedIndex, m)
  else if m.size = 0 then some (false, 0, m)
  else
    let rxLo := (m.getNtpTss 0).rxTs
    let rxHi := (m.getNtpTss (m.size - 1)).rxTs
    if (rx - rxLo).toInt < 0 then some (false, 0, m)
    else if (rx - rxHi).toInt > 0 then some (false, m.size, m)
    else
      match m.searchLoop rx m.size 0 0 (m.size - 1) rxLo rxHi with
      | none => none
      | some (true, index) => some (true, index, { m with cachedIndex := index, cachedRxTs := rx })
      | some (false, index) => some (false, index, m)

/-- `push_ntp_tss`. -/
def pushNtpTss (m : TimestampMap) (index : ℕ) : ℕ × TimestampMap :=
  if m.size < m.maxSize then (index, { m with size := m.size + 1 })
  else
    (if index > 0 then index - 1 else index, { m with first := (m.first + 1) % m.maxSize })

/-- The loop of `CLG_SaveNtpTimestamps` which trims timestamps in distant future, from the
given size. -/
def trimmedSize (m : TimestampMap) (rx : BitVec 64) (index : ℕ) : ℕ → ℕ
  | 0 => 0
  | size + 1 =>
      if index < size + 1 ∧ (m.getNtpTss size).rxTs - rx > futureLimit then
        m.trimmedSize rx index size
      else size + 1

/-- The loop of `CLG_SaveNtpTimestamps` which moves timestamps to make room at `index`,
from the given position. -/
def moveTss (m : TimestampMap) (index : ℕ) : ℕ → TimestampMap
  | 0 => m
  | i + 1 => if i + 1 > index then (m.setNtpTss (i + 1) (m.getNtpTss i)).moveTss index i else m

end TimestampMap

section Tx

variable (eraSplit : ℤ)

/-- `set_ntp_tx`. The offset is computed in 32-bit arithmetic. -/
def setNtpTx (tss : NtpTimestamps) (rx : BitVec 64) (txTs : Option Timespec)
    (txSrc : TimestampSource) : NtpTimestamps :=
  match txTs with
  | none => { tss with validTx := false }
  | some txTs =>
      let ts := txTs.diff (Timespec.ofNtp64 eraSplit rx)
      if ts.sec < -2 ∨ ts.sec > 1 then { tss with validTx := false }
      else
        { tss with
          txTsOffset := BitVec.ofInt 32 ts.nsec +
            BitVec.ofInt 32 ts.sec * BitVec.ofInt 32 nsecPerSec
          validTx := true
          txTsSource := txSrc }

/-- `get_ntp_tx`. -/
def getNtpTx (tss : NtpTimestamps) : Timespec × TimestampSource :=
  let txTs :=
    if tss.validTx then
      let ts := Timespec.ofNtp64 eraSplit tss.rxTs
      let (offset, ts) : BitVec 32 × Timespec :=
        if tss.txTsOffset.toInt ≥ nsecPerSec then
          (tss.txTsOffset - BitVec.ofInt 32 nsecPerSec, { ts with sec := ts.sec + 1 })
        else (tss.txTsOffset, ts)
      Timespec.normalise { ts with nsec := ts.nsec + offset.toInt }
    else Timespec.zero
  (txTs, tss.txTsSource)

/-- The index for new timestamps in `CLG_SaveNtpTimestamps`, where they are not found and
`index` is the result of the search, and the map with room made for them. -/
def makeRoom (m : TimestampMap) (rx : BitVec 64) (index : ℕ) : ℕ × TimestampMap :=
  if index = m.size then m.pushNtpTss index
  else
    let m := { m with size := m.trimmedSize rx index m.size }
    if index + insertLimit ≥ m.size then
      let (index, m) := m.pushNtpTss index
      (index, m.moveTss index (m.size - 1))
    else (if index > 0 then index - 1 else index, m)

/-- The end of `CLG_SaveNtpTimestamps`, which writes new timestamps. -/
def addNtpTimestamps (m : TimestampMap) (rx : BitVec 64) (txTs : Option Timespec)
    (txSrc : TimestampSource) (index : ℕ) : TimestampMap :=
  let (index, m) := makeRoom m rx index
  let m := { m with cachedIndex := index, cachedRxTs := rx }
  let tss :=
    { m.getNtpTss index with
      rxTs := rx, disabled := false, validTx := false, slewEpoch := m.slewEpoch }
  m.setNtpTss index (setNtpTx eraSplit tss rx txTs txSrc)

/-- An assignment of `NTPTS_DISABLED` to the flags. -/
def TimestampMap.disableTss (m : TimestampMap) (index : ℕ) : TimestampMap :=
  m.setNtpTss index { m.getNtpTss index with disabled := true }

/-- `CLG_SaveNtpTimestamps`. -/
def saveNtpTimestamps (m : TimestampMap) (rx : BitVec 64) (txTs : Option Timespec)
    (txSrc : TimestampSource) : Option TimestampMap :=
  if !m.active then some m
  else
    let m := { m with allocated := true }
    if rx = 0 then some m
    else
      match m.findNtpRxTs rx with
      | none => none
      | some (true, index, m) => some (m.disableTss index)
      | some (false, index, m) =>
          if index ≤ m.size then some (addNtpTimestamps eraSplit m rx txTs txSrc index) else none

/-- `handle_slew`. -/
def handleSlew (m : TimestampMap) (doffset : ℚ) (changeType : ChangeType) : TimestampMap :=
  let m := if changeType = .unknownStep then { m with size := 0, cachedRxTs := 0 } else m
  { m with slewEpoch := m.slewEpoch + 1, slewOffset := doffset }

/-- `CLG_UndoNtpTxTimestampSlew`. -/
def undoNtpTxTimestampSlew (m : TimestampMap) (rx : BitVec 64) (txTs : Timespec) :
    Option (Timespec × TimestampMap) :=
  if !m.allocated then some (txTs, m)
  else
    match m.findNtpRxTs rx with
    | none => none
    | some (false, _, m) => some (txTs, m)
    | some (true, index, m) =>
        if (m.getNtpTss index).slewEpoch + 1 = m.slewEpoch then
          some (txTs.addDouble m.slewOffset, m)
        else some (txTs, m)

/-- `CLG_UpdateNtpTxTimestamp`. -/
def updateNtpTxTimestamp (m : TimestampMap) (rx : BitVec 64) (txTs : Option Timespec)
    (txSrc : TimestampSource) : Option TimestampMap :=
  if !m.allocated then some m
  else
    match m.findNtpRxTs rx with
    | none => none
    | some (false, _, m) => some m
    | some (true, index, m) =>
        some (m.setNtpTss index (setNtpTx eraSplit (m.getNtpTss index) rx txTs txSrc))

/-- `CLG_GetNtpTxTimestamp`. The timestamp and its source are returned when the function
of the source returns 1. -/
def getNtpTxTimestamp (m : TimestampMap) (rx : BitVec 64) :
    Option (Option (Timespec × TimestampSource) × TimestampMap) :=
  if !m.allocated then some (none, m)
  else
    match m.findNtpRxTs rx with
    | none => none
    | some (false, _, m) => some (none, m)
    | some (true, index, m) =>
        let tss := m.getNtpTss index
        if tss.disabled then some (none, m) else some (some (getNtpTx eraSplit tss), m)

/-- `CLG_DisableNtpTimestamps`. -/
def disableNtpTimestamps (m : TimestampMap) (rx : BitVec 64) : Option TimestampMap :=
  if !m.allocated then some m
  else
    match m.findNtpRxTs rx with
    | none => none
    | some (false, _, m) => some m
    | some (true, index, m) => some (m.disableTss index)

/-! ### Runs -/

/-- The calls which read or change the map. -/
inductive Call
  | save (rx : BitVec 64) (txTs : Option Timespec) (txSrc : TimestampSource)
  | update (rx : BitVec 64) (txTs : Option Timespec) (txSrc : TimestampSource)
  | get (rx : BitVec 64)
  | undoSlew (rx : BitVec 64) (txTs : Timespec)
  | disable (rx : BitVec 64)
  | slew (doffset : ℚ) (changeType : ChangeType)
  deriving DecidableEq

/-- The map after a call. -/
def step (m : TimestampMap) : Call → Option TimestampMap
  | .save rx txTs txSrc => saveNtpTimestamps eraSplit m rx txTs txSrc
  | .update rx txTs txSrc => updateNtpTxTimestamp eraSplit m rx txTs txSrc
  | .get rx => (getNtpTxTimestamp eraSplit m rx).map (·.2)
  | .undoSlew rx txTs => (undoNtpTxTimestampSlew m rx txTs).map (·.2)
  | .disable rx => disableNtpTimestamps m rx
  | .slew doffset changeType => some (handleSlew m doffset changeType)

/-- The map after a sequence of calls. -/
def run (m : TimestampMap) (calls : List Call) : Option TimestampMap :=
  calls.foldlM (step eraSplit) m

end Tx

end Chrony.ClientLog
