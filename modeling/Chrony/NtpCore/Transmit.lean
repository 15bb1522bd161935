import Chrony.NtpCore.Instance

/-!
# Timestamps of Transmitted Packets

The part of `transmit_packet` which fills in the timestamps of a packet. Random bits are added
to the receive and transmit timestamps until they are different from the timestamps they must
not be confused with. In the packets of a server the lowest bits of both timestamps are set
after that, to say which of them is the receive timestamp.

The random numbers and the readings of the clock are lists, of which as many elements are used
as the loops need. The conversion of nanoseconds is exact.

## Main results

* `transmitTimestamps_distinct_iff`: when the timestamps of a packet are distinct as sent.
* `transmitTimestamps_equal`: a response whose receive and originate timestamps are equal.
-/

namespace Chrony.NtpCore

open Lib

/-- `UTI_GetNtp64Fuzz`, from 64 random bits. -/
def getNtp64Fuzz (precision : ℤ) (random : BitVec 64) : BitVec 64 :=
  BitVec.ofNat 64 (random.toNat % 2 ^ (precision + 32).toNat)

/-- `UTI_TimespecToNtp64`. -/
def timespecToNtp64 (src : Timespec) (fuzz : BitVec 64) : BitVec 64 :=
  let sec := BitVec.ofInt 32 src.sec
  let nsec := BitVec.ofInt 32 src.nsec
  if nsec = 0 ∧ sec = 0 then 0
  else
    (sec + BitVec.ofInt 32 Timespec.jan1970 ++
      BitVec.ofNat 32 (nsec.toNat * 2 ^ 32 / 1000000000)) ^^^ fuzz

/-- The arguments of `transmit_packet` which have timestamps, and the mode. The timestamps of
the previous packet are optional. -/
structure TransmitArgs where
  mode : NtpMode
  interleaved : Bool
  remoteNtpRx : Option (BitVec 64)
  remoteNtpTx : BitVec 64
  localRx : LocalTimestamp
  localTx : Option LocalTimestamp
  localNtpRx : Option (BitVec 64)
  localNtpTx : Option (BitVec 64)

/-- What is read from other modules: the precision of the clock, the time of the last event,
and the offset of the time smoothing if it is used for the packet. -/
structure TransmitEnv where
  precision : ℤ
  eventTime : Timespec
  smoothOffset : Option ℚ

/-- The timestamps of a packet. -/
structure PacketTimestamps where
  originateTs : BitVec 64
  receiveTs : BitVec 64
  transmitTs : BitVec 64
  deriving DecidableEq, Repr

/-- A loop over random timestamps. A timestamp is used if it is zero or different from all the
others (`UTI_IsEqualAnyNtp64`). It returns none if the loop needs more random numbers. -/
def drawTimestamp (others draws : List (BitVec 64)) : Option (BitVec 64) :=
  draws.find? fun ts => ts = 0 ∨ ts ∉ others

namespace TransmitArgs

variable (args : TransmitArgs)

/-- The packet is formed in the interleaved mode. -/
def isInterleaved : Bool :=
  args.interleaved ∧ args.remoteNtpRx.isSome ∧ args.localTx.any fun tx => tx.ts ≠ .zero

/-- Timestamps which are not necessary for the protocol are not revealed. -/
def reveals : Bool := args.mode ≠ .client ∨ args.isInterleaved

/-- The precision of the timestamps. All bits of those of a client are random. -/
def precision (env : TransmitEnv) : ℤ := if args.mode = .client then 32 else env.precision

/-- The originate timestamp. -/
def originateTs : BitVec 64 :=
  if args.reveals then if args.isInterleaved then args.remoteNtpRx.getD 0 else args.remoteNtpTx
  else 0

/-- The time when the last packet was received, with the offset of the smoothing. -/
def localReceive (env : TransmitEnv) : Timespec :=
  match env.smoothOffset with
  | some offset =>
      if args.localRx.ts ≠ .zero then args.localRx.ts.addDouble offset else args.localRx.ts
  | none => args.localRx.ts

/-- The receive timestamps which are made from random numbers. -/
def receiveDraws (env : TransmitEnv) (randoms : List (BitVec 64)) : List (BitVec 64) :=
  randoms.map fun random =>
    timespecToNtp64 (args.localReceive env) (getNtp64Fuzz (args.precision env) random)

/-- The timestamps which the receive timestamp must not be equal to. -/
def receiveOthers : List (BitVec 64) := args.originateTs :: args.localNtpRx.toList

/-- The time of transmission, for a reading of the clock. -/
def localTransmit (env : TransmitEnv) (reading : Timespec) : Timespec :=
  if args.isInterleaved then (args.localTx.getD .zero).ts
  else if args.precision env < 32 then
    match env.smoothOffset with
    | some offset => reading.addDouble offset
    | none => reading
  else env.eventTime

/-- The transmit timestamps which are made from random numbers and readings of the clock. -/
def transmitDraws (env : TransmitEnv) (readings : List (BitVec 64 × Timespec)) :
    List (BitVec 64) :=
  readings.map fun r =>
    timespecToNtp64 (args.localTransmit env r.2) (getNtp64Fuzz (args.precision env) r.1)

/-- The timestamps which the transmit timestamp must not be equal to. -/
def transmitOthers (receiveTs : BitVec 64) : List (BitVec 64) :=
  receiveTs :: args.originateTs :: args.localNtpTx.toList

/-- The packet has the flags of a server. -/
def hasFlags : Bool := args.mode = .server ∨ args.mode = .passive

/-- The receive timestamp before the flag is set. -/
def drawReceive (env : TransmitEnv) (randoms : List (BitVec 64)) : Option (BitVec 64) :=
  if args.reveals then drawTimestamp args.receiveOthers (args.receiveDraws env randoms) else some 0

end TransmitArgs

/-- The flag in the receive timestamps of a server. -/
def setRxFlag (ts : BitVec 64) : BitVec 64 := ts ||| 1#64

/-- The flag in the transmit timestamps of a server. -/
def clearRxFlag (ts : BitVec 64) : BitVec 64 := ts &&& ~~~1#64

/-- The timestamps of the packet that `transmit_packet` passes to `NIO_SendPacket`. -/
def transmitTimestamps (env : TransmitEnv) (args : TransmitArgs) (randoms : List (BitVec 64))
    (readings : List (BitVec 64 × Timespec)) : Option PacketTimestamps := do
  let receiveTs ← args.drawReceive env randoms
  let transmitTs ← drawTimestamp (args.transmitOthers receiveTs) (args.transmitDraws env readings)
  if args.hasFlags then
    some ⟨args.originateTs, setRxFlag receiveTs, clearRxFlag transmitTs⟩
  else some ⟨args.originateTs, receiveTs, transmitTs⟩

/-! ### Distinct timestamps -/

/-- **The timestamps of a packet are distinct**: the transmit timestamp is zero or different from
the two others and the previous one, and the receive timestamp is zero or different from the
originate timestamp and the previous one. -/
def PacketTimestamps.Distinct (args : TransmitArgs) (ts : PacketTimestamps) : Prop :=
  (ts.transmitTs ≠ 0 → ts.transmitTs ≠ ts.receiveTs ∧ ts.transmitTs ≠ ts.originateTs ∧
    ∀ tx ∈ args.localNtpTx, ts.transmitTs ≠ tx) ∧
  (ts.receiveTs ≠ 0 → ts.receiveTs ≠ ts.originateTs ∧ ∀ rx ∈ args.localNtpRx, ts.receiveTs ≠ rx)

/-- A time and the random bits which are added to its timestamp. -/
structure FuzzedTime where
  time : Timespec
  fuzz : BitVec 64

/-- **The random bits turn the time into a timestamp**: they are the difference between the two.
No bits are added to the timestamp of zero time. -/
def FuzzedTime.Makes (t : FuzzedTime) (ts : BitVec 64) : Prop :=
  if BitVec.ofInt 32 t.time.nsec = 0 ∧ BitVec.ofInt 32 t.time.sec = 0 then ts = 0
  else t.fuzz = timespecToNtp64 t.time 0 ^^^ ts

/-- The random bits make one of the timestamps which must not be sent. -/
def FuzzedTime.Rejected (others : List (BitVec 64)) (t : FuzzedTime) : Prop :=
  ∃ ts ∈ others, ts ≠ 0 ∧ t.Makes ts

/-- **The first time which is used** from a list. -/
def FirstUsed (others : List (BitVec 64)) (times : List FuzzedTime) (t : FuzzedTime) : Prop :=
  ¬t.Rejected others ∧
    ∃ before after, times = before ++ t :: after ∧ ∀ t' ∈ before, t'.Rejected others

/-- The time of reception with the random bits. -/
def TransmitArgs.receiveTimes (args : TransmitArgs) (env : TransmitEnv)
    (randoms : List (BitVec 64)) : List FuzzedTime :=
  randoms.map fun random => ⟨args.localReceive env, getNtp64Fuzz (args.precision env) random⟩

/-- The times of transmission with the random bits. -/
def TransmitArgs.transmitTimes (args : TransmitArgs) (env : TransmitEnv)
    (readings : List (BitVec 64 × Timespec)) : List FuzzedTime :=
  readings.map fun r => ⟨args.localTransmit env r.2, getNtp64Fuzz (args.precision env) r.1⟩

theorem getLsbD_setRxFlag (ts : BitVec 64) (i : ℕ) :
    (setRxFlag ts).getLsbD i = (ts.getLsbD i || decide (i = 0)) := by
  rw [setRxFlag, BitVec.getLsbD_or, BitVec.getLsbD_one]
  simp

theorem getLsbD_clearRxFlag (ts : BitVec 64) (i : ℕ) :
    (clearRxFlag ts).getLsbD i = (ts.getLsbD i && decide (i ≠ 0)) := by
  rw [clearRxFlag, BitVec.getLsbD_and, BitVec.getLsbD_not, BitVec.getLsbD_one]
  by_cases hi : i < 64
  · simp [hi]
  · simp [BitVec.getLsbD_of_ge ts i (by omega)]

theorem getLsbD_xor_one (ts : BitVec 64) (i : ℕ) :
    (ts ^^^ 1#64).getLsbD i = (ts.getLsbD i ^^ decide (i = 0)) := by
  rw [BitVec.getLsbD_xor, BitVec.getLsbD_one]
  simp

theorem getLsbD_setRxFlag_zero (ts : BitVec 64) : (setRxFlag ts).getLsbD 0 = true := by
  rw [getLsbD_setRxFlag]
  exact Bool.or_true _

theorem getLsbD_clearRxFlag_zero (ts : BitVec 64) : (clearRxFlag ts).getLsbD 0 = false := by
  rw [getLsbD_clearRxFlag]
  exact Bool.and_false _

/-- The flags keep the two timestamps of a server apart. -/
theorem clearRxFlag_ne_setRxFlag (a b : BitVec 64) : clearRxFlag a ≠ setRxFlag b := by
  intro h
  have hbit := getLsbD_setRxFlag_zero b
  rw [← h, getLsbD_clearRxFlag_zero] at hbit
  cases hbit

theorem setRxFlag_ne_zero (ts : BitVec 64) : setRxFlag ts ≠ 0 := by
  intro h
  have hbit := getLsbD_setRxFlag_zero ts
  rw [h] at hbit
  cases hbit

/-- **What is changed to another timestamp by the flag** differs from it in the lowest bit. -/
theorem setRxFlag_eq_iff {ts x : BitVec 64} (hne : ts = 0 ∨ ts ≠ x) :
    setRxFlag ts = x ↔ x.getLsbD 0 = true ∧ x ≠ 0 ∧ ts = x ^^^ 1#64 := by
  constructor
  · rintro rfl
    have hbit : ts.getLsbD 0 = false := by
      rcases hne with rfl | hne
      · rfl
      · by_contra htrue
        rw [Bool.not_eq_false] at htrue
        refine hne (BitVec.eq_of_getLsbD_eq fun i _ => ?_)
        rw [getLsbD_setRxFlag]
        by_cases hi : i = 0
        · rw [hi, htrue]
          rfl
        · simp [hi]
    refine ⟨getLsbD_setRxFlag_zero ts, setRxFlag_ne_zero ts, ?_⟩
    refine BitVec.eq_of_getLsbD_eq fun i _ => ?_
    rw [getLsbD_xor_one, getLsbD_setRxFlag]
    by_cases hi : i = 0
    · rw [hi, hbit]
      rfl
    · simp [hi]
  · rintro ⟨hbit, -, rfl⟩
    refine BitVec.eq_of_getLsbD_eq fun i _ => ?_
    rw [getLsbD_setRxFlag, getLsbD_xor_one]
    by_cases hi : i = 0
    · rw [hi, hbit]
      rfl
    · simp [hi]

theorem clearRxFlag_eq_iff {ts x : BitVec 64} (hne : ts = 0 ∨ ts ≠ x) (hx : x ≠ 0) :
    clearRxFlag ts = x ↔ x.getLsbD 0 = false ∧ x ≠ 0 ∧ ts = x ^^^ 1#64 := by
  constructor
  · rintro rfl
    have hbit : ts.getLsbD 0 = true := by
      by_contra hfalse
      rw [Bool.not_eq_true] at hfalse
      have hsame : clearRxFlag ts = ts := by
        refine BitVec.eq_of_getLsbD_eq fun i _ => ?_
        rw [getLsbD_clearRxFlag]
        by_cases hi : i = 0
        · rw [hi, hfalse]
          rfl
        · simp [hi]
      rw [hsame] at hne hx
      exact hne.elim hx fun h => h rfl
    refine ⟨getLsbD_clearRxFlag_zero ts, hx, ?_⟩
    refine BitVec.eq_of_getLsbD_eq fun i _ => ?_
    rw [getLsbD_xor_one, getLsbD_clearRxFlag]
    by_cases hi : i = 0
    · rw [hi, hbit]
      rfl
    · simp [hi]
  · rintro ⟨hbit, -, rfl⟩
    refine BitVec.eq_of_getLsbD_eq fun i _ => ?_
    rw [getLsbD_clearRxFlag, getLsbD_xor_one]
    by_cases hi : i = 0
    · rw [hi, hbit]
      rfl
    · simp [hi]

theorem FuzzedTime.makes_iff (t : FuzzedTime) (ts : BitVec 64) :
    t.Makes ts ↔ timespecToNtp64 t.time t.fuzz = ts := by
  unfold FuzzedTime.Makes timespecToNtp64
  dsimp only
  split
  next => exact eq_comm
  next =>
      simp only [BitVec.ofNat_eq_ofNat, BitVec.xor_zero]
      constructor
      · intro h
        rw [h, ← BitVec.xor_assoc, BitVec.xor_self, BitVec.zero_xor]
      · rintro rfl
        rw [← BitVec.xor_assoc, BitVec.xor_self, BitVec.zero_xor]

theorem FuzzedTime.rejected_iff (others : List (BitVec 64)) (t : FuzzedTime) :
    t.Rejected others ↔
      ¬(timespecToNtp64 t.time t.fuzz = 0 ∨ timespecToNtp64 t.time t.fuzz ∉ others) := by
  rw [not_or, not_not]
  constructor
  · rintro ⟨ts, hmem, hne, hmakes⟩
    rw [(t.makes_iff ts).mp hmakes]
    exact ⟨hne, hmem⟩
  · rintro ⟨hne, hmem⟩
    exact ⟨_, hmem, hne, (t.makes_iff _).mpr rfl⟩

/-- **The loop ends with the first time which is used.** -/
theorem drawTimestamp_eq_some_iff {others : List (BitVec 64)} {times : List FuzzedTime}
    {ts : BitVec 64} :
    drawTimestamp others (times.map fun t => timespecToNtp64 t.time t.fuzz) = some ts ↔
      ∃ t, FirstUsed others times t ∧ timespecToNtp64 t.time t.fuzz = ts := by
  rw [drawTimestamp, List.find?_map, Option.map_eq_some_iff]
  refine exists_congr fun t => and_congr_left' ?_
  rw [List.find?_eq_some_iff_append, FirstUsed, FuzzedTime.rejected_iff, not_not]
  simp only [Function.comp_apply, decide_eq_true_eq, Bool.not_eq_true', decide_eq_false_iff_not,
    FuzzedTime.rejected_iff]

/-- A timestamp which was drawn is zero or not one of the others. -/
theorem drawTimestamp_eq_some {others draws : List (BitVec 64)} {ts : BitVec 64}
    (h : drawTimestamp others draws = some ts) : ts = 0 ∨ ts ∉ others := by
  have hfound := List.find?_some h
  rwa [decide_eq_true_eq] at hfound

theorem drawReceive_eq_some {args : TransmitArgs} {env : TransmitEnv} {randoms : List (BitVec 64)}
    {ts : BitVec 64} (h : args.drawReceive env randoms = some ts) :
    ts = 0 ∨ ts ∉ args.receiveOthers := by
  rw [TransmitArgs.drawReceive] at h
  split at h
  · exact drawTimestamp_eq_some h
  · exact .inl (Option.some.inj h).symm

/-- The receive timestamp of a server with the flag is different from the others, unless it was
close to one of them. -/
theorem setRxFlag_mem_iff {others : List (BitVec 64)} {ts : BitVec 64}
    (h : ts = 0 ∨ ts ∉ others) :
    setRxFlag ts ∈ others ↔ ∃ x ∈ others, x.getLsbD 0 = true ∧ ts = x ^^^ 1#64 := by
  constructor
  · intro hmem
    obtain ⟨hbit, -, heq⟩ :=
      (setRxFlag_eq_iff (h.imp_right fun hno heq => hno (heq ▸ hmem))).mp rfl
    exact ⟨_, hmem, hbit, heq⟩
  · rintro ⟨x, hx, hbit, heq⟩
    have hne : x ≠ 0 := by
      rintro rfl
      cases hbit
    rwa [(setRxFlag_eq_iff (h.imp_right fun hno heq => hno (heq ▸ hx))).mpr ⟨hbit, hne, heq⟩]

theorem clearRxFlag_mem_iff {others : List (BitVec 64)} {ts : BitVec 64}
    (h : ts = 0 ∨ ts ∉ others) :
    (clearRxFlag ts ≠ 0 ∧ clearRxFlag ts ∈ others) ↔
      ∃ x ∈ others, x.getLsbD 0 = false ∧ x ≠ 0 ∧ ts = x ^^^ 1#64 := by
  constructor
  · rintro ⟨hzero, hmem⟩
    exact ⟨_, hmem, (clearRxFlag_eq_iff (h.imp_right fun hno heq => hno (heq ▸ hmem)) hzero).mp rfl⟩
  · rintro ⟨x, hx, hmiss⟩
    rw [(clearRxFlag_eq_iff (h.imp_right fun hno heq => hno (heq ▸ hx)) hmiss.2.1).mpr hmiss]
    exact ⟨hmiss.2.1, hx⟩

/-- The conditions on a packet as a list of other timestamps. -/
theorem distinct_iff (args : TransmitArgs) (receiveTs transmitTs : BitVec 64) :
    PacketTimestamps.Distinct args ⟨args.originateTs, receiveTs, transmitTs⟩ ↔
      (transmitTs ≠ 0 → transmitTs ∉ args.transmitOthers receiveTs) ∧
      (receiveTs ≠ 0 → receiveTs ∉ args.receiveOthers) := by
  have hmem : ∀ (ts : BitVec 64) (o : Option (BitVec 64)),
      ts ∉ o.toList ↔ ∀ x ∈ o, ts ≠ x := fun ts o => by
    rw [Option.mem_toList]
    exact ⟨fun h x hx heq => h (heq ▸ hx), fun h hts => h ts hts rfl⟩
  unfold PacketTimestamps.Distinct TransmitArgs.transmitOthers TransmitArgs.receiveOthers
  simp only [List.mem_cons, not_or, hmem]

/-- **The packet of a server is distinct as sent** if neither of the times which are used was made
a timestamp next to one of the others. -/
theorem distinct_flags_iff (args : TransmitArgs) {receive transmit : FuzzedTime}
    {receiveTs transmitTs : BitVec 64} (hrx : timespecToNtp64 receive.time receive.fuzz = receiveTs)
    (htx : timespecToNtp64 transmit.time transmit.fuzz = transmitTs)
    (hreceive : receiveTs = 0 ∨ receiveTs ∉ args.receiveOthers)
    (htransmit : transmitTs = 0 ∨ transmitTs ∉ args.transmitOthers receiveTs) :
    PacketTimestamps.Distinct args
        ⟨args.originateTs, setRxFlag receiveTs, clearRxFlag transmitTs⟩ ↔
      (∀ ts ∈ args.receiveOthers, ts.getLsbD 0 = true → ¬receive.Makes (ts ^^^ 1#64)) ∧
      ∀ ts ∈ args.originateTs :: args.localNtpTx.toList, ts.getLsbD 0 = false → ts ≠ 0 →
        ¬transmit.Makes (ts ^^^ 1#64) := by
  have hothers : transmitTs = 0 ∨ transmitTs ∉ args.originateTs :: args.localNtpTx.toList :=
    htransmit.imp_right fun h hmem => h (List.mem_cons_of_mem _ hmem)
  have hsent : PacketTimestamps.Distinct args
      ⟨args.originateTs, setRxFlag receiveTs, clearRxFlag transmitTs⟩ ↔
      setRxFlag receiveTs ∉ args.receiveOthers ∧ ¬(clearRxFlag transmitTs ≠ 0 ∧
        clearRxFlag transmitTs ∈ args.originateTs :: args.localNtpTx.toList) := by
    rw [distinct_iff, TransmitArgs.transmitOthers, List.mem_cons,
      or_iff_right (clearRxFlag_ne_setRxFlag transmitTs receiveTs), not_and, and_comm]
    exact and_congr_left' (imp_iff_right (setRxFlag_ne_zero receiveTs))
  rw [hsent, setRxFlag_mem_iff hreceive, clearRxFlag_mem_iff hothers]
  simp only [FuzzedTime.makes_iff, hrx, htx, not_exists, not_and]

/-- **When the timestamps of a packet are distinct as sent.** They are distinct in every packet
of a client or a symmetric active association. In the packets of a server they are, unless the
first random bits which are used make a timestamp which differs from one of the others only in the
bit which is set after the check. -/
theorem transmitTimestamps_distinct_iff (env : TransmitEnv) (args : TransmitArgs)
    (randoms : List (BitVec 64)) (readings : List (BitVec 64 × Timespec)) :
    (∀ ts, transmitTimestamps env args randoms readings = some ts → ts.Distinct args) ↔
    (args.mode = .server ∨ args.mode = .passive →
      ∀ receive transmit, FirstUsed args.receiveOthers (args.receiveTimes env randoms) receive →
      FirstUsed (args.transmitOthers (timespecToNtp64 receive.time receive.fuzz))
        (args.transmitTimes env readings) transmit →
      (∀ ts ∈ args.receiveOthers, ts.getLsbD 0 = true → ¬receive.Makes (ts ^^^ 1#64)) ∧
      ∀ ts ∈ args.originateTs :: args.localNtpTx.toList, ts.getLsbD 0 = false → ts ≠ 0 →
        ¬transmit.Makes (ts ^^^ 1#64)) := by
  have hflags : args.hasFlags = true ↔ args.mode = .server ∨ args.mode = .passive :=
    decide_eq_true_iff
  have hreceiveDraws : args.receiveDraws env randoms =
      (args.receiveTimes env randoms).map fun t => timespecToNtp64 t.time t.fuzz := by
    rw [TransmitArgs.receiveTimes, List.map_map]
    rfl
  have htransmitDraws : args.transmitDraws env readings =
      (args.transmitTimes env readings).map fun t => timespecToNtp64 t.time t.fuzz := by
    rw [TransmitArgs.transmitTimes, List.map_map]
    rfl
  rw [← hflags]
  by_cases hserver : args.hasFlags = true
  · have hreveals : args.reveals = true := by
      refine decide_eq_true (.inl fun hclient => ?_)
      rcases hflags.mp hserver with h | h
      · rw [hclient] at h
        cases h
      · rw [hclient] at h
        cases h
    have hsent : ∀ ts, transmitTimestamps env args randoms readings = some ts ↔
        ∃ receiveTs, drawTimestamp args.receiveOthers (args.receiveDraws env randoms) =
            some receiveTs ∧
          ∃ transmitTs, drawTimestamp (args.transmitOthers receiveTs)
              (args.transmitDraws env readings) = some transmitTs ∧
            ⟨args.originateTs, setRxFlag receiveTs, clearRxFlag transmitTs⟩ = ts := by
      intro ts
      simp only [transmitTimestamps, TransmitArgs.drawReceive, if_pos hreveals, if_pos hserver,
        Option.bind_eq_bind, Option.bind_eq_some_iff, Option.some.injEq]
    constructor
    · intro h _ receive transmit hreceive htransmit
      have hrx := drawTimestamp_eq_some_iff.mpr ⟨receive, hreceive, rfl⟩
      have htx := drawTimestamp_eq_some_iff.mpr ⟨transmit, htransmit, rfl⟩
      rw [← hreceiveDraws] at hrx
      rw [← htransmitDraws] at htx
      exact (distinct_flags_iff args rfl rfl (drawTimestamp_eq_some hrx)
        (drawTimestamp_eq_some htx)).mp (h _ ((hsent _).mpr ⟨_, hrx, _, htx, rfl⟩))
    · intro h ts hts
      obtain ⟨receiveTs, hrx, transmitTs, htx, rfl⟩ := (hsent ts).mp hts
      have hreceiveTs := drawTimestamp_eq_some hrx
      have htransmitTs := drawTimestamp_eq_some htx
      rw [hreceiveDraws, drawTimestamp_eq_some_iff] at hrx
      rw [htransmitDraws, drawTimestamp_eq_some_iff] at htx
      obtain ⟨receive, hreceive, rfl⟩ := hrx
      obtain ⟨transmit, htransmit, rfl⟩ := htx
      exact (distinct_flags_iff args rfl rfl hreceiveTs htransmitTs).mpr
        (h hserver receive transmit hreceive htransmit)
  · refine iff_of_true (fun ts hts => ?_) fun h => absurd h hserver
    simp only [transmitTimestamps, if_neg hserver, Option.bind_eq_bind, Option.bind_eq_some_iff,
      Option.some.injEq] at hts
    obtain ⟨receiveTs, hrx, transmitTs, htx, rfl⟩ := hts
    rw [distinct_iff]
    exact ⟨(drawTimestamp_eq_some htx).resolve_left, (drawReceive_eq_some hrx).resolve_left⟩

/-- The arguments of `NCR_ProcessRxUnknown` for a response in the basic mode, to a request with
the given transmit timestamp. -/
def responseArgs (requestTransmitTs : BitVec 64) (requestRx : LocalTimestamp) : TransmitArgs where
  mode := .server
  interleaved := false
  remoteNtpRx := some 0
  remoteNtpTx := requestTransmitTs
  localRx := requestRx
  localTx := none
  localNtpRx := none
  localNtpTx := none

/-- **A response with equal receive and originate timestamps.** The transmit timestamp of the
request is the time of its reception with the lowest bit set. The receive timestamp is accepted
with zero in the bit, and the flag makes it equal to the originate timestamp. -/
theorem transmitTimestamps_equal :
    ∃ ts, transmitTimestamps ⟨-24, ⟨1700000000, 0⟩, none⟩
      (responseArgs 0xe8fe6f8000000001#64 ⟨⟨1700000000, 0⟩, .daemon⟩) [0]
        [(2, ⟨1700000000, 0⟩)] = some ts ∧
      ¬ts.Distinct (responseArgs 0xe8fe6f8000000001#64 ⟨⟨1700000000, 0⟩, .daemon⟩) := by
  refine ⟨⟨0xe8fe6f8000000001#64, 0xe8fe6f8000000001#64, 0xe8fe6f8000000002#64⟩,
    by decide +kernel, ?_⟩
  intro h
  exact (h.2 (by decide)).1 rfl

end Chrony.NtpCore
