import Chrony.Lib.Exchange
import Chrony.NtpCore.Response
import Chrony.Quantiles
import Chrony.SourceStats.Register

/-!
# Measurements

The measurement which `process_response` of `ntp_core.c` makes with a response, in exact
arithmetic: the choice of the timestamps in the basic and the interleaved mode, the sample, the
corrections of transparent clocks, and the tests A to D. The extension field with the monotonic
timestamps of the server, and the test for a synchronisation loop, which is an answer here, are
left out.

The association has the fields which only the measurement uses, with times in seconds.
`Agrees` relates it to the one whose timers and modes are modelled elsewhere.

## Main results

* `Selected.applyNetCorrection_error_le`: the error of a sample, for any delays in the network.
* `packetTests_agrees`, `updateTimestamps_agrees`: both models make the same tests and update the
  timestamps in the same way.
-/

namespace Chrony.NtpCore.Measurement

open SourceStats (NtpSample Stats isTimeOffsetSane)

/-- `MAX_SERVER_INTERVAL`. -/
def maxServerInterval : ℚ := 4

/-- `MAX_INTERLEAVED_L2L_RATIO`. -/
def maxInterleavedL2lRatio : ℚ := 1 / 10

/-- `MAX_NET_CORRECTION_FREQ`. -/
def maxNetCorrectionFreq : ℚ := 100 / 10 ^ 6

/-- `NTP_Local_Timestamp`, without its source. -/
structure Stamp where
  ts : ℚ
  err : ℚ
  rxDuration : ℚ
  netCorrection : ℚ
  deriving DecidableEq

/-- `zero_local_timestamp`. -/
def Stamp.zero : Stamp := ⟨0, 0, 0, 0⟩

/-- A message with the fields which only the measurement uses. The correction is from the
extension field. -/
structure Packet extends Message where
  precision : ℤ
  netCorrection : Option ℚ

/-- The fields of `struct NCR_Instance_Record` which the measurement uses. -/
structure Association where
  mode : Mode
  interleaved : Bool
  validRx : Bool
  validTimestamps : Bool
  localPoll : ℤ
  remotePoll : ℤ
  prevLocalPoll : ℤ
  presendDone : ℤ
  maxDelay : ℚ
  maxDelayRatio : ℚ
  maxDelayDevRatio : ℚ
  offsetCorrection : ℚ
  remoteRootDelay : ℚ
  remoteRootDispersion : ℚ
  remoteNtpRx : BitVec 64
  remoteNtpTx : BitVec 64
  localNtpRx : BitVec 64
  localNtpTx : BitVec 64
  localRx : Stamp
  localTx : Stamp
  prevLocalTx : Stamp
  updatedInitTimestamps : Bool
  initRemoteNtpTx : BitVec 64
  initLocalRx : Stamp

/-- What the measurement takes from other modules: the range of times, the precision and the
maximum error of the clock, the data of the source with its quantile of the delay, whether the
response is authentic, and whether the source is synchronised to this computer. -/
structure Env where
  sourceStats : SourceStats.Env
  sysPrecision : ℚ
  maxClockError : ℚ
  stats : Stats
  delayQuant : Option (ℚ × ℚ)
  checkAuth : Bool
  checkSyncLoop : Bool

/-- `UTI_Ntp64ToTimespec`, in seconds. -/
def time (eraSplit : ℤ) (ts : BitVec 64) : ℚ :=
  (Timespec.ofNtp64 eraSplit ts).toNsec / nsecPerSec

/-- `UTI_Log2ToDouble`. -/
def log2ToDouble (l : ℤ) : ℚ := 2 ^ max (-31) (min l 31)

/-- `SST_GetFrequencyRange`. -/
def getFrequencyRange (s : Stats) : ℚ × ℚ :=
  if s.skew > SourceStats.worstCaseFreqBound then
    (-SourceStats.worstCaseFreqBound, SourceStats.worstCaseFreqBound)
  else (s.estimatedFrequency - s.skew, s.estimatedFrequency + s.skew)

/-- The skew of the source in a measurement. -/
def getSkew (s : Stats) : ℚ := ((getFrequencyRange s).2 - (getFrequencyRange s).1) / 2

/-- The result of `SST_GetDelayTestData`. -/
structure DelayTestData where
  lastSampleAgo : ℚ
  predictedOffset : ℚ
  minDelay : ℚ
  skew : ℚ
  stdDev : ℚ

/-- `SST_GetDelayTestData`. -/
def getDelayTestData (s : Stats) (sampleTime : ℚ) : Option DelayTestData :=
  if s.nSamples < 6 then none
  else
    let lastSampleAgo := sampleTime - s.offsetTime
    some ⟨lastSampleAgo, s.estimatedOffset + lastSampleAgo * s.estimatedFrequency,
      s.minRoundTripDelay, s.skew, s.stdDev⟩

/-! ### The sample -/

/-- The timestamps which are selected for the sample, with the root delay and dispersion. -/
structure Selected where
  remoteReceive : ℚ
  remoteRequestReceive : ℚ
  remoteTransmit : ℚ
  prevRemoteTransmit : ℚ
  localTransmit : Stamp
  localReceive : Stamp
  rootDelay : ℚ
  rootDispersion : ℚ

/-- The previous timestamps are preferred in the interleaved mode if they make the intervals
significantly shorter. -/
def Association.prefersPrevious (a : Association) : Prop :=
  a.prevLocalTx.ts ≠ 0 ∧
    maxInterleavedL2lRatio * (a.localTx.ts - a.localRx.ts) > a.localRx.ts - a.prevLocalTx.ts

instance (a : Association) : Decidable a.prefersPrevious := inferInstanceAs (Decidable (_ ∧ _))

/-- The selection of remote and local timestamps for a new sample. -/
def Association.select (env : Env) (a : Association) (message : Packet) (rxTs : Stamp)
    (interleavedPacket : Bool) : Selected :=
  let netCorrection := message.netCorrection.getD 0
  let eraSplit := env.sourceStats.ntpEraSplit
  if interleavedPacket then
    let previous : ℚ × ℚ × Stamp × ℚ × ℚ :=
      if a.prefersPrevious then
        (time eraSplit a.remoteNtpRx, time eraSplit a.remoteNtpRx, a.prevLocalTx, a.remoteRootDelay,
          a.remoteRootDispersion)
      else
        (time eraSplit message.receiveTs, time eraSplit a.remoteNtpRx,
          { a.localTx with netCorrection },
          max message.rootDelay a.remoteRootDelay,
          max message.rootDispersion a.remoteRootDispersion)
    { remoteReceive := previous.1
      remoteRequestReceive := previous.2.1
      remoteTransmit := time eraSplit message.transmitTs
      prevRemoteTransmit := time eraSplit a.remoteNtpTx
      localTransmit := previous.2.2.1
      localReceive := a.localRx
      rootDelay := previous.2.2.2.1
      rootDispersion := previous.2.2.2.2 }
  else
    { remoteReceive := time eraSplit message.receiveTs
      remoteRequestReceive := time eraSplit message.receiveTs
      remoteTransmit := time eraSplit message.transmitTs
      prevRemoteTransmit := 0
      localTransmit := { a.localTx with netCorrection }
      localReceive := rxTs
      rootDelay := message.rootDelay
      rootDispersion := message.rootDispersion }

namespace Selected

variable (sel : Selected)

/-- `remote_interval`. -/
def remoteInterval : ℚ := sel.remoteTransmit - sel.remoteReceive

/-- `local_interval`. -/
def localInterval : ℚ := sel.localReceive.ts - sel.localTransmit.ts

/-- `response_time`. -/
def responseTime : ℚ := |sel.remoteTransmit - sel.remoteRequestReceive|

/-- The sample before the corrections of transparent clocks. -/
def sample (precision skew offsetCorrection : ℚ) : NtpSample :=
  let remoteAverage := sel.remoteReceive + sel.remoteInterval / 2
  let localAverage := sel.localTransmit.ts + sel.localInterval / 2
  let peerDelay := |sel.localInterval - sel.remoteInterval|
  let peerDelay := if peerDelay < precision then precision else peerDelay
  let peerDispersion :=
    max precision (max sel.localTransmit.err sel.localReceive.err) + skew * |sel.localInterval|
  { time := localAverage
    offset := remoteAverage - localAverage + offsetCorrection
    peerDelay
    peerDispersion
    rootDelay := sel.rootDelay + peerDelay
    rootDispersion := sel.rootDispersion + peerDispersion }

end Selected

/-- What `apply_net_correction` finds in the timestamps: the corrections in both directions. -/
def netCorrections (rx tx : Stamp) : ℚ × ℚ :=
  (rx.netCorrection - rx.rxDuration, tx.netCorrection - rx.rxDuration)

/-- The correction of the delay. -/
def lowDelayCorrection (rx tx : Stamp) : ℚ :=
  ((netCorrections rx tx).1 + (netCorrections rx tx).2) * (1 - maxNetCorrectionFreq)

/-- The corrections are available and sane. -/
def IsCorrected (sample : NtpSample) (rx tx : Stamp) : Prop :=
  ¬(rx.netCorrection ≤ rx.rxDuration ∨ tx.netCorrection ≤ 0) ∧
    ¬(lowDelayCorrection rx tx < 0 ∨ lowDelayCorrection rx tx > sample.peerDelay)

instance (sample : NtpSample) (rx tx : Stamp) : Decidable (IsCorrected sample rx tx) :=
  inferInstanceAs (Decidable (_ ∧ _))

/-- `apply_net_correction`. -/
def applyNetCorrection (sample : NtpSample) (rx tx : Stamp) (precision : ℚ) : NtpSample :=
  if IsCorrected sample rx tx then
    let corrections := netCorrections rx tx
    let peerDelay := sample.peerDelay - lowDelayCorrection rx tx
    { sample with
      offset := sample.offset + (corrections.1 - corrections.2) / 2
      peerDelay := if peerDelay < precision then precision else peerDelay }
  else sample

/-- The correction of the offset, which is zero if the corrections are not applied. -/
theorem applyNetCorrection_offset (sample : NtpSample) (rx tx : Stamp) (precision : ℚ) :
    (applyNetCorrection sample rx tx precision).offset = sample.offset +
      if IsCorrected sample rx tx then ((netCorrections rx tx).1 - (netCorrections rx tx).2) / 2
      else 0 := by
  rw [applyNetCorrection]
  split
  · rfl
  · exact (add_zero _).symm

theorem applyNetCorrection_root (sample : NtpSample) (rx tx : Stamp) (precision : ℚ) :
    (applyNetCorrection sample rx tx precision).rootDelay = sample.rootDelay ∧
      (applyNetCorrection sample rx tx precision).rootDispersion = sample.rootDispersion ∧
      (applyNetCorrection sample rx tx precision).peerDispersion = sample.peerDispersion := by
  rw [applyNetCorrection]
  split
  · exact ⟨rfl, rfl, rfl⟩
  · exact ⟨rfl, rfl, rfl⟩

/-- Corrections which are applied are not negative together. -/
theorem IsCorrected.sum_nonneg {sample : NtpSample} {rx tx : Stamp}
    (h : IsCorrected sample rx tx) : 0 ≤ (netCorrections rx tx).1 + (netCorrections rx tx).2 := by
  have hfreq : 0 < 1 - maxNetCorrectionFreq := by norm_num [maxNetCorrectionFreq]
  have hlow := not_lt.mp (not_or.mp h.2).1
  exact nonneg_of_mul_nonneg_left hlow hfreq

/-! ### The tests -/

/-- `check_delay_ratio`. -/
def Association.checkDelayRatio (env : Env) (a : Association) (sample : NtpSample) : Bool :=
  if a.maxDelayRatio < 1 then true
  else
    match getDelayTestData env.stats sample.time with
    | none => true
    | some d => sample.peerDelay ≤
        d.minDelay * a.maxDelayRatio + d.lastSampleAgo * (d.skew + env.maxClockError)

/-- `check_delay_quant`, with the quantile and its minimum step. -/
def checkDelayQuant (quant : ℚ × ℚ) (delay : ℚ) : Bool := delay ≤ quant.1 + quant.2 / 2

/-- `check_delay_dev_ratio`. -/
def Association.checkDelayDevRatio (env : Env) (a : Association) (sample : NtpSample) : Bool :=
  match getDelayTestData env.stats sample.time with
  | none => true
  | some d =>
      let maxDelta := d.stdDev * a.maxDelayDevRatio + d.lastSampleAgo * (d.skew + env.maxClockError)
      let delta := (sample.peerDelay - d.minDelay) / 2
      delta ≤ maxDelta ∨ |sample.offset + d.predictedOffset| - delta > maxDelta

/-- The minimum assumed interval between the previous two transmissions of an active peer. -/
def Association.prevRemotePollInterval (a : Association) : ℚ :=
  log2ToDouble (min a.remotePoll a.prevLocalPoll)

/-- The test A. -/
def Association.testA (env : Env) (a : Association) (message : Packet) (interleavedPacket : Bool)
    (precision : ℚ) (sel : Selected) (sample : NtpSample) : Bool :=
  sample.peerDelay - sample.peerDispersion ≤ a.maxDelay ∧ precision ≤ a.maxDelay ∧
    a.presendDone ≤ 0 ∧ isTimeOffsetSane env.sourceStats sample.time sample.offset ∧
    ¬(a.mode = .client ∧ sel.responseTime > maxServerInterval) ∧
    ¬(a.mode = .client ∧ interleavedPacket ∧ a.prevLocalTx.ts = 0 ∧
      sel.localTransmit.ts = a.localTx.ts) ∧
    ¬(a.mode = .active ∧ interleavedPacket ∧
      (sample.peerDelay > a.prevRemotePollInterval / 2 ∨
        compareNtp64 message.receiveTs message.transmitTs ≤ 0 ∨
        (a.remotePoll ≤ a.prevLocalPoll ∧
          sel.remoteTransmit - sel.prevRemoteTransmit > 3 / 2 * a.prevRemotePollInterval)))

/-- A measurement: the selected timestamps, the skew, and the sample. -/
structure Measured where
  selected : Selected
  skew : ℚ
  sample : NtpSample

/-- The measurement, with the tests A to D. -/
def Association.measure (env : Env) (a : Association) (message : Packet) (rxTs : Stamp)
    (interleavedPacket : Bool) : Measured × SampleTests :=
  let sel := a.select env message rxTs interleavedPacket
  let precision := env.sysPrecision + log2ToDouble message.precision
  let skew := getSkew env.stats
  let sample := sel.sample precision skew a.offsetCorrection
  let sample := applyNetCorrection sample sel.localReceive sel.localTransmit precision
  (⟨sel, skew, sample⟩,
    { testA := a.testA env message interleavedPacket precision sel sample
      testB := a.checkDelayRatio env sample
      testC :=
        match env.delayQuant with
        | some quant => checkDelayQuant quant sample.peerDelay
        | none => a.checkDelayDevRatio env sample
      testD := env.checkSyncLoop })

/-! ### Responses -/

/-- The packet tests 1 to 7. -/
def Association.packetTests (a : Association) (auth : Bool) (message : Packet) : Tests where
  test1 := compareNtp64 message.receiveTs a.remoteNtpRx ≠ 0 ∨
    compareNtp64 message.transmitTs a.remoteNtpTx ≠ 0
  test2n := compareNtp64 message.originateTs a.localNtpTx = 0
  test2i := a.interleaved ∧ compareNtp64 message.originateTs a.localNtpRx = 0
  test3 := message.originateTs ≠ 0 ∧ message.receiveTs ≠ 0 ∧ message.transmitTs ≠ 0
  test5 := auth
  test6 := message.leap ≠ .unsynchronised ∧ message.stratum < ntpMaxStratum ∧
    message.stratum ≠ ntpInvalidStratum
  test7 := message.rootDelay / 2 + message.rootDispersion < ntpMaxDispersion

/-- The condition on which a measurement is made. -/
def Association.IsMeasured (a : Association) (t : Tests) : Prop :=
  t.syncedPacket ∧ (!t.interleavedPacket ∨ a.validTimestamps)

instance (a : Association) (t : Tests) : Decidable (a.IsMeasured t) :=
  inferInstanceAs (Decidable (_ ∧ _))

/-- The update of the NTP timestamps. -/
def Association.updateTimestamps (message : Packet) (rxTs : Stamp) (t : Tests)
    (goodPacket : Bool) (a : Association) : Association :=
  if (a.mode = .client ∧ t.validPacket ∧ !a.validRx) ∨
      (a.mode = .active ∧ t.validPacket ∧
        (!a.validRx ∨ compareNtp64 a.remoteNtpTx message.transmitTs < 0)) then
    let netCorrection := if a.IsMeasured t then message.netCorrection.getD 0 else 0
    let localTx := { a.localTx with netCorrection }
    { a with
      remoteNtpRx := message.receiveTs
      remoteNtpTx := message.transmitTs
      localRx := rxTs
      validTimestamps := t.syncedPacket
      initRemoteNtpTx := 0
      initLocalRx := .zero
      updatedInitTimestamps := false
      localTx
      prevLocalTx := if t.interleavedPacket || !goodPacket then localTx else .zero }
  else if a.mode = .active ∧ t.test1 ∧ message.transmitTs ≠ 0 ∧ t.test5 ∧
      (!a.updatedInitTimestamps ∨ compareNtp64 a.initRemoteNtpTx message.transmitTs < 0) then
    { a with
      initRemoteNtpTx := message.transmitTs
      initLocalRx := rxTs
      updatedInitTimestamps := true }
  else a

/-- **`process_response`** of a message which is not saved. The measurement is returned if it is
accumulated. -/
def Association.processResponse (env : Env) (a : Association) (message : Packet) (rxTs : Stamp) :
    Association × Option Measured :=
  let t := a.packetTests env.checkAuth message
  let r := a.measure env message rxTs t.interleavedPacket
  let good := decide (a.IsMeasured t) && r.2.goodPacket
  let a' := a.updateTimestamps message rxTs t good
  if a'.validRx then (a', none)
  else if t.validPacket then
    ({ a' with
        validRx := true
        remotePoll := message.poll
        remoteRootDelay := message.rootDelay
        remoteRootDispersion := message.rootDispersion
        prevLocalPoll := a'.localPoll },
      if good then some r.1 else none)
  else (a', none)

/-! ### The error of a sample -/

/-- **An exchange of messages**, with the times of both sides and the readings of the local
clock. The remote timestamps are as good as the root of the server says, and the local ones can
have errors which are greater than the estimated ones by the factor `growth`. The error of the
local clock changes by no more than `rate`, which the skew of the source covers. -/
structure Selected.IsExchange (sel : Selected) (skew growth rate t₁ t₂ t₃ t₄ c₁ c₄ : ℚ) :
    Prop where
  request : t₁ ≤ t₂
  response : t₃ ≤ t₄
  remoteReceive : |sel.remoteReceive - t₂| ≤ sel.rootDelay / 2 + sel.rootDispersion
  remoteTransmit : |sel.remoteTransmit - t₃| ≤ sel.rootDelay / 2 + sel.rootDispersion
  localTransmit : |sel.localTransmit.ts - c₁| ≤ growth * sel.localTransmit.err
  localReceive : |sel.localReceive.ts - c₄| ≤ growth * sel.localReceive.err
  growth_pos : 0 < growth
  drift : |(c₄ - t₄) - (c₁ - t₁)| ≤ rate * |c₄ - c₁|
  rate_nonneg : 0 ≤ rate
  rate_le : rate ≤ 2 * skew
  requestCorrection : (netCorrections sel.localReceive sel.localTransmit).2 ≤ t₂ - t₁
  responseCorrection : (netCorrections sel.localReceive sel.localTransmit).1 ≤ t₄ - t₃

namespace Selected

variable {sel : Selected} {skew growth rate t₁ t₂ t₃ t₄ c₁ c₄ : ℚ}

/-- The greater estimate of the errors of the local timestamps. -/
def localErr (sel : Selected) : ℚ := max sel.localTransmit.err sel.localReceive.err

theorem IsExchange.localErr (h : sel.IsExchange skew growth rate t₁ t₂ t₃ t₄ c₁ c₄) :
    max |sel.localTransmit.ts - c₁| |sel.localReceive.ts - c₄| ≤ growth * sel.localErr := by
  rw [Selected.localErr, mul_max_of_nonneg _ _ h.growth_pos.le]
  exact max_le_max h.localTransmit h.localReceive

/-- The change of the error of the clock is covered by the dispersion, except for the errors of
the local timestamps. -/
theorem IsExchange.drift_le (h : sel.IsExchange skew growth rate t₁ t₂ t₃ t₄ c₁ c₄) :
    |(c₄ - t₄) - (c₁ - t₁)| / 2 ≤ skew * |sel.localInterval| + rate * (growth * sel.localErr) := by
  have herr := h.localErr
  have hinterval : |c₄ - c₁| ≤ |sel.localInterval| + 2 * (growth * sel.localErr) :=
    calc |c₄ - c₁|
        = |sel.localInterval - (sel.localReceive.ts - c₄) + (sel.localTransmit.ts - c₁)| := by
          congr 1
          rw [localInterval]
          ring
      _ ≤ |sel.localInterval - (sel.localReceive.ts - c₄)| + |sel.localTransmit.ts - c₁| :=
          abs_add_le _ _
      _ ≤ |sel.localInterval| + |sel.localReceive.ts - c₄| + |sel.localTransmit.ts - c₁| :=
          add_le_add_left (abs_sub _ _) _
      _ ≤ |sel.localInterval| + 2 * (growth * sel.localErr) := by
          have htransmit := (le_max_left _ _).trans herr
          have hreceive := (le_max_right _ _).trans herr
          linarith
  have hrate := mul_le_mul_of_nonneg_left hinterval h.rate_nonneg
  have hskew := mul_le_mul_of_nonneg_right h.rate_le (abs_nonneg sel.localInterval)
  have hdrift := h.drift
  linarith

/-- The error of a sample whose offset is corrected by parts `x` and `y` of the two delays. -/
theorem sample_error_le {x y : ℚ} (h : sel.IsExchange skew growth rate t₁ t₂ t₃ t₄ c₁ c₄)
    (hx : x ≤ t₂ - t₁) (hy : y ≤ t₄ - t₃) (hsum : 0 ≤ x + y) (precision offsetCorrection : ℚ) :
    |-((sel.sample precision skew offsetCorrection).offset + (y - x) / 2 - offsetCorrection) -
        ((c₁ - t₁) + (c₄ - t₄)) / 2| ≤
      (sel.sample precision skew offsetCorrection).rootDelay / 2 + sel.rootDispersion +
        skew * |sel.localInterval| + growth * (1 + rate) * sel.localErr := by
  have hdelay : |sel.localInterval - sel.remoteInterval| ≤
      (sel.sample precision skew offsetCorrection).peerDelay := by
    simp only [sample]
    split
    next hlt => exact hlt.le
    next => exact le_rfl
  have herror := Lib.Exchange.offset_error_le c₁ c₄ hx hy hdelay
  have hoffset : (sel.sample precision skew offsetCorrection).offset + (y - x) / 2 -
      offsetCorrection = (sel.remoteReceive + sel.remoteTransmit) / 2 -
        (sel.localTransmit.ts + sel.localReceive.ts) / 2 + (y - x) / 2 := by
    simp only [sample, remoteInterval, localInterval]
    ring
  rw [hoffset]
  have hlocal := h.localErr
  have hremote := max_le h.remoteReceive h.remoteTransmit
  have hdrift := h.drift_le
  have hroot : (sel.sample precision skew offsetCorrection).rootDelay =
      sel.rootDelay + (sel.sample precision skew offsetCorrection).peerDelay := rfl
  linarith

/-- **The error of a sample is at most its root distance**, also when the corrections of
transparent clocks are applied, if the errors of the local timestamps and the rate of the clock
are estimated well. -/
theorem applyNetCorrection_error_le (h : sel.IsExchange skew growth rate t₁ t₂ t₃ t₄ c₁ c₄)
    (hgrowth : 1 ≤ growth) (precision offsetCorrection : ℚ) :
    let sample := applyNetCorrection (sel.sample precision skew offsetCorrection)
      sel.localReceive sel.localTransmit precision
    |-(sample.offset - offsetCorrection) - ((c₁ - t₁) + (c₄ - t₄)) / 2| ≤
      sample.rootDelay / 2 + sample.rootDispersion +
        (growth * (1 + rate) - 1) * sample.peerDispersion := by
  intro sample
  obtain ⟨hrootDelay, hrootDispersion, hpeerDispersion⟩ := applyNetCorrection_root
    (sel.sample precision skew offsetCorrection) sel.localReceive sel.localTransmit precision
  rw [hrootDelay, hrootDispersion, hpeerDispersion, applyNetCorrection_offset]
  -- the dispersion covers the errors of the local timestamps and the drift of the clock
  have hskew : 0 ≤ skew := by
    have := h.rate_nonneg.trans h.rate_le
    linarith
  have herr : sel.localErr + skew * |sel.localInterval| ≤
      (sel.sample precision skew offsetCorrection).peerDispersion :=
    add_le_add_left (le_max_right _ _) _
  have hfactor : 0 ≤ growth * (1 + rate) - 1 := by
    have := mul_nonneg h.growth_pos.le h.rate_nonneg
    linarith
  have hspare := mul_le_mul_of_nonneg_left herr hfactor
  have hnonneg := mul_nonneg hfactor (mul_nonneg hskew (abs_nonneg sel.localInterval))
  have hdispersion : (sel.sample precision skew offsetCorrection).rootDispersion =
      sel.rootDispersion + (sel.sample precision skew offsetCorrection).peerDispersion := rfl
  split
  next hcorrected =>
    have hsum := hcorrected.sum_nonneg
    rw [add_comm] at hsum
    have herror := sample_error_le h h.requestCorrection h.responseCorrection hsum precision
      offsetCorrection
    linarith
  next =>
    have herror := sample_error_le h (sub_nonneg.mpr h.request) (sub_nonneg.mpr h.response)
      (by simp) precision offsetCorrection
    rw [sub_zero, zero_div] at herror
    linarith

end Selected

/-! ### The association with its timers -/

/-- A timestamp in seconds. -/
def seconds (ts : LocalTimestamp) : ℚ := ts.ts.toNsec / nsecPerSec

/-- **Both models have the same association.** -/
structure Agrees (inst : Instance) (a : Association) : Prop where
  mode : a.mode = inst.mode
  interleaved : a.interleaved = inst.interleaved
  validRx : a.validRx = inst.validRx
  validTimestamps : a.validTimestamps = inst.validTimestamps
  remoteNtpRx : a.remoteNtpRx = inst.remoteNtpRx
  remoteNtpTx : a.remoteNtpTx = inst.remoteNtpTx
  localNtpRx : a.localNtpRx = inst.localNtpRx
  localNtpTx : a.localNtpTx = inst.localNtpTx
  localRx : a.localRx.ts = seconds inst.localRx
  localTx : a.localTx.ts = seconds inst.localTx
  prevLocalTx : a.prevLocalTx.ts = seconds inst.prevLocalTx
  updatedInitTimestamps : a.updatedInitTimestamps = inst.updatedInitTimestamps
  initRemoteNtpTx : a.initRemoteNtpTx = inst.initRemoteNtpTx
  initLocalRx : a.initLocalRx.ts = seconds inst.initLocalRx

variable {inst : Instance} {a : Association}

theorem packetTests_agrees (h : Agrees inst a) (auth : Bool) (message : Packet) :
    a.packetTests auth message = NtpCore.packetTests inst auth message.toMessage := by
  rw [Association.packetTests, NtpCore.packetTests, h.remoteNtpRx, h.remoteNtpTx, h.localNtpTx,
    h.localNtpRx, h.interleaved]

theorem seconds_zero : seconds .zero = 0 := by
  simp [seconds, LocalTimestamp.zero, Timespec.zero, Timespec.toNsec]

theorem agrees_ite {p q : Prop} [Decidable p] [Decidable q] {inst inst' : Instance}
    {a a' : Association} (hpq : p ↔ q) (hthen : Agrees inst a) (helse : Agrees inst' a') :
    Agrees (if p then inst else inst') (if q then a else a') := by
  by_cases h : p
  · rwa [if_pos h, if_pos (hpq.mp h)]
  · rwa [if_neg h, if_neg (mt hpq.mpr h)]

/-- **Both models update the timestamps in the same way.** -/
theorem updateTimestamps_agrees (h : Agrees inst a) {r : Response} {message : Packet}
    {rxTs : Stamp} (hmessage : r.message = message.toMessage) (hrx : rxTs.ts = seconds r.rxTs)
    (t : Tests) (goodPacket : Bool) :
    Agrees (NtpCore.updateTimestamps r t goodPacket inst)
      (a.updateTimestamps message rxTs t goodPacket) := by
  rw [NtpCore.updateTimestamps, Association.updateTimestamps]
  have hcompare : compareNtp64 a.remoteNtpTx message.transmitTs =
      compareNtp64 inst.remoteNtpTx r.message.transmitTs := by rw [h.remoteNtpTx, hmessage]
  have hcompareInit : compareNtp64 a.initRemoteNtpTx message.transmitTs =
      compareNtp64 inst.initRemoteNtpTx r.message.transmitTs := by
    rw [h.initRemoteNtpTx, hmessage]
  refine agrees_ite (by rw [h.mode, h.validRx, hcompare]) ?_ (agrees_ite ?_ ?_ h)
  · refine { h with
      remoteNtpRx := congrArg Message.receiveTs hmessage.symm
      remoteNtpTx := congrArg Message.transmitTs hmessage.symm
      localRx := hrx
      validTimestamps := rfl
      initRemoteNtpTx := rfl
      initLocalRx := seconds_zero.symm
      updatedInitTimestamps := rfl
      localTx := h.localTx
      prevLocalTx := ?_ }
    dsimp only
    split
    · exact h.localTx
    · exact seconds_zero.symm
  · rw [h.mode, h.updatedInitTimestamps, hcompareInit, hmessage]
  · exact { h with
      initRemoteNtpTx := congrArg Message.transmitTs hmessage.symm
      initLocalRx := hrx
      updatedInitTimestamps := rfl }

end Chrony.NtpCore.Measurement
