import Chrony.NtpCore.Polling

/-!
# Responses

`process_response` of `ntp_core.c`, with the saved responses. A valid response which comes
before the hardware timestamp of its request is saved, and processed when the timestamp
comes, when another valid response comes, or on a timeout. The call for a saved response
is made inside of the call for the other response.
-/

namespace Chrony.NtpCore

open Lib Program Sources

/-- `NTP_MAX_STRATUM`. -/
def ntpMaxStratum : ℕ := 16

/-- `NTP_INVALID_STRATUM`. -/
def ntpInvalidStratum : ℕ := 0

/-- `NTP_MAX_DISPERSION`. -/
def ntpMaxDispersion : ℚ := 16

/-- `KOD_RATE`. -/
def kodRate : BitVec 32 := 0x52415445

/-- A received packet, as it is passed to `process_response`. -/
structure Response where
  localAddr : LocalAddress
  rxTs : LocalTimestamp
  message : Message

/-- The packet tests 1 to 7. -/
structure Tests where
  test1 : Bool
  test2n : Bool
  test2i : Bool
  test3 : Bool
  test5 : Bool
  test6 : Bool
  test7 : Bool
  deriving DecidableEq, Repr

namespace Tests

/-- `test2`. -/
def test2 (t : Tests) : Bool := t.test2n || t.test2i

/-- `interleaved_packet`. -/
def interleavedPacket (t : Tests) : Bool := !t.test2n && t.test2i

/-- `valid_packet`, before other responses to the request are considered. -/
def validPacket (t : Tests) : Bool := t.test1 && t.test2 && t.test3 && t.test5

/-- `synced_packet`, before other responses to the request are considered. -/
def syncedPacket (t : Tests) : Bool := t.validPacket && t.test6 && t.test7

end Tests

/-- The packet tests of a message. The authentication of a saved message is not checked
again. -/
def packetTests (inst : Instance) (auth : Bool) (message : Message) : Tests where
  test1 := compareNtp64 message.receiveTs inst.remoteNtpRx ≠ 0 ∨
    compareNtp64 message.transmitTs inst.remoteNtpTx ≠ 0
  test2n := compareNtp64 message.originateTs inst.localNtpTx = 0
  test2i := inst.interleaved ∧ compareNtp64 message.originateTs inst.localNtpRx = 0
  test3 := message.originateTs ≠ 0 ∧ message.receiveTs ≠ 0 ∧ message.transmitTs ≠ 0
  test5 := auth
  test6 := message.leap ≠ .unsynchronised ∧ message.stratum < ntpMaxStratum ∧
    message.stratum ≠ ntpInvalidStratum
  test7 := message.rootDelay / 2 + message.rootDispersion < ntpMaxDispersion

/-- `kod_rate`. -/
def isKodRate (t : Tests) (message : Message) : Bool :=
  t.test1 && t.test2 && t.test5 && message.leap = .unsynchronised &&
    message.stratum = ntpInvalidStratum && message.referenceId = kodRate

/-- The tests A to D: they are made with a measurement, which needs valid timestamps. -/
structure SampleTests where
  testA : Bool
  testB : Bool
  testC : Bool
  testD : Bool
  deriving DecidableEq, Repr

/-- `good_packet`. -/
def SampleTests.goodPacket (t : SampleTests) : Bool :=
  t.testA && t.testB && t.testC && t.testD

/-- The tests of the measurement. -/
def sampleTests (inst : Instance) (t : Tests) (a : Answers) : SampleTests :=
  if t.syncedPacket ∧ (!t.interleavedPacket ∨ inst.validTimestamps) then
    ⟨a.testA && inst.presendDone ≤ 0, a.testB, a.testC, a.testD⟩
  else ⟨false, false, false, false⟩

/-- The update of the NTP timestamps. -/
def updateTimestamps (r : Response) (t : Tests) (goodPacket : Bool) (inst : Instance) :
    Instance :=
  if (inst.mode = .client ∧ t.validPacket ∧ !inst.validRx) ∨
      (inst.mode = .active ∧ t.validPacket ∧
        (!inst.validRx ∨ compareNtp64 inst.remoteNtpTx r.message.transmitTs < 0)) then
    { inst with
      remoteNtpRx := r.message.receiveTs
      remoteNtpTx := r.message.transmitTs
      localRx := r.rxTs
      validTimestamps := t.syncedPacket
      initRemoteNtpTx := 0
      initLocalRx := .zero
      updatedInitTimestamps := false
      prevLocalTx := if t.interleavedPacket || !goodPacket then inst.localTx else .zero }
  else if inst.mode = .active ∧ t.test1 ∧ r.message.transmitTs ≠ 0 ∧ t.test5 ∧
      (!inst.updatedInitTimestamps ∨
        compareNtp64 inst.initRemoteNtpTx r.message.transmitTs < 0) then
    { inst with
      initRemoteNtpTx := r.message.transmitTs
      initLocalRx := r.rxTs
      updatedInitTimestamps := true }
  else inst

/-- `remote_stratum` of a message. -/
def Message.remoteStratum (message : Message) : ℤ :=
  if message.stratum ≠ ntpInvalidStratum then min message.stratum ntpMaxStratum
  else ntpMaxStratum

/-- With the `copy` option, the stratum of the server is assumed. -/
def copyStratum (syncedPacket : Bool) : M Unit := do
  let inst ← getInst
  onlyIf inst.copy do
    if syncedPacket ∧ inst.remoteStratum > 0 then
      modifyInst ({ · with remoteStratum := inst.remoteStratum - 1 })
    else updateSource

/-- The check whether a burst is completed. -/
def countBurstSample : M Unit := do
  let inst ← getInst
  match inst.opmode with
  | .offline => pure ()
  | .online => pure ()
  | .burstWasOnline =>
      modifyInst ({ · with
        burstGoodSamplesToGo := inst.burstGoodSamplesToGo - 1
        opmode := if inst.burstGoodSamplesToGo - 1 ≤ 0 then .online else inst.opmode })
  | .burstWasOffline => do
      modifyInst ({ · with burstGoodSamplesToGo := inst.burstGoodSamplesToGo - 1 })
      onlyIf (inst.burstGoodSamplesToGo - 1 ≤ 0) takeOffline

/-- A sample is accumulated, or counted as missing. -/
def processMeasurement (t : SampleTests) : M Unit := do
  if t.goodPacket then
    processSample true
    countBurstSample
  else
    adjustPoll (if t.testD then 1 / 50 else 1 / 10)
    processSample false

/-- The timer is requeued after a valid response. -/
def requeueTimer (saved kodRate : Bool) : M Unit := do
  let inst ← getInst
  onlyIf (inst.opmode ≠ .offline) do
    let delayTime ← getTransmitDelay false
    modifyInst fun inst =>
      if kodRate ∧ (inst.opmode = .burstWasOffline ∨ inst.opmode = .burstWasOnline) then
        { inst with burstGoodSamplesToGo := 0 }
      else inst
    assert .responseTimeout (saved ∨ inst.txTimeoutId ≠ 0)
    restartTimeout (if kodRate then delayTime + 4 * log2ToDouble inst.localPoll else delayTime)

/-- What is done with a valid response which is the first one to its request. -/
def acceptResponse (saved : Bool) (r : Response) (t : Tests) (u : SampleTests) : M Unit := do
  modifyInst fun inst =>
    { inst with
      remotePoll := r.message.poll
      remoteStratum := r.message.remoteStratum
      prevLocalPoll := inst.localPoll
      prevTxCount := inst.txCount
      txCount := 0 }
  updateSource
  copyStratum t.syncedPacket
  processMeasurement u
  closeClientSocket
  modifyInst fun inst =>
    { inst with localAddr := { r.localAddr with sockFd := inst.localAddr.sockFd } }
  requeueTimer saved (isKodRate t r.message)
  modifyInst fun inst =>
    { inst with
      totalValidCount := inst.totalValidCount + 1
      totalGoodCount := if u.goodPacket then inst.totalGoodCount + 1 else inst.totalGoodCount }
  record .accepted

/-- `process_response` after the packet tests. At most one response is accepted for each
request. -/
def finishResponse (saved : Bool) (r : Response) (t : Tests) : M Bool := do
  let inst ← getInst
  let a ← ask
  let u := sampleTests inst t a
  modifyInst (updateTimestamps r t u.goodPacket)
  let inst ← getInst
  if inst.validRx then pure false
  else if t.validPacket then
    modifyInst ({ · with validRx := true })
    acceptResponse saved r t u
    pure u.goodPacket
  else pure u.goodPacket

/-! ### Saved responses -/

/-- `process_saved_response`. The call of `process_response` does not save the response
again. -/
def processSavedResponse : M Unit := do
  let inst ← getInst
  match inst.savedResponse with
  | none => throw .savedResponse
  | some saved => do
      removeTimeout saved.timeoutId
      modifyInst (·.clearSavedTimeout)
      let inst ← getInst
      let _ ← finishResponse true ⟨saved.localAddr, saved.rxTs, saved.message⟩
        (packetTests inst true saved.message)
      pure ()

/-- `saved_response_timeout`. -/
def savedResponseTimeout : M Unit := do
  modifyInst (·.clearSavedTimeout)
  processSavedResponse

/-- `save_response`. -/
def saveResponse (r : Response) : M Bool := do
  let a ← ask
  if a.hwTsTimeout ≤ 0 then pure false
  else
    let inst ← getInst
    if inst.hasSavedResponse then
      processSavedResponse
      pure false
    else
      let timeoutId ← addTimeoutByDelay a.hwTsTimeout .savedResponseTimeout
      modifyInst ({ · with savedResponse := some ⟨r.localAddr, r.rxTs, r.message, timeoutId⟩ })
      pure true

/-- The response is saved if it is the first valid one to the request, and at least one
good response was already accepted. -/
def isSavable (inst : Instance) (t : Tests) (hwTsEnabled : Bool) : Bool :=
  t.validPacket && t.syncedPacket && !inst.validRx && hwTsEnabled &&
    inst.localTx.source ≠ .hardware && inst.totalGoodCount > 0

/-- `process_response` of a response which is not saved. -/
def processResponse (r : Response) : M Bool := do
  let inst ← getInst
  let a ← ask
  let t := packetTests inst a.checkAuth r.message
  if isSavable inst t a.hwTsEnabled then
    let isSaved ← saveResponse r
    if isSaved then pure true else finishResponse false r t
  else finishResponse false r t

end Chrony.NtpCore
