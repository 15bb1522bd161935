import Chrony.NtpCore.Instance

/-!
# Polling

The functions of `ntp_core.c` which start and stop the timers of an association, compute
the delay to the next transmission and adjust the polling interval, with the resets of the
association and the changes of its operating mode.
-/

namespace Chrony.NtpCore

open Lib Program

/-- `MIN_POLL`. -/
def minPoll : ℤ := -7

/-- `MAX_POLL`. -/
def maxPoll : ℤ := 24

/-- `MIN_NONLAN_POLL`. -/
def minNonlanPoll : ℤ := 0

/-- `INITIAL_DELAY`. -/
def initialDelay : ℚ := 1 / 5

/-- `MIN_SAMPLING_SEPARATION`. -/
def minSamplingSeparation : ℚ := 1 / 500

/-- `MAX_SAMPLING_SEPARATION`. -/
def maxSamplingSeparation : ℚ := 1 / 5

/-- `SAMPLING_RANDOMNESS`. -/
def samplingRandomness : ℚ := 1 / 50

/-- `PEER_SAMPLING_ADJ`. -/
def peerSamplingAdj : ℚ := 11 / 10

/-- `MAX_BURST_INTERVAL`. -/
def maxBurstInterval : ℚ := 2

/-- `MAX_BURST_POLL_RATIO`. -/
def maxBurstPollRatio : ℚ := 1 / 4

/-- `WARM_UP_DELAY`. -/
def warmUpDelay : ℚ := 2

/-- `INVALID_SOCK_FD`. -/
def invalidSockFd : ℤ := -2

/-- `INVALID_IF_INDEX`. -/
def invalidIfIndex : ℤ := -1

/-- `UTI_Log2ToDouble`. -/
def log2ToDouble (l : ℤ) : ℚ :=
  (2 : ℚ) ^ l

/-! ### Delays -/

/-- `get_separation`. -/
def getSeparation (poll : ℤ) : M ℚ := do
  assert .separation (poll ≥ minPoll ∧ poll ≤ maxPoll)
  let separation := log2ToDouble (poll - 3)
  pure (max minSamplingSeparation (min separation maxSamplingSeparation))

/-- `get_transmit_poll`. -/
def getTransmitPoll (inst : Instance) (reachable : Bool) : ℤ :=
  if inst.mode = .active ∧ inst.localPoll > inst.remotePoll ∧ reachable then
    max inst.remotePoll inst.minpoll
  else inst.localPoll

/-- The delay of `get_transmit_delay` before the elapsed time is subtracted. -/
def delayOfMode (inst : Instance) (onTx : Bool) (lastTx delayTime : ℚ) (ourStratum : ℤ) : M ℚ :=
  match inst.opmode with
  | .offline => throw .transmitDelay
  | .online =>
      match inst.mode with
      | .client => pure (if inst.presendDone ≠ 0 then warmUpDelay else delayTime)
      | .active =>
          let stratumDiff := inst.remoteStratum - ourStratum
          pure (if (stratumDiff > 0 ∧ lastTx * peerSamplingAdj < delayTime) ∨
              (!onTx ∧ stratumDiff = 0 ∧ lastTx / delayTime > peerSamplingAdj - 1 / 2) then
            delayTime * peerSamplingAdj
          else delayTime)
  | .burstWasOnline => pure (min maxBurstInterval (maxBurstPollRatio * delayTime))
  | .burstWasOffline => pure (min maxBurstInterval (maxBurstPollRatio * delayTime))

/-- `get_transmit_delay`. -/
def getTransmitDelay (onTx : Bool) : M ℚ := do
  let inst ← getInst
  let a ← ask
  let lastTx :=
    if !onTx ∧ inst.localTx.ts ≠ .zero then a.eventTime.diffToDouble inst.localTx.ts else 0
  let delayTime ← delayOfMode inst onTx lastTx (log2ToDouble (getTransmitPoll inst a.reachable))
    a.ourStratum
  let delayTime := if lastTx > 0 then delayTime - lastTx else delayTime
  pure (if delayTime < 0 then 0 else delayTime)

/-! ### Timers -/

/-- `restart_timeout`. -/
def restartTimeout (delay : ℚ) : M Unit := do
  let inst ← getInst
  if inst.txSuspended then assert .restartTimeout (inst.txTimeoutId = 0)
  else
    removeTimeout inst.rxTimeoutId
    modifyInst ({ · with rxTimeoutId := 0 })
    removeTimeout inst.txTimeoutId
    let separation ← getSeparation inst.localPoll
    let id ← addTimeoutInClass delay separation samplingRandomness
      (if inst.mode = .client then .ntpClientClass else .ntpPeerClass) .transmitTimeout
    modifyInst ({ · with txTimeoutId := id })

/-- `start_initial_timeout`. -/
def startInitialTimeout : M Unit := do
  let inst ← getInst
  let delay ← if inst.localTx.ts ≠ .zero then getTransmitDelay false else pure 0
  restartTimeout (if delay < initialDelay then initialDelay else delay)

/-- The socket of a client is closed. -/
def Instance.closeSocket (inst : Instance) : Instance :=
  if inst.mode = .client then
    { inst with localAddr := { inst.localAddr with sockFd := invalidSockFd } }
  else inst

/-- `close_client_socket`. -/
def closeClientSocket : M Unit := do
  modifyInst (·.closeSocket)
  let inst ← getInst
  removeTimeout inst.rxTimeoutId
  modifyInst ({ · with rxTimeoutId := 0 })
  onlyIf inst.hasSavedResponse do
    removeTimeout inst.savedTimeoutId
    modifyInst (·.clearSavedTimeout)

/-- `NCR_ResetInstance`. -/
def Instance.reset (inst : Instance) : Instance :=
  { inst with
    txCount := 0
    presendDone := 0
    remotePoll := 0
    remoteStratum := 0
    validRx := false
    validTimestamps := false
    remoteNtpRx := 0
    remoteNtpTx := 0
    localNtpRx := 0
    localNtpTx := 0
    localRx := .zero
    prevLocalTx := .zero
    prevLocalPoll := 0
    prevTxCount := 0
    updatedInitTimestamps := false
    initRemoteNtpTx := 0
    initLocalRx := .zero
    filterCount := 0 }

/-- `take_offline`. -/
def takeOffline : M Unit := do
  modifyInst ({ · with opmode := .offline })
  let inst ← getInst
  removeTimeout inst.txTimeoutId
  modifyInst ({ · with txTimeoutId := 0 })
  updateSource
  closeClientSocket
  modifyInst (·.reset)

/-- `NCR_ResetPoll`. -/
def resetPoll : M Unit := do
  modifyInst ({ · with pollScore := 0 })
  let inst ← getInst
  onlyIf (inst.localPoll ≠ inst.minpoll) do
    modifyInst ({ · with localPoll := inst.minpoll })
    onlyIf (inst.txTimeoutId ≠ 0) do
      let delay ← getTransmitDelay false
      restartTimeout delay

/-- The part of `NCR_ChangeRemoteAddress` which closes the old socket. A peer gets a new one
at once. -/
def replaceSocket : M Unit := do
  let inst ← getInst
  match inst.mode with
  | .client => closeClientSocket
  | .active => do
      let a ← ask
      modifyInst ({ · with localAddr := ⟨.unspec, invalidIfIndex, a.sockFd⟩ })

/-- `NCR_ChangeRemoteAddress`. -/
def changeRemoteAddress (remoteAddr : RemoteAddress) : M Unit := do
  modifyInst (·.reset)
  modifyInst ({ · with remoteAddr })
  replaceSocket
  let a ← ask
  onlyIf a.reachable resetPoll
  updateSource
  modifyInst ({ · with
    totalTxCount := 0, totalRxCount := 0, totalValidCount := 0, totalGoodCount := 0 })

/-! ### The polling interval -/

/-- The polling interval and its score are brought to the configured range. -/
def Instance.clampPoll (inst : Instance) (localPoll : ℤ) (pollScore : ℚ) : ℤ × ℚ :=
  if localPoll < inst.minpoll then (inst.minpoll, 0)
  else if localPoll > inst.maxpoll then (inst.maxpoll, 1)
  else (localPoll, pollScore)

/-- `adjust_poll`, with the answers on whether the source is reachable and close. -/
def Instance.adjustPoll (inst : Instance) (adj : ℚ) (reachable lanDelay : Bool) : Instance :=
  let pollScore := inst.pollScore + adj
  let n := if pollScore ≥ 1 then Timespec.trunc pollScore else 0
  let localPoll := inst.localPoll + n
  let pollScore := pollScore - n
  let n := if pollScore < 0 then Timespec.trunc (pollScore - 1) else 0
  let localPoll := localPoll + n
  let pollScore := pollScore - n
  let clamped := inst.clampPoll localPoll pollScore
  { inst with
    localPoll :=
      if clamped.1 < minNonlanPoll ∧ (!reachable ∨ !lanDelay) then minNonlanPoll else clamped.1
    pollScore := clamped.2 }

/-- `adjust_poll`. -/
def adjustPoll (adj : ℚ) : M Unit := do
  let a ← ask
  modifyInst (·.adjustPoll adj a.reachable a.lanDelay)

/-- The part of `process_sample` after the filter. -/
def accumulateSample : M Unit := do
  updateSource
  let a ← ask
  adjustPoll a.pollAdj

/-- `process_sample`. The flag says whether there is a sample. -/
def processSample (sample : Bool) : M Unit := do
  let inst ← getInst
  match inst.filter with
  | none => onlyIf sample accumulateSample
  | some maxSamples => do
      modifyInst ({ · with filterCount := inst.filterCount + 1 })
      let a ← ask
      onlyIf (¬(inst.filterCount + 1 < maxSamples) ∧ a.filteredSample) do
        modifyInst ({ · with filterCount := 0 })
        accumulateSample

/-! ### Operating modes -/

/-- `IBURST_GOOD_SAMPLES`. -/
def iburstGoodSamples : ℤ := 4

/-- `IBURST_TOTAL_SAMPLES`. -/
def iburstTotalSamples : ℤ := 8

/-- `NCR_InitiateSampleBurst`. -/
def initiateSampleBurst (nGoodSamples nTotalSamples : ℤ) : M Unit := do
  let inst ← getInst
  match inst.mode, inst.opmode with
  | .active, _ => pure ()
  | .client, .burstWasOffline => pure ()
  | .client, .burstWasOnline => pure ()
  | .client, opmode => do
      modifyInst ({ · with
        opmode := if opmode = .online then .burstWasOnline else .burstWasOffline
        burstGoodSamplesToGo := nGoodSamples
        burstTotalSamplesToGo := nTotalSamples })
      startInitialTimeout

/-- `SRC_MAYBE_ONLINE` depends on whether the server is connectable. -/
def Connectivity.isOnline (connectivity : Connectivity) (connectable : Bool) : Bool :=
  match connectivity with
  | .online => true
  | .offline => false
  | .maybeOnline => connectable

/-- `set_connectivity` and `NCR_SetConnectivity`, which logs the change. -/
def setConnectivity (connectivity : Connectivity) : M Unit := do
  let a ← ask
  let inst ← getInst
  if connectivity.isOnline a.connectable then
    match inst.opmode with
    | .online => pure ()
    | .offline => do
        modifyInst ({ · with opmode := .online })
        modifyInst (·.reset)
        startInitialTimeout
        onlyIf inst.autoIburst (initiateSampleBurst iburstGoodSamples iburstTotalSamples)
    | .burstWasOnline => pure ()
    | .burstWasOffline => modifyInst ({ · with opmode := .burstWasOnline })
  else
    match inst.opmode with
    | .online => takeOffline
    | .offline => pure ()
    | .burstWasOnline => modifyInst ({ · with opmode := .burstWasOffline })
    | .burstWasOffline => pure ()

end Chrony.NtpCore
