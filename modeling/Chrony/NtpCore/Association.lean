import Chrony.NtpCore.Response

/-!
# Runs of an Association

The handlers of timeouts and packets and the public operations of `ntp_core.c`, as the steps
of one association. The scheduler has also timeouts of other objects, which come and go at
any time. An association can be destroyed and a new one created.
-/

namespace Chrony.NtpCore

open Lib Program

/-- `MAX_CLIENT_INTERLEAVED_TX`. -/
def maxClientInterleavedTx : ℕ := 4

/-- `MAX_SERVER_INTERVAL`. -/
def maxServerInterval : ℚ := 4

/-- `BURST_GOOD_SAMPLES`. -/
def burstGoodSamples : ℤ := 1

/-- `MAX_BURST_TOTAL_SAMPLES`. -/
def maxBurstTotalSamples : ℤ := 4

/-- `MAX_TX_DELAY`. -/
def maxTxDelay : ℚ := 1

/-- `MAX_MAXDELAY`. -/
def maxMaxdelay : ℚ := 1000

/-! ### Transmissions -/

/-- `1 << n` in a 32-bit integer. -/
def shiftOne (n : ℤ) : ℤ :=
  ((1 : BitVec 32) <<< n.toNat).toInt

/-- The operating mode is changed before a transmission at the end of a burst, or at the
start of an automatic one. -/
def updateOpmode : M Unit := do
  let inst ← getInst
  match inst.opmode with
  | .burstWasOnline =>
      onlyIf (inst.burstTotalSamplesToGo ≤ 1) (modifyInst ({ · with opmode := .online }))
  | .burstWasOffline => onlyIf (inst.burstTotalSamplesToGo ≤ 0) takeOffline
  | .online =>
      onlyIf (inst.autoBurst ∧ inst.localPoll > inst.minpoll)
        (initiateSampleBurst burstGoodSamples
          (min (shiftOne (inst.localPoll - inst.minpoll)) maxBurstTotalSamples))
  | .offline => pure ()

/-- `NAU_PrepareRequestAuth`, which can change the address of the association. -/
def prepareRequestAuth : M Bool := do
  let a ← ask
  match a.ntsAddress with
  | none => pure a.prepareAuth
  | some remoteAddr => do
      changeRemoteAddress remoteAddr
      pure a.prepareAuth

/-- A new client socket is opened for each request. -/
def openClientSocket : M Unit := do
  let inst ← getInst
  match inst.mode with
  | .active => pure ()
  | .client => do
      closeClientSocket
      let inst ← getInst
      assert .clientSocket (inst.localAddr.sockFd = invalidSockFd)
      let a ← ask
      modifyInst fun inst => { inst with localAddr := { inst.localAddr with sockFd := a.sockFd } }

/-- The association is prepared for the response. -/
def Instance.prepareForResponse (inst : Instance) : Instance :=
  let interleaved := inst.interleaved ∧
    ((inst.mode = .client ∧ inst.txCount < maxClientInterleavedTx) ∨
      (inst.mode = .active ∧ inst.prevTxCount = 1 ∧ inst.txCount = 0))
  let initial := inst.mode = .active ∧ !inst.validRx ∧ inst.initRemoteNtpTx ≠ 0
  { inst with
    validRx := false
    updatedInitTimestamps := false
    validTimestamps := if initial then false else inst.validTimestamps
    presendDone :=
      if inst.presendMinpoll ≤ inst.localPoll ∧ inst.presendDone = 0 ∧
          inst.burstTotalSamplesToGo = 0 then
        if interleaved then 2 else 1
      else if inst.presendDone > 0 then inst.presendDone - 1
      else inst.presendDone }

/-- `transmit_packet` for the association. It returns whether the packet was sent. -/
def transmitPacket : M Bool := do
  let a ← ask
  record .transmitted
  match a.transmission with
  | none => pure false
  | some tx => do
      modifyInst ({ · with
        localTx := ⟨tx.localTx, .daemon⟩
        localNtpRx := tx.receiveTs
        localNtpTx := tx.transmitTs })
      pure tx.sent

/-- A missing response is counted. -/
def missResponse (sent : Bool) : M Unit := do
  let inst ← getInst
  onlyIf (inst.txCount ≥ 2) do
    let a ← ask
    onlyIf sent (adjustPoll (if a.syncPeer then 1 / 10 else 1 / 4))
    updateSource
    processSample false

/-- The requests in a burst are counted. -/
def countBurstRequest (sent : Bool) : M Unit := do
  let a ← ask
  modifyInst fun inst =>
    match inst.opmode with
    | .burstWasOnline =>
        if !sent ∧ !a.reachable then inst
        else { inst with burstTotalSamplesToGo := inst.burstTotalSamplesToGo - 1 }
    | .burstWasOffline =>
        { inst with burstTotalSamplesToGo := inst.burstTotalSamplesToGo - 1 }
    | .offline => inst
    | .online => inst

/-- The timers are restarted after a transmission. A client socket is closed when no
response can be accepted any more. -/
def restartTimers : M Unit := do
  let delay ← getTransmitDelay true
  restartTimeout delay
  let inst ← getInst
  match inst.mode with
  | .active => pure ()
  | .client => do
      let id ← addTimeoutByDelay (inst.maxDelay + maxServerInterval) .receiveTimeout
      modifyInst ({ · with rxTimeoutId := id })

/-- A request is sent. -/
def sendRequest : M Unit := do
  openClientSocket
  modifyInst (·.prepareForResponse)
  let sent ← transmitPacket
  modifyInst fun inst =>
    { inst with
      txCount := inst.txCount + 1
      totalTxCount := if sent then inst.totalTxCount + 1 else inst.totalTxCount }
  missResponse sent
  let inst ← getInst
  onlyIf (!sent ∧ inst.autoOffline) (setConnectivity .offline)
  countBurstRequest sent
  let inst ← getInst
  onlyIf (inst.opmode ≠ .offline) restartTimers

/-- `transmit_timeout` after the saved response is processed. -/
def transmitRequest : M Unit := do
  updateOpmode
  let inst ← getInst
  onlyIf (inst.opmode ≠ .offline) do
    let prepared ← prepareRequestAuth
    if prepared then sendRequest
    else
      updateSource
      let delay ← getTransmitDelay true
      restartTimeout delay
      processSample false

/-- `transmit_timeout`. A saved response can start a new timeout of the transmission. -/
def transmitTimeout : M Unit := do
  modifyInst ({ · with txTimeoutId := 0 })
  let inst ← getInst
  if inst.hasSavedResponse then
    processSavedResponse
    let inst ← getInst
    onlyIf (inst.txTimeoutId = 0) transmitRequest
  else transmitRequest

/-- `receive_timeout`. -/
def receiveTimeout : M Unit := do
  modifyInst ({ · with rxTimeoutId := 0 })
  closeClientSocket

/-! ### Packets -/

/-- The packet is processed by the association: `proc_packet` of `NCR_ProcessRxKnown`. Other
packets are discarded, or processed as packets from unknown sources. -/
def procPacket (mode : Mode) (packetMode : NtpMode) : Bool :=
  match packetMode, mode with
  | .active, .active => true
  | .passive, .active => true
  | .server, .client => true
  | _, _ => false

/-- `NCR_ProcessRxKnown`. The message is none if it cannot be parsed. -/
def processRxKnown (localAddr : LocalAddress) (rxTs : LocalTimestamp) (message : Option Message) :
    M Bool := do
  modifyInst fun inst => { inst with totalRxCount := inst.totalRxCount + 1 }
  let inst ← getInst
  match message with
  | none => pure false
  | some message =>
      if procPacket inst.mode message.mode ∧ localAddr.sockFd = inst.localAddr.sockFd ∧
          ¬(inst.opmode = .offline ∨ inst.txSuspended) then
        processResponse ⟨localAddr, rxTs, message⟩
      else pure false

/-- `update_tx_timestamp` for a packet sent by the association. -/
def updateTxTimestamp (txTs : LocalTimestamp) (message : Message) (inst : Instance) : Instance :=
  if inst.localTx.ts = .zero then inst
  else if compareNtp64 message.receiveTs inst.localNtpRx ≠ 0 ∨
      compareNtp64 message.transmitTs inst.localNtpTx ≠ 0 then inst
  else
    let delay := txTs.ts.diffToDouble inst.localTx.ts
    if delay < 0 ∨ delay > maxTxDelay then inst else { inst with localTx := txTs }

/-- `NCR_ProcessTxKnown`. -/
def processTxKnown (txTs : LocalTimestamp) (message : Option Message) : M Unit := do
  match message with
  | none => pure ()
  | some message =>
      onlyIf (message.mode = .client ∨ message.mode = .active) do
        modifyInst (updateTxTimestamp txTs message)
        let inst ← getInst
        onlyIf (txTs.source = .hardware ∧ inst.hasSavedResponse) processSavedResponse

/-! ### Configuration -/

/-- `NCR_ModifyMinpoll`. The nested call sets the other limit to the same value. -/
def Instance.modifyMinpoll (inst : Instance) (newMinpoll : ℤ) : Instance :=
  if newMinpoll < minPoll ∨ newMinpoll > maxPoll then inst
  else
    { inst with
      minpoll := newMinpoll
      maxpoll := if inst.maxpoll < newMinpoll then newMinpoll else inst.maxpoll }

/-- `NCR_ModifyMaxpoll`. The nested call sets the other limit to the same value. -/
def Instance.modifyMaxpoll (inst : Instance) (newMaxpoll : ℤ) : Instance :=
  if newMaxpoll < minPoll ∨ newMaxpoll > maxPoll then inst
  else
    { inst with
      maxpoll := newMaxpoll
      minpoll := if inst.minpoll > newMaxpoll then newMaxpoll else inst.minpoll }

/-- `CLAMP` of `max_delay`. -/
def clampMaxDelay (maxDelay : ℚ) : ℚ :=
  max 0 (min maxDelay maxMaxdelay)

/-- `NTP_Source_Type` and the fields of `SourceParameters` which the model uses. -/
structure Params where
  mode : Mode
  interleaved : Bool
  minpoll : ℤ
  maxpoll : ℤ
  presendMinpoll : ℤ
  maxDelay : ℚ
  iburst : Bool
  burst : Bool
  autoOffline : Bool
  copy : Bool
  filterLength : ℕ
  connectivity : Connectivity

/-- `SRC_DEFAULT_MINPOLL`. -/
def defaultMinpoll : ℤ := 6

/-- `SRC_DEFAULT_MAXPOLL`. -/
def defaultMaxpoll : ℤ := 10

/-- A limit of the polling interval is brought to the supported range. -/
def limitPoll (default poll : ℤ) : ℤ :=
  if poll < minPoll then default else if poll > maxPoll then maxPoll else poll

/-- The new association of `NCR_CreateInstance`, before its connectivity is set. The socket
of a peer is opened at once. -/
def Params.toInstance (params : Params) (remoteAddr : RemoteAddress) (sockFd : ℤ) : Instance :=
  let minpoll := limitPoll defaultMinpoll params.minpoll
  let maxpoll := limitPoll defaultMaxpoll params.maxpoll
  Instance.reset
    { remoteAddr
      localAddr :=
        ⟨.unspec, invalidIfIndex, if params.mode = .client then invalidSockFd else sockFd⟩
      mode := params.mode
      interleaved := params.interleaved
      opmode := .offline
      rxTimeoutId := 0
      txTimeoutId := 0
      txSuspended := true
      autoIburst := params.iburst
      autoBurst := params.burst
      autoOffline := params.autoOffline
      localPoll := max minpoll minNonlanPoll
      remotePoll := 0
      remoteStratum := 0
      presendMinpoll :=
        if params.presendMinpoll ≤ maxPoll ∧ params.mode ≠ .client then maxPoll + 1
        else params.presendMinpoll
      presendDone := 0
      minpoll
      maxpoll := if maxpoll < minpoll then minpoll else maxpoll
      copy := params.copy && params.mode = .client
      pollScore := 0
      maxDelay := clampMaxDelay params.maxDelay
      txCount := 0
      validRx := false
      validTimestamps := false
      remoteNtpRx := 0
      remoteNtpTx := 0
      localNtpRx := 0
      localRx := .zero
      localNtpTx := 0
      localTx := .zero
      prevLocalTx := .zero
      prevLocalPoll := 0
      prevTxCount := 0
      updatedInitTimestamps := false
      initRemoteNtpTx := 0
      initLocalRx := .zero
      filter := if params.filterLength ≥ 1 then some params.filterLength else none
      filterCount := 0
      savedResponse := none
      burstGoodSamplesToGo := 0
      burstTotalSamplesToGo := 0
      totalTxCount := 0
      totalRxCount := 0
      totalValidCount := 0
      totalGoodCount := 0 }

/-- `NCR_StartInstance`. -/
def startInstance : M Unit := do
  modifyInst ({ · with txSuspended := false })
  let inst ← getInst
  onlyIf (inst.opmode ≠ .offline) startInitialTimeout

/-- `NCR_DestroyInstance`, before the record is freed. -/
def destroyInstance : M Unit := do
  let inst ← getInst
  onlyIf (inst.opmode ≠ .offline) takeOffline
  updateSource

/-! ### Runs -/

/-- The scheduler and the association, if it exists. -/
structure World where
  sched : Sched.State Handler Arg
  inst : Option Instance
  history : List Action

/-- What can happen. Sources other than the modelled one add and remove their own
timeouts. -/
inductive Event
  | create (params : Params) (remoteAddr : RemoteAddress) (sockFd : ℤ)
  | start
  | setConnectivity (connectivity : Connectivity)
  | initiateSampleBurst (nGoodSamples nTotalSamples : ℤ)
  | reset
  | resetPoll
  | changeRemoteAddress (remoteAddr : RemoteAddress)
  | modifyMinpoll (newMinpoll : ℤ)
  | modifyMaxpoll (newMaxpoll : ℤ)
  | modifyMaxdelay (newMaxDelay : ℚ)
  | destroy
  | dispatch (now : ℚ)
  | processRxKnown (localAddr : LocalAddress) (rxTs : LocalTimestamp) (message : Option Message)
  | processTxKnown (txTs : LocalTimestamp) (message : Option Message)
  | slew (slew : Slew)
  | unknownStep (cooked : Timespec) (doffset : ℚ)
  | addOther (ts : ℚ) (cls : Sched.TimeoutClass) (handler : Handler)
  | removeOther (id : ℕ)

/-- The functions run on an association. -/
def World.exec (w : World) (inst : Instance) (answers : ℕ → Answers) (m : M Unit) :
    Except Abort World :=
  (m ⟨w.sched, inst, w.history, answers, 0⟩).map fun r => ⟨r.2.sched, some r.2.inst, r.2.history⟩

/-- The program of an event which concerns an existing association. -/
def Event.program : Event → M Unit
  | .start => startInstance
  | .setConnectivity connectivity => NtpCore.setConnectivity connectivity
  | .initiateSampleBurst nGood nTotal => NtpCore.initiateSampleBurst nGood nTotal
  | .reset => modifyInst (·.reset)
  | .resetPoll => NtpCore.resetPoll
  | .changeRemoteAddress remoteAddr => NtpCore.changeRemoteAddress remoteAddr
  | .modifyMinpoll newMinpoll => modifyInst (·.modifyMinpoll newMinpoll)
  | .modifyMaxpoll newMaxpoll => modifyInst (·.modifyMaxpoll newMaxpoll)
  | .modifyMaxdelay newMaxDelay => modifyInst ({ · with maxDelay := clampMaxDelay newMaxDelay })
  | .processRxKnown localAddr rxTs message => do
      let _ ← NtpCore.processRxKnown localAddr rxTs message
      pure ()
  | .processTxKnown txTs message => NtpCore.processTxKnown txTs message
  | _ => pure ()

/-- The handler of a timeout. -/
def Handler.program : Handler → M Unit
  | .transmitTimeout => NtpCore.transmitTimeout
  | .receiveTimeout => NtpCore.receiveTimeout
  | .savedResponseTimeout => NtpCore.savedResponseTimeout
  | .other => pure ()

/-- An error of the scheduler. -/
def liftSched {α : Type} : Except Sched.Abort α → Except Abort α
  | .ok a => .ok a
  | .error e => .error (.sched e)

/-- `dispatch_timeouts` for the first timeout of the queue. -/
def World.dispatch (w : World) (answers : ℕ → Answers) (now : ℚ) : Except Abort World :=
  match w.sched.timerQueue with
  | [] => .ok w
  | ptr :: _ =>
      if now ≥ ptr.ts then do
        let sched ← liftSched (Sched.removeTimeout
          { w.sched with
            lastClassDispatch := Function.update w.sched.lastClassDispatch ptr.cls now } ptr.id)
        match ptr.arg, w.inst with
        | .other, _ => .ok { w with sched }
        | .inst, none => .error .freedInstance
        | .inst, some inst => World.exec { w with sched } inst answers ptr.handler.program
      else .ok w

/-- A change of the clock is reported to the scheduler, and to the association: after an
unknown step, it is reset. -/
def World.changeClock (w : World) (answers : ℕ → Answers) (cooked : Timespec) (dfreq doffset : ℚ)
    (changeType : Sched.ChangeType) : Except Abort World :=
  let w := { w with
    sched := Sched.handleSlew w.sched (cooked.toNsec / Chrony.nsecPerSec) dfreq doffset changeType }
  match w.inst with
  | none => .ok w
  | some inst =>
      if changeType = .unknownStep then
        w.exec inst answers do
          modifyInst (·.reset)
          resetPoll
      else
        let slew : Slew := ⟨cooked, dfreq, doffset, changeType = .step⟩
        .ok { w with inst := some (slewTimes slew inst) }

/-- One event. -/
def step (w : World) (event : Event × (ℕ → Answers)) : Except Abort World :=
  let answers := event.2
  match event.1, w.inst with
  | .create params remoteAddr sockFd, none =>
      w.exec (params.toInstance remoteAddr sockFd) answers (setConnectivity params.connectivity)
  | .create .., some _ => .ok w
  | .destroy, none => .ok w
  | .destroy, some inst => do
      let w ← w.exec inst answers destroyInstance
      pure { w with inst := none }
  | .dispatch now, _ => w.dispatch answers now
  | .slew slew, _ =>
      w.changeClock answers slew.cooked slew.dfreq slew.doffset
        (if slew.step then .step else .adjust)
  | .unknownStep cooked doffset, _ => w.changeClock answers cooked 0 doffset .unknownStep
  | .addOther ts cls handler, _ => do
      let r ← liftSched (Sched.link w.sched (fun ptr => ts < ptr.ts) ts cls handler .other)
      pure { w with sched := r.1 }
  | .removeOther id, _ => do
      if w.sched.timerQueue.any fun e => e.id == id && e.arg == .other then
        let sched ← liftSched (Sched.removeTimeout w.sched id)
        pure { w with sched }
      else pure w
  | event, some inst => w.exec inst answers event.program
  | _, none => .ok w

/-- A run from the initialised scheduler. -/
def run (now : ℚ) (events : List (Event × (ℕ → Answers))) : Except Abort World :=
  events.foldlM step ⟨Sched.initialise now, none, []⟩

end Chrony.NtpCore
