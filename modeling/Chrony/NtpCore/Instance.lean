import Chrony.Lib.Program
import Chrony.Sched.Queue
import Chrony.Sources.Table

/-!
# NTP Associations

The data model of `ntp_core.c`: an association with a server or a peer, the messages it
receives, and the programs in which its functions are written. The timers are in the queue
of the scheduler, which is a part of the state.

What the functions ask other modules (the table of sources, the reference, the
configuration, the network and the clocks) is answered by `Answers`. Every question is
answered anew, in any way. The measurement made with a response is not modelled: the tests
A to D, which compare real numbers computed from the timestamps, are answers too. Left out
with it are the fields which only the measurement and the reports use.
-/

namespace Chrony.NtpCore

open Lib Sources

/-- `MODE_CLIENT` and `MODE_ACTIVE`, the modes of an association. -/
inductive Mode
  | client
  | active
  deriving DecidableEq, Repr

/-- `NTP_Mode` of a message. The last one stands for the two reserved values. -/
inductive NtpMode
  | undefined
  | active
  | passive
  | client
  | server
  | broadcast
  | reserved
  deriving DecidableEq, Repr

/-- `OperatingMode`. -/
inductive OperatingMode
  | offline
  | online
  | burstWasOffline
  | burstWasOnline
  deriving DecidableEq, Repr

/-- `SRC_Connectivity`. -/
inductive Connectivity
  | offline
  | online
  | maybeOnline
  deriving DecidableEq, Repr

/-- `NTP_Remote_Address`. -/
structure RemoteAddress where
  ipAddr : IPAddr
  port : ℕ
  deriving DecidableEq

/-- `NTP_Local_Address`. -/
structure LocalAddress where
  ipAddr : IPAddr
  ifIndex : ℤ
  sockFd : ℤ
  deriving DecidableEq

/-- `NTP_Local_Timestamp`. -/
structure LocalTimestamp where
  ts : Timespec
  source : TimestampSource
  deriving DecidableEq

/-- `zero_local_timestamp`. -/
def LocalTimestamp.zero : LocalTimestamp := ⟨.zero, .daemon⟩

/-- `NTP_Packet` as it is parsed by `parse_packet`, with the root delay and dispersion of
the header or of the extension field. -/
structure Message where
  leap : Leap
  mode : NtpMode
  stratum : ℕ
  poll : ℤ
  rootDelay : ℚ
  rootDispersion : ℚ
  referenceId : BitVec 32
  originateTs : BitVec 64
  receiveTs : BitVec 64
  transmitTs : BitVec 64
  deriving DecidableEq

/-- `struct SavedResponse`. -/
structure SavedResponse where
  localAddr : LocalAddress
  rxTs : LocalTimestamp
  message : Message
  timeoutId : ℕ
  deriving DecidableEq

/-- The handlers of timeouts. The last one stands for those of other modules. -/
inductive Handler
  | transmitTimeout
  | receiveTimeout
  | savedResponseTimeout
  | other
  deriving DecidableEq, Repr

/-- The argument of a handler: the modelled association, or another object. -/
inductive Arg
  | inst
  | other
  deriving DecidableEq, Repr

/-- `struct NCR_Instance_Record`. The filter is given by its maximum number of samples, and
the counters of packets are from the report. -/
structure Instance where
  remoteAddr : RemoteAddress
  localAddr : LocalAddress
  mode : Mode
  interleaved : Bool
  opmode : OperatingMode
  rxTimeoutId : ℕ
  txTimeoutId : ℕ
  txSuspended : Bool
  autoIburst : Bool
  autoBurst : Bool
  autoOffline : Bool
  localPoll : ℤ
  remotePoll : ℤ
  remoteStratum : ℤ
  presendMinpoll : ℤ
  presendDone : ℤ
  minpoll : ℤ
  maxpoll : ℤ
  copy : Bool
  pollScore : ℚ
  maxDelay : ℚ
  txCount : ℕ
  validRx : Bool
  validTimestamps : Bool
  remoteNtpRx : BitVec 64
  remoteNtpTx : BitVec 64
  localNtpRx : BitVec 64
  localRx : LocalTimestamp
  localNtpTx : BitVec 64
  localTx : LocalTimestamp
  prevLocalTx : LocalTimestamp
  prevLocalPoll : ℤ
  prevTxCount : ℕ
  updatedInitTimestamps : Bool
  initRemoteNtpTx : BitVec 64
  initLocalRx : LocalTimestamp
  filter : Option ℕ
  filterCount : ℕ
  savedResponse : Option SavedResponse
  burstGoodSamplesToGo : ℤ
  burstTotalSamplesToGo : ℤ
  totalTxCount : ℕ
  totalRxCount : ℕ
  totalValidCount : ℕ
  totalGoodCount : ℕ
  deriving DecidableEq

namespace Instance

/-- `saved_response->timeout_id`, or zero if no response was saved yet. -/
def savedTimeoutId (inst : Instance) : ℕ :=
  (inst.savedResponse.map (·.timeoutId)).getD 0

/-- `has_saved_response`. -/
def hasSavedResponse (inst : Instance) : Bool :=
  inst.savedTimeoutId > 0

/-- The identifiers of the timeouts stored in the association. -/
def timeoutId (inst : Instance) : Handler → ℕ
  | .transmitTimeout => inst.txTimeoutId
  | .receiveTimeout => inst.rxTimeoutId
  | .savedResponseTimeout => inst.savedTimeoutId
  | .other => 0

/-- The saved response is not waiting any more. -/
def clearSavedTimeout (inst : Instance) : Instance :=
  { inst with savedResponse := inst.savedResponse.map ({ · with timeoutId := 0 }) }

end Instance

/-- A change of the clock which is made by a function of another module. -/
structure Slew where
  cooked : Timespec
  dfreq : ℚ
  doffset : ℚ
  step : Bool

/-- What `transmit_packet` leaves in the association, when it does not fail before the
packet is passed to the kernel. -/
structure Transmission where
  localTx : Timespec
  receiveTs : BitVec 64
  transmitTs : BitVec 64
  sent : Bool

/-- The answers of other modules to one question. -/
structure Answers where
  /-- `SRC_IsReachable`. -/
  reachable : Bool
  /-- `SRC_IsSyncPeer`. -/
  syncPeer : Bool
  /-- `REF_GetOurStratum`. -/
  ourStratum : ℤ
  /-- `SCH_GetLastEventTime`. -/
  eventTime : Timespec
  /-- The raw time and the random number read by the scheduler. -/
  rawTime : ℚ
  random : ℕ
  /-- `NIO_IsServerConnectable`. -/
  connectable : Bool
  /-- `NIO_OpenClientSocket` and `NIO_OpenServerSocket`. -/
  sockFd : ℤ
  /-- `NAU_PrepareRequestAuth`, with the new address found by NTS-KE. -/
  prepareAuth : Bool
  ntsAddress : Option RemoteAddress
  /-- `NAU_CheckResponseAuth`. -/
  checkAuth : Bool
  /-- `NIO_IsHwTsEnabled`. -/
  hwTsEnabled : Bool
  /-- `CNF_GetHwTsTimeout`. -/
  hwTsTimeout : ℚ
  /-- `transmit_packet`, or none if the packet cannot be formed. -/
  transmission : Option Transmission
  /-- The tests of the measurement, where the first one is without `presend_done`. -/
  testA : Bool
  testB : Bool
  testC : Bool
  testD : Bool
  /-- `SPF_GetFilteredSample`. -/
  filteredSample : Bool
  /-- `get_poll_adj`. -/
  pollAdj : ℚ
  /-- The measured delay is not longer than `MAX_LAN_PEER_DELAY`. -/
  lanDelay : Bool
  /-- The changes of the clock made when the source is updated. -/
  slews : List Slew
  deriving Inhabited

/-- What the history of an association records. -/
inductive Action
  /-- `transmit_packet` is executed. -/
  | transmitted
  /-- `process_response` ends with `valid_packet` set. -/
  | accepted
  deriving DecidableEq, Repr

/-- The state in which the functions run, with the answers they will get. -/
structure State where
  sched : Sched.State Handler Arg
  inst : Instance
  history : List Action
  answers : ℕ → Answers
  asked : ℕ

/-- The ways a function ends without returning. -/
inductive Abort
  | sched (e : Sched.Abort)
  /-- `assert(!inst->tx_timeout_id)` in `restart_timeout`. -/
  | restartTimeout
  /-- `assert(0)` for `MD_OFFLINE` in `get_transmit_delay`. -/
  | transmitDelay
  /-- `assert(inst->tx_timeout_id)` in `process_response`. -/
  | responseTimeout
  /-- The assertion of `get_separation`. -/
  | separation
  /-- `assert(inst->local_addr.sock_fd == INVALID_SOCK_FD)` in `transmit_timeout`. -/
  | clientSocket
  /-- `saved_response` is `NULL` where it is used. -/
  | savedResponse
  /-- A timeout is dispatched with an association which was freed. -/
  | freedInstance
  deriving DecidableEq, Repr

/-- The programs in which the functions are written. -/
abbrev M := Program Abort State

/-- The association. -/
def getInst : M Instance := do
  pure (← get).inst

/-- Assignments to fields of the association. -/
def modifyInst (f : Instance → Instance) : M Unit :=
  modify fun s => { s with inst := f s.inst }

/-- A question to other modules. -/
def ask : M Answers := fun s =>
  .ok (s.answers s.asked, { s with asked := s.asked + 1 })

/-- An entry of the history. -/
def record (action : Action) : M Unit :=
  modify fun s => { s with history := s.history ++ [action] }

/-! ### Timeouts -/

/-- `SCH_RemoveTimeout`. -/
def removeTimeout (id : ℕ) : M Unit := fun s =>
  match Sched.removeTimeout s.sched id with
  | .ok sched => .ok ((), { s with sched })
  | .error e => .error (.sched e)

/-- A new timeout of the association, with its identifier. -/
def addTimeout (add : Sched.State Handler Arg →
    Except Sched.Abort (Sched.State Handler Arg × Sched.TimerQueueEntry Handler Arg)) : M ℕ :=
  fun s =>
    match add s.sched with
    | .ok (sched, e) => .ok (e.id, { s with sched })
    | .error e => .error (.sched e)

/-- `SCH_AddTimeoutInClass`, with the association as the argument. -/
def addTimeoutInClass (minDelay separation randomness : ℚ) (cls : Sched.TimeoutClass)
    (handler : Handler) : M ℕ := do
  let a ← ask
  addTimeout fun sched =>
    Sched.addTimeoutInClass sched a.rawTime a.random minDelay separation randomness cls handler
      .inst

/-- `SCH_AddTimeoutByDelay`, with the association as the argument. -/
def addTimeoutByDelay (delay : ℚ) (handler : Handler) : M ℕ := do
  let a ← ask
  addTimeout fun sched => Sched.addTimeoutByDelay sched a.rawTime delay handler .inst

/-! ### Slews -/

/-- The part of `NCR_SlewTimes` for one timestamp. -/
def slewTimestamp (slew : Slew) (timestamp : LocalTimestamp) : LocalTimestamp :=
  if timestamp.ts = .zero then timestamp
  else { timestamp with ts := timestamp.ts.adjust slew.cooked slew.dfreq slew.doffset }

/-- `NCR_SlewTimes`. The timestamp of a saved response is adjusted even if it is zero. -/
def slewTimes (slew : Slew) (inst : Instance) : Instance :=
  { inst with
    localRx := slewTimestamp slew inst.localRx
    localTx := slewTimestamp slew inst.localTx
    prevLocalTx := slewTimestamp slew inst.prevLocalTx
    initLocalRx := slewTimestamp slew inst.initLocalRx
    savedResponse :=
      if inst.hasSavedResponse then
        inst.savedResponse.map fun saved =>
          { saved with
            rxTs := { saved.rxTs with
              ts := saved.rxTs.ts.adjust slew.cooked slew.dfreq slew.doffset } }
      else inst.savedResponse }

/-- A change of the clock, as the scheduler and the association are told about it. -/
def State.slew (s : State) (slew : Slew) : State :=
  { s with
    sched := Sched.handleSlew s.sched (slew.cooked.toNsec / Chrony.nsecPerSec) slew.dfreq
      slew.doffset (if slew.step then .step else .adjust)
    inst := slewTimes slew s.inst }

/-- A call of a function of `sources.c` which can select a source, update the reference
and so correct the clock. -/
def updateSource : M Unit := do
  let a ← ask
  modify fun s => a.slews.foldl State.slew s

end Chrony.NtpCore
