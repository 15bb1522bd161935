import Chrony.AddrFilt.Tree
import Chrony.Candm.Packet
import Chrony.ClientLog.Records
import Chrony.NtpCore.Instance

/-!
# Handlers of the Commands

The handlers of the requests in `cmdmon.c`. The table of the hosts which can send commands and the
client log are those of the other modules of this project. What the handlers call in the other
parts of `chronyd` are the functions of a `Backend`, and the data of a report is what they return.

A handler which only makes a report is a function of the state. A function in a `Backend` returns a
new state only if it changes something. Two functions which make a report do: the local reference
is updated by `REF_GetTrackingReport`, and the key which was looked up last is remembered by
`NSR_GetAuthReport`.

## Main results

* `clientAccesses`: the part of the list of clients which fits in one reply.
-/

namespace Chrony.Candm

open Lib.Bytes ClientLog

/-! ### Replies -/

/-- The status codes. -/
inductive Status
  | success | failed | unauth | invalid | noSuchSource | invalidTs | notEnabled | badSubnet
  | accessAllowed | accessDenied | noHostAccess | sourceAlreadyKnown | tooManySources | noRtc
  | badRtcFile | inactive | badSample | invalidAf | badPktVersion | badPktLength | invalidName
  deriving DecidableEq, Repr

/-- `RPT_ClientAccessByIndex_Report`. -/
structure ClientAccess where
  ipAddr : IPAddr
  hits : Service → BitVec 32
  drops : Service → BitVec 16
  interval : Service → ℤ
  ntpTimeoutInterval : ℤ
  lastHitAgo : Service → BitVec 32

/-- The data of a reply. A report of another module has the type `ρ`. -/
inductive ReplyData (ρ : Type)
  | none
  | nSources (n : ℤ)
  | report (report : ρ)
  | manualTimestamp (offset dfreqPpm newAfreqPpm : BitVec 32)
  | clientAccessesByIndex (nIndices nextIndex : ℕ) (clients : List ClientAccess)
  | manualList (samples : List ρ)
  | ntpSourceName (name : List Byte)

/-- The fields of a reply which are set by a handler. -/
structure Reply (ρ : Type) where
  reply : ReplyCode
  status : Status
  data : ReplyData ρ

/-- The reply before a request is handled. -/
def Reply.null {ρ : Type} : Reply ρ := ⟨.null, .success, .none⟩

/-- A reply with a status. -/
def Reply.ofStatus {ρ : Type} (status : Status) : Reply ρ := ⟨.null, status, .none⟩

/-- A reply with a report. -/
def Reply.report {ρ : Type} (code : ReplyCode) (report : ρ) : Reply ρ :=
  ⟨code, .success, .report report⟩

/-- A reply to a request which was done or failed. -/
def Reply.ofResult {ρ : Type} (failure : Status) (done : Bool) : Reply ρ :=
  if done then .null else .ofStatus failure

/-! ### The other modules -/

/-- `SourceParameters`. -/
structure SourceParameters where
  minpoll : ℤ
  maxpoll : ℤ
  connectivity : NtpCore.Connectivity
  autoOffline : Bool
  presendMinpoll : ℤ
  burst : Bool
  iburst : Bool
  minStratum : ℤ
  pollTarget : ℤ
  version : ℤ
  maxSources : ℤ
  minSamples : ℤ
  maxSamples : ℤ
  maxUnreach : ℤ
  filterLength : ℤ
  interleaved : Bool
  selOptions : BitVec 32
  nts : Bool
  ntsPort : ℤ
  copy : Bool
  extFields : BitVec 32
  authkey : BitVec 32
  certSet : BitVec 32
  maxDelay : ℚ
  maxDelayRatio : ℚ
  maxDelayDevRatio : ℚ
  maxDelayQuant : ℚ
  minDelay : ℚ
  asymmetry : ℚ
  offset : ℚ

/-- `NTP_Source_Type`. -/
inductive NtpSourceType
  | server
  | peer
  deriving DecidableEq, Repr

/-- What `NSR_AddSourceByName` returns. -/
inductive AddStatus
  | success
  | unresolvedName
  | alreadyInUse
  | tooManySources
  | invalidName
  | invalidAf
  deriving DecidableEq, Repr, Inhabited

/-- `SRC_Type`. -/
inductive SourceType
  | ntp
  | refclock
  deriving DecidableEq, Repr

/-- What `RTC_WriteParameters` returns. -/
inductive RtcStatus
  | ok
  | nodrv
  | badfile
  deriving DecidableEq, Repr, Inhabited

/-- **The functions of the other modules** at the time when a message is handled. The state of
these modules has the type `δ`. -/
structure Backend (δ ρ : Type) where
  schGetLastEventTime : δ → Timespec × Timespec
  schQuitProgram : δ → δ
  srcDumpSources : δ → δ
  nsrDumpAuthData : δ → δ
  nksDumpKeys : δ → δ
  nsrSetConnectivity : IPAddr → IPAddr → NtpCore.Connectivity → δ → Bool × δ
  nsrInitiateSampleBurst : ℤ → ℤ → IPAddr → IPAddr → δ → Bool × δ
  nsrModifyMinpoll : IPAddr → ℤ → δ → Bool × δ
  nsrModifyMaxpoll : IPAddr → ℤ → δ → Bool × δ
  nsrModifyMaxdelay : IPAddr → ℚ → δ → Bool × δ
  nsrModifyMaxdelayratio : IPAddr → ℚ → δ → Bool × δ
  nsrModifyMaxdelaydevratio : IPAddr → ℚ → δ → Bool × δ
  nsrModifyMinstratum : IPAddr → ℤ → δ → Bool × δ
  nsrModifyPolltarget : IPAddr → ℤ → δ → Bool × δ
  nsrModifyOffset : IPAddr → ℚ → δ → Bool × δ
  rclModifyOffset : BitVec 32 → ℚ → δ → Bool × δ
  refModifyMaxupdateskew : ℚ → δ → δ
  refModifyMakestep : ℤ → ℚ → δ → δ
  mnlIsEnabled : δ → Bool
  mnlAcceptTimestamp : Timespec → δ → Option (ℚ × ℚ × ℚ) × δ
  mnlDisable : δ → δ
  mnlEnable : δ → δ
  mnlReset : δ → δ
  mnlDeleteSample : ℤ → δ → Bool × δ
  mnlReportSamples : ℕ → δ → List ρ
  refEnableLocal : ℤ → ℚ → ℤ → ℚ → ℚ → ℚ → δ → δ
  refDisableLocal : δ → δ
  refGetTrackingReport : δ → ρ × δ
  srcReadNumberOfSources : δ → ℤ
  srcReportSource : ℤ → Timespec → δ → Option (IPAddr × ρ)
  srcGetType : ℤ → δ → Option SourceType
  nsrReportSource : IPAddr → ρ → δ → Option ρ
  rclReportSource : BitVec 32 → ρ → δ → Option ρ
  keyReload : δ → δ
  nksReloadKeys : δ → δ
  ncrAddAccessRestriction : IPAddr → ℤ → Bool → Bool → δ → Bool × δ
  ncrCheckAccessRestriction : IPAddr → δ → Bool
  nsrAddSourceByName :
    List Byte → Family → ℤ → Bool → NtpSourceType → SourceParameters → δ → AddStatus × δ
  nsrResolveSources : δ → δ
  nsrRemoveSource : IPAddr → δ → Bool × δ
  nsrRefreshAddresses : δ → δ
  rtcWriteParameters : δ → RtcStatus × δ
  rtcTrim : δ → Bool × δ
  rtcGetReport : δ → Option ρ
  lclAccumulateDeltaFrequency : ℚ → δ → δ
  lclAccumulateOffset : ℚ → ℚ → δ → Bool × δ
  lclMakeStep : δ → Bool × δ
  lclNotifyExternalTimeStep : Timespec → Timespec → ℚ → ℚ → δ → δ
  smtIsEnabled : δ → Bool
  smtReset : Timespec → δ → δ
  smtActivate : Timespec → δ → δ
  smtGetSmoothingReport : Timespec → δ → Option ρ
  srcReportSourcestats : ℤ → Timespec → δ → Option ρ
  srcSetReselectDistance : ℚ → δ → δ
  srcReselectSource : δ → δ
  srcResetSources : δ → δ
  srcModifySelectOptions : IPAddr → BitVec 32 → BitVec 32 → BitVec 32 → δ → Bool × δ
  srcGetSelectReport : ℤ → δ → Option ρ
  logCycleLogFiles : δ → δ
  nsrGetActivityReport : δ → ρ
  clgGetServerStatsReport : Log → δ → ρ
  nsrGetNtpReport : IPAddr → δ → Option ρ
  nsrGetName : IPAddr → δ → Option (List Byte)
  nsrGetAuthReport : IPAddr → δ → Option ρ × δ
  cnfReloadSources : δ → δ
  cnfGetOpenCommands : δ → List ℤ

instance : Inhabited (Backend Unit Unit) := ⟨by constructor <;> intros <;> exact default⟩

variable {δ ρ : Type} (B : Backend δ ρ) (rx : Memory)

/-! ### Read-write commands -/

/-- `handle_dump`. -/
def handleDump (d : δ) : Reply ρ × δ :=
  (.null, B.nksDumpKeys (B.nsrDumpAuthData (B.srcDumpSources d)))

/-- A command which ends with a function that can fail. -/
def withResult (failure : Status) (r : Bool × δ) : Reply ρ × δ := (.ofResult failure r.1, r.2)

/-- `handle_online`. -/
def handleOnline (d : δ) : Reply ρ × δ :=
  withResult .noSuchSource
    (B.nsrSetConnectivity (rx.ip reqOnline 0) (rx.ip reqOnline 1) .online d)

/-- `handle_offline`. -/
def handleOffline (d : δ) : Reply ρ × δ :=
  withResult .noSuchSource
    (B.nsrSetConnectivity (rx.ip reqOnline 0) (rx.ip reqOnline 1) .offline d)

/-- `handle_onoffline`. The result is ignored. -/
def handleOnoffline (d : δ) : Reply ρ × δ :=
  (.null, (B.nsrSetConnectivity .unspec .unspec .maybeOnline d).2)

/-- `handle_burst`. -/
def handleBurst (d : δ) : Reply ρ × δ :=
  withResult .noSuchSource
    (B.nsrInitiateSampleBurst (rx.int reqBurst 2) (rx.int reqBurst 3) (rx.ip reqBurst 0)
      (rx.ip reqBurst 1) d)

/-- The handlers which set an integer for an address. -/
def modifyInt (f : IPAddr → ℤ → δ → Bool × δ) (d : δ) : Reply ρ × δ :=
  withResult .noSuchSource (f (rx.ip reqModify 0) (rx.int reqModify 1) d)

/-- The handlers which set a floating-point number for an address. -/
def modifyFloat (f : IPAddr → ℚ → δ → Bool × δ) (d : δ) : Reply ρ × δ :=
  withResult .noSuchSource (f (rx.ip reqModify 0) (rx.float reqModify 1) d)

/-- `handle_modify_minpoll`. -/
def handleModifyMinpoll : δ → Reply ρ × δ := modifyInt rx B.nsrModifyMinpoll

/-- `handle_modify_maxpoll`. -/
def handleModifyMaxpoll : δ → Reply ρ × δ := modifyInt rx B.nsrModifyMaxpoll

/-- `handle_modify_maxdelay`. -/
def handleModifyMaxdelay : δ → Reply ρ × δ := modifyFloat rx B.nsrModifyMaxdelay

/-- `handle_modify_maxdelayratio`. -/
def handleModifyMaxdelayratio : δ → Reply ρ × δ := modifyFloat rx B.nsrModifyMaxdelayratio

/-- `handle_modify_maxdelaydevratio`. -/
def handleModifyMaxdelaydevratio : δ → Reply ρ × δ := modifyFloat rx B.nsrModifyMaxdelaydevratio

/-- `handle_modify_minstratum`. -/
def handleModifyMinstratum : δ → Reply ρ × δ := modifyInt rx B.nsrModifyMinstratum

/-- `handle_modify_polltarget`. -/
def handleModifyPolltarget : δ → Reply ρ × δ := modifyInt rx B.nsrModifyPolltarget

/-- `handle_modify_maxupdateskew`. -/
def handleModifyMaxupdateskew (d : δ) : Reply ρ × δ :=
  (.null, B.refModifyMaxupdateskew (rx.float reqFloat 0) d)

/-- `handle_modify_makestep`. -/
def handleModifyMakestep (d : δ) : Reply ρ × δ :=
  (.null, B.refModifyMakestep (rx.int reqModifyMakestep 0) (rx.float reqModifyMakestep 1) d)

/-- `handle_settime`. -/
def handleSettime (d : δ) : Reply ρ × δ :=
  if !B.mnlIsEnabled d then (.ofStatus .notEnabled, d)
  else
    match B.mnlAcceptTimestamp (rx.timespecNetworkToHost (Memory.field reqSettime 0)) d with
    | (some (offset, dfreqPpm, newAfreqPpm), d) =>
        (⟨.manualTimestamp2, .success, .manualTimestamp (NetworkFloat.ofHost offset)
          (NetworkFloat.ofHost dfreqPpm) (NetworkFloat.ofHost newAfreqPpm)⟩, d)
    | (none, d) => (.ofStatus .failed, d)

/-- `handle_local`. -/
def handleLocal (d : δ) : Reply ρ × δ :=
  if rx.uint reqLocal 0 ≠ 0 then
    (.null, B.refEnableLocal (rx.int reqLocal 1) (rx.float reqLocal 2) (rx.int reqLocal 3)
      (rx.float reqLocal 4) (rx.float reqLocal 5) (rx.float reqLocal 6) d)
  else (.null, B.refDisableLocal d)

/-- `handle_manual`. -/
def handleManual (d : δ) : Reply ρ × δ :=
  let option := rx.int reqValue 0
  if option = 0 then (.null, B.mnlDisable d)
  else if option = 1 then (.null, B.mnlEnable d)
  else if option = 2 then (.null, B.mnlReset d)
  else (.ofStatus .invalid, d)

/-- `handle_rekey`. -/
def handleRekey (d : δ) : Reply ρ × δ := (.null, B.nksReloadKeys (B.keyReload d))

/-- `handle_allowdeny`. -/
def handleAllowdeny (allow all : Bool) (d : δ) : Reply ρ × δ :=
  withResult .badSubnet
    (B.ncrAddAccessRestriction (rx.ip reqModify 0) (rx.int reqModify 1) allow all d)

/-- `CAM_AddAccessRestriction`. -/
def addAccessRestriction (ipAddr : IPAddr) (subnetBits : ℤ) (allow all : Bool)
    (table : AddrFilt.AuthTable) : Bool × AddrFilt.AuthTable :=
  let r :=
    if allow then
      if all then AddrFilt.allowAll table ipAddr subnetBits
      else AddrFilt.allow table ipAddr subnetBits
    else
      if all then AddrFilt.denyAll table ipAddr subnetBits
      else AddrFilt.deny table ipAddr subnetBits
  (r.1 = .success, r.2)

/-- `handle_cmdallowdeny`. -/
def handleCmdallowdeny (allow all : Bool) (table : AddrFilt.AuthTable) :
    Reply ρ × AddrFilt.AuthTable :=
  withResult .badSubnet
    (addAccessRestriction (rx.ip reqModify 0) (rx.int reqModify 1) allow all table)

/-- `convert_addsrc_select_options`. -/
def convertAddsrcSelectOptions (flags : BitVec 32) : BitVec 32 :=
  (if flags &&& 0x8 ≠ 0 then 0x2 else 0) ||| (if flags &&& 0x10 ≠ 0 then 0x1 else 0) |||
    (if flags &&& 0x20 ≠ 0 then 0x4 else 0) ||| (if flags &&& 0x40 ≠ 0 then 0x8 else 0)

/-- The parameters in the request of `handle_add_source`. -/
def addSourceParameters : SourceParameters :=
  let flags := rx.uint reqNtpSource 20
  { minpoll := rx.int reqNtpSource 3
    maxpoll := rx.int reqNtpSource 4
    presendMinpoll := rx.int reqNtpSource 5
    minStratum := rx.int reqNtpSource 6
    pollTarget := rx.int reqNtpSource 7
    version := rx.int reqNtpSource 8
    maxSources := rx.int reqNtpSource 9
    minSamples := rx.int reqNtpSource 10
    maxSamples := rx.int reqNtpSource 11
    maxUnreach := rx.int reqNtpSource 24
    filterLength := rx.int reqNtpSource 21
    authkey := rx.uint reqNtpSource 12
    ntsPort := rx.int reqNtpSource 13
    certSet := rx.uint reqNtpSource 22
    maxDelay := rx.float reqNtpSource 14
    maxDelayRatio := rx.float reqNtpSource 15
    maxDelayDevRatio := rx.float reqNtpSource 16
    maxDelayQuant := rx.float reqNtpSource 23
    minDelay := rx.float reqNtpSource 17
    asymmetry := rx.float reqNtpSource 18
    offset := rx.float reqNtpSource 19
    connectivity := if flags &&& 0x1 ≠ 0 then .online else .offline
    autoOffline := flags &&& 0x2 ≠ 0
    iburst := flags &&& 0x4 ≠ 0
    interleaved := flags &&& 0x80 ≠ 0
    burst := flags &&& 0x100 ≠ 0
    nts := flags &&& 0x200 ≠ 0
    copy := flags &&& 0x400 ≠ 0
    extFields := (if flags &&& 0x800 ≠ 0 then 0x2 else 0) |||
      (if flags &&& 0x1000 ≠ 0 then 0x1 else 0)
    selOptions := convertAddsrcSelectOptions flags }

/-- The source types of `handle_add_source`, and whether it is a pool. -/
def addSourceType (type : BitVec 32) : Option (NtpSourceType × Bool) :=
  if type = 1 then some (.server, false)
  else if type = 2 then some (.peer, false)
  else if type = 3 then some (.server, true)
  else none

/-- The bytes of the name in the request. -/
def addSourceName : List Byte :=
  (List.range 256).map fun i => rx (Memory.field reqNtpSource 1 + i)

/-- The reply of `handle_add_source` to the status of the new source. -/
def addSourceReply : AddStatus → Reply ρ
  | .success => .null
  | .unresolvedName => .null
  | .alreadyInUse => .ofStatus .sourceAlreadyKnown
  | .tooManySources => .ofStatus .tooManySources
  | .invalidName => .ofStatus .invalidName
  | .invalidAf => .ofStatus .invalidAf

/-- `handle_add_source`. -/
def handleAddSource (d : δ) : Reply ρ × δ :=
  match addSourceType (rx.uint reqNtpSource 0) with
  | none => (.ofStatus .invalid, d)
  | some (type, pool) =>
      if (addSourceName rx).getLast? ≠ some 0 then (.ofStatus .invalidName, d)
      else
        let flags := rx.uint reqNtpSource 20
        let family := if flags &&& 0x2000 ≠ 0 then .inet4
          else if flags &&& 0x4000 ≠ 0 then .inet6 else .unspec
        let r := B.nsrAddSourceByName ((addSourceName rx).takeWhile (· ≠ 0)) family
          (rx.int reqNtpSource 2) pool type (addSourceParameters rx) d
        (addSourceReply r.1, if r.1 = .unresolvedName then B.nsrResolveSources r.2 else r.2)

/-- `handle_del_source`. -/
def handleDelSource (d : δ) : Reply ρ × δ :=
  withResult .noSuchSource (B.nsrRemoveSource (rx.ip reqAddress 0) d)

/-- `handle_writertc`. -/
def handleWritertc (d : δ) : Reply ρ × δ :=
  let r := B.rtcWriteParameters d
  match r.1 with
  | .ok => (.null, r.2)
  | .nodrv => (.ofStatus .noRtc, r.2)
  | .badfile => (.ofStatus .badRtcFile, r.2)

/-- `handle_dfreq`. -/
def handleDfreq (d : δ) : Reply ρ × δ :=
  (.null, B.lclAccumulateDeltaFrequency (rx.float reqFloat 0 * (1 / 1000000)) d)

/-- `handle_doffset`. -/
def handleDoffset (d : δ) : Reply ρ × δ :=
  withResult .failed (B.lclAccumulateOffset (rx.float reqFloat 0) 0 d)

/-- `handle_smoothtime`. -/
def handleSmoothtime (d : δ) : Reply ρ × δ :=
  if !B.smtIsEnabled d then (.ofStatus .notEnabled, d)
  else
    let option := rx.int reqValue 0
    let now := (B.schGetLastEventTime d).1
    if option = 0 then (.null, B.smtReset now d)
    else if option = 1 then (.null, B.smtActivate now d)
    else (.ofStatus .invalid, d)

/-- `handle_trimrtc`. -/
def handleTrimrtc (d : δ) : Reply ρ × δ := withResult .noRtc (B.rtcTrim d)

/-- `handle_cyclelogs`. -/
def handleCyclelogs (d : δ) : Reply ρ × δ := (.null, B.logCycleLogFiles d)

/-- `handle_manual_delete`. -/
def handleManualDelete (d : δ) : Reply ρ × δ :=
  withResult .badSample (B.mnlDeleteSample (rx.int reqValue 0) d)

/-- `handle_make_step`. -/
def handleMakeStep (d : δ) : Reply ρ × δ := withResult .failed (B.lclMakeStep d)

/-- `handle_reselect_distance`. -/
def handleReselectDistance (d : δ) : Reply ρ × δ :=
  (.null, B.srcSetReselectDistance (rx.float reqFloat 0) d)

/-- `handle_reselect`. -/
def handleReselect (d : δ) : Reply ρ × δ := (.null, B.srcReselectSource d)

/-- `handle_refresh`. -/
def handleRefresh (d : δ) : Reply ρ × δ := (.null, B.nsrRefreshAddresses d)

/-- `handle_shutdown`. -/
def handleShutdown (d : δ) : Reply ρ × δ := (.null, B.schQuitProgram d)

/-- `handle_reload_sources`. -/
def handleReloadSources (d : δ) : Reply ρ × δ := (.null, B.cnfReloadSources d)

/-- `handle_reset_sources`. -/
def handleResetSources (d : δ) : Reply ρ × δ :=
  let d := B.srcResetSources d
  let t := B.schGetLastEventTime d
  (.null, B.lclNotifyExternalTimeStep t.2 t.1 0 0 d)

/-- `handle_modify_selectopts`. -/
def handleModifySelectopts (d : δ) : Reply ρ × δ :=
  withResult .noSuchSource
    (B.srcModifySelectOptions (rx.ip reqModifySelectOpts 0) (rx.uint reqModifySelectOpts 1)
      (convertAddsrcSelectOptions (rx.uint reqModifySelectOpts 3))
      (rx.uint reqModifySelectOpts 2) d)

/-- `handle_modify_offset`. -/
def handleModifyOffset (d : δ) : Reply ρ × δ :=
  let ipAddr := rx.ip reqModifyOffset 0
  let offset := rx.float reqModifyOffset 2
  withResult .noSuchSource
    (if ipAddr.family ≠ .unspec then B.nsrModifyOffset ipAddr offset d
    else B.rclModifyOffset (rx.uint reqModifyOffset 1) offset d)

/-! ### Read-only commands -/

/-- A reply with an optional report. -/
def Reply.ofOption (code : ReplyCode) (failure : Status) : Option ρ → Reply ρ
  | some report => .report code report
  | none => .ofStatus failure

/-- The reply to a question about the access of a host. -/
def Reply.ofAccess (allowed : Bool) : Reply ρ :=
  .ofStatus (if allowed then .accessAllowed else .accessDenied)

/-- `handle_n_sources`. -/
def handleNSources (d : δ) : Reply ρ :=
  ⟨.nSources, .success, .nSources (B.srcReadNumberOfSources d)⟩

/-- `handle_source_data`. A source which is found in `sources.c` only has an empty reply. -/
def handleSourceData (d : δ) : Reply ρ :=
  let index := rx.int reqValue 0
  match B.srcReportSource index (B.schGetLastEventTime d).1 d with
  | none => .ofStatus .noSuchSource
  | some (ipAddr, report) =>
      let report :=
        match B.srcGetType index d with
        | some .ntp => B.nsrReportSource ipAddr report d
        | some .refclock =>
            match ipAddr with
            | .inet4 in4 => B.rclReportSource in4 report d
            | _ => none
        | none => none
      match report with
      | some report => .report .sourceData report
      | none => .null

/-- `handle_accheck`. -/
def handleAccheck (d : δ) : Reply ρ :=
  .ofAccess (B.ncrCheckAccessRestriction (rx.ip reqAddress 0) d)

/-- `handle_cmdaccheck`, with `CAM_CheckAccessRestriction`. -/
def handleCmdaccheck (table : AddrFilt.AuthTable) : Reply ρ :=
  .ofAccess (AddrFilt.isAllowed table (rx.ip reqAddress 0))

/-- `handle_tracking`. -/
def handleTracking (d : δ) : Reply ρ × δ :=
  let r := B.refGetTrackingReport d
  (.report .tracking r.1, r.2)

/-- `handle_smoothing`. -/
def handleSmoothing (d : δ) : Reply ρ :=
  .ofOption .smoothing .notEnabled (B.smtGetSmoothingReport (B.schGetLastEventTime d).1 d)

/-- `handle_sourcestats`. -/
def handleSourcestats (d : δ) : Reply ρ :=
  .ofOption .sourcestats .noSuchSource
    (B.srcReportSourcestats (rx.int reqValue 0) (B.schGetLastEventTime d).1 d)

/-- `handle_rtcreport`. -/
def handleRtcreport (d : δ) : Reply ρ := .ofOption .rtc .noRtc (B.rtcGetReport d)

/-- `handle_manual_list`. -/
def handleManualList (d : δ) : Reply ρ :=
  ⟨.manualList2, .success, .manualList (B.mnlReportSamples maxManualListSamples d)⟩

/-- `handle_activity`. -/
def handleActivity (d : δ) : Reply ρ := .report .activity (B.nsrGetActivityReport d)

/-- `handle_server_stats`. -/
def handleServerStats (log : Log) (d : δ) : Reply ρ :=
  .report .serverStats4 (B.clgGetServerStatsReport log d)

/-- `handle_ntp_data`. -/
def handleNtpData (d : δ) : Reply ρ :=
  .ofOption .ntpData2 .noSuchSource (B.nsrGetNtpReport (rx.ip reqAddress 0) d)

/-- `handle_ntp_source_name`. The name is cut or padded with zeros. -/
def handleNtpSourceName (d : δ) : Reply ρ :=
  match B.nsrGetName (rx.ip reqAddress 0) d with
  | none => .ofStatus .noSuchSource
  | some name =>
      ⟨.ntpSourceName, .success, .ntpSourceName ((name ++ List.replicate 256 0).take 256)⟩

/-- `handle_auth_data`. -/
def handleAuthData (d : δ) : Reply ρ × δ :=
  let r := B.nsrGetAuthReport (rx.ip reqAddress 0) d
  (.ofOption .authData .noSuchSource r.1, r.2)

/-- `handle_select_data`. -/
def handleSelectData (d : δ) : Reply ρ :=
  .ofOption .selectData .noSuchSource (B.srcGetSelectReport (rx.int reqValue 0) d)

/-! ### The list of clients -/

/-- `get_interval`. -/
def getInterval (rate : ℤ) : ℤ :=
  if rate = invalidRate then 127
  else (if rate > 0 then rate + rateScale / 2 else rate - rateScale / 2).tdiv (-rateScale)

/-- `get_last_ago`. -/
def getLastAgo (x y : BitVec 32) : BitVec 32 :=
  if y = invalidTs ∨ (x - y).toInt < 0 then -1 else (x - y) >>> tsFrac

/-- The report of a record. -/
def clientAccess (nowTs : BitVec 32) (record : Record) : ClientAccess where
  ipAddr := record.ipAddr
  hits := record.hits
  drops := record.drops
  interval := fun service => getInterval (record.rate service)
  ntpTimeoutInterval := getInterval record.ntpTimeoutRate
  lastHitAgo := fun service => getLastAgo nowTs (record.lastHit service)

/-- A record with enough hits. -/
def hasMinHits (minHits : BitVec 32) (record : Record) : Bool :=
  minHits = 0 ∨ Service.all.any fun service => record.hits service ≥ minHits

/-- `CLG_GetClientAccessReportByIndex`. -/
def getClientAccessReportByIndex (log : Log) (index : ℕ) (reset : Bool) (minHits : BitVec 32)
    (now : Timespec) : Option ClientAccess × Log :=
  let record := log.records index
  if !log.active ∨ index ≥ log.slots * slotSize ∨ record.ipAddr = .unspec then (none, log)
  else
    (if hasMinHits minHits record then
      some (clientAccess (getTsFromTimespec log.tsOffset now) record) else none,
      if reset then resetRecord log index else log)

/-- `CLG_GetNumberOfIndices`. -/
def getNumberOfIndices (log : Log) : Option ℕ :=
  if log.active then some (log.slots * slotSize) else none

/-- The loop of `handle_client_accesses_by_index` from an index on. It returns the next index. -/
def clientAccesses (reset : Bool) (minHits : BitVec 32) (now : Timespec) (nIndices : ℕ) (i n : ℕ)
    (log : Log) : ℕ × List ClientAccess × Log :=
  if i < nIndices ∧ 0 < n then
    match getClientAccessReportByIndex log i reset minHits now with
    | (none, log) => clientAccesses reset minHits now nIndices (i + 1) n log
    | (some client, log) =>
        let r := clientAccesses reset minHits now nIndices (i + 1) (n - 1) log
        (r.1, client :: r.2.1, r.2.2)
  else (i, [], log)
termination_by nIndices - i

/-- `handle_client_accesses_by_index`. -/
def handleClientAccessesByIndex (now : Timespec) (log : Log) : Reply ρ × Log :=
  let nClients := min (rx.uint reqClientAccessesByIndex 1).toNat maxClientAccesses
  match getNumberOfIndices log with
  | none => (.ofStatus .inactive, log)
  | some nIndices =>
      let r := clientAccesses (rx.uint reqClientAccessesByIndex 3 ≠ 0)
        (rx.uint reqClientAccessesByIndex 2) now nIndices
        (rx.uint reqClientAccessesByIndex 0).toNat nClients log
      (⟨.clientAccessesByIndex3, .success, .clientAccessesByIndex nIndices r.1 r.2.1⟩, r.2.2)

end Chrony.Candm
