import Chrony.Candm.Handlers
import Chrony.ClientLog.Eviction

/-!
# The Command Sockets

The dispatching of the requests and `read_from_cmd_socket` of `cmdmon.c`. A message is processed
with the functions of the other modules at that time and with the random decisions of the rate
limiting. What is behind the end of the message in the memory of the request is not known.

## Main results

* `sizeChecks`: what is asserted by `do_size_checks`.
* `readFromCmdSocket_answers`: every accepted request has a reply, which is not longer than the
  request.
* `readFromCmdSocket_memory`: nothing behind the end of the message is used.
-/

namespace Chrony.Candm

open Lib.Bytes ClientLog

/-- The state of `chronyd`, with the variables which the command sockets use themselves. -/
structure State (δ : Type) where
  accessAuthTable : AddrFilt.AuthTable
  clientLog : Log
  daemon : δ

variable {δ ρ : Type}

/-- A handler which changes the other modules. -/
def State.onDaemon (s : State δ) (f : δ → Reply ρ × δ) : Option (Reply ρ × State δ) :=
  some ((f s.daemon).1, { s with daemon := (f s.daemon).2 })

/-- A handler which changes the table of the allowed hosts. -/
def State.onTable (s : State δ) (f : AddrFilt.AuthTable → Reply ρ × AddrFilt.AuthTable) :
    Option (Reply ρ × State δ) :=
  some ((f s.accessAuthTable).1, { s with accessAuthTable := (f s.accessAuthTable).2 })

/-- A handler which changes the client log. -/
def State.onLog (s : State δ) (f : Log → Reply ρ × Log) : Option (Reply ρ × State δ) :=
  some ((f s.clientLog).1, { s with clientLog := (f s.clientLog).2 })

section

variable (B : Backend δ ρ) (rx : Memory) (s : State δ)

/-- `handle_readwrite_commands`. -/
def handleReadwriteCommands : Command → Option (Reply ρ × State δ)
  | .addSource => s.onDaemon (handleAddSource B rx)
  | .allow => s.onDaemon (handleAllowdeny B rx true false)
  | .allowall => s.onDaemon (handleAllowdeny B rx true true)
  | .burst => s.onDaemon (handleBurst B rx)
  | .cmdallow => s.onTable (handleCmdallowdeny rx true false)
  | .cmdallowall => s.onTable (handleCmdallowdeny rx true true)
  | .cmddeny => s.onTable (handleCmdallowdeny rx false false)
  | .cmddenyall => s.onTable (handleCmdallowdeny rx false true)
  | .cyclelogs => s.onDaemon (handleCyclelogs B)
  | .delSource => s.onDaemon (handleDelSource B rx)
  | .deny => s.onDaemon (handleAllowdeny B rx false false)
  | .denyall => s.onDaemon (handleAllowdeny B rx false true)
  | .dfreq => s.onDaemon (handleDfreq B rx)
  | .doffset2 => s.onDaemon (handleDoffset B rx)
  | .dump => s.onDaemon (handleDump B)
  | .local3 => s.onDaemon (handleLocal B rx)
  | .makestep => s.onDaemon (handleMakeStep B)
  | .manual => s.onDaemon (handleManual B rx)
  | .manualDelete => s.onDaemon (handleManualDelete B rx)
  | .modifyMakestep => s.onDaemon (handleModifyMakestep B rx)
  | .modifyMaxdelay => s.onDaemon (handleModifyMaxdelay B rx)
  | .modifyMaxdelaydevratio => s.onDaemon (handleModifyMaxdelaydevratio B rx)
  | .modifyMaxdelayratio => s.onDaemon (handleModifyMaxdelayratio B rx)
  | .modifyMaxpoll => s.onDaemon (handleModifyMaxpoll B rx)
  | .modifyMaxupdateskew => s.onDaemon (handleModifyMaxupdateskew B rx)
  | .modifyMinpoll => s.onDaemon (handleModifyMinpoll B rx)
  | .modifyMinstratum => s.onDaemon (handleModifyMinstratum B rx)
  | .modifyOffset => s.onDaemon (handleModifyOffset B rx)
  | .modifyPolltarget => s.onDaemon (handleModifyPolltarget B rx)
  | .modifySelectopts => s.onDaemon (handleModifySelectopts B rx)
  | .offline => s.onDaemon (handleOffline B rx)
  | .online => s.onDaemon (handleOnline B rx)
  | .onoffline => s.onDaemon (handleOnoffline B)
  | .refresh => s.onDaemon (handleRefresh B)
  | .rekey => s.onDaemon (handleRekey B)
  | .reloadSources => s.onDaemon (handleReloadSources B)
  | .reselect => s.onDaemon (handleReselect B)
  | .reselectdistance => s.onDaemon (handleReselectDistance B rx)
  | .resetSources => s.onDaemon (handleResetSources B)
  | .settime => s.onDaemon (handleSettime B rx)
  | .shutdown => s.onDaemon (handleShutdown B)
  | .smoothtime => s.onDaemon (handleSmoothtime B rx)
  | .trimrtc => s.onDaemon (handleTrimrtc B)
  | .writertc => s.onDaemon (handleWritertc B)
  | _ => none

/-- The requests of `handle_readonly_commands` which are allowed. -/
def isAllowed (fullAccess : Bool) (command : Command) : Bool :=
  fullAccess || (B.cnfGetOpenCommands s.daemon).contains (command.code : ℤ)

/-- The handlers of `handle_readonly_commands`. -/
def readonlyReply (now : Timespec) : Command → Option (Reply ρ × State δ)
  | .accheck => some (handleAccheck B rx s.daemon, s)
  | .activity => some (handleActivity B s.daemon, s)
  | .authData => s.onDaemon (handleAuthData B rx)
  | .clientAccessesByIndex3 => s.onLog (handleClientAccessesByIndex rx now)
  | .cmdaccheck => some (handleCmdaccheck rx s.accessAuthTable, s)
  | .manualList => some (handleManualList B s.daemon, s)
  | .ntpData => some (handleNtpData B rx s.daemon, s)
  | .ntpSourceName => some (handleNtpSourceName B rx s.daemon, s)
  | .nSources => some (handleNSources B s.daemon, s)
  | .rtcreport => some (handleRtcreport B s.daemon, s)
  | .selectData => some (handleSelectData B rx s.daemon, s)
  | .serverStats => some (handleServerStats B s.clientLog s.daemon, s)
  | .smoothing => some (handleSmoothing B s.daemon, s)
  | .sourcestats => some (handleSourcestats B rx s.daemon, s)
  | .sourceData => some (handleSourceData B rx s.daemon, s)
  | .tracking => s.onDaemon (handleTracking B)
  | _ => none

/-- `handle_readonly_commands`. -/
def handleReadonlyCommands (now : Timespec) (fullAccess : Bool) (command : Command) :
    Option (Reply ρ × State δ) :=
  if isAllowed B s fullAccess command then readonlyReply B rx s now command else none

/-- The handling of a valid request. -/
def handleCommand (now : Timespec) (fullAccess : Bool) (command : Command) :
    Reply ρ × State δ :=
  (((if fullAccess then handleReadwriteCommands B rx s command else none).or
    (handleReadonlyCommands B rx s now fullAccess command)).getD (.ofStatus .unauth, s))

end

/-! ### Messages -/

/-- The command sockets. -/
inductive Socket
  | sockFdu
  | sockFd4
  | sockFd6
  deriving DecidableEq, Repr

/-- The address of a message. -/
inductive Address
  | ip (ipAddr : IPAddr) (port : BitVec 16)
  | unix (path : List Byte)
  deriving DecidableEq

/-- A received message. -/
structure Message where
  sockFd : Socket
  remoteAddr : Address
  data : List Byte
  deriving DecidableEq

/-- The memory of the request after a message is copied there. -/
def rxMessage (data : List Byte) (memory : Memory) : Memory :=
  fun i => data.getD i (memory i)

/-- What is not determined by the message and the state: the functions of the other modules, the
time, the random decisions of the rate limiting and the memory before the message is copied. -/
structure Conditions (δ ρ : Type) where
  backend : Backend δ ρ
  leak : Bool
  kod : Bool
  memory : Memory

/-- The reply in a message. -/
structure ReplyMessage (ρ : Type) where
  version : ℕ
  pktType : ℕ
  res1 : ℕ
  res2 : ℕ
  command : ℕ
  sequence : BitVec 32
  reply : Reply ρ
  length : ℕ

/-- `PKT_TYPE_CMD_REQUEST`. -/
def pktTypeCmdRequest : ℕ := 1

/-- `PKT_TYPE_CMD_REPLY`. -/
def pktTypeCmdReply : ℕ := 2

/-- `PROTO_VERSION_MISMATCH_COMPAT_SERVER`. -/
def protoVersionMismatchCompatServer : ℕ := 5

/-- `SCK_GetLoopbackIPAddress`. An address of a message has one of the first two families. -/
def getLoopbackIPAddress : Family → IPAddr
  | .inet4 => .inet4 0x7f000001
  | .inet6 => .inet6 fun i => if i = 15 then 1 else 0
  | .id => .id 0
  | .unspec => .unspec

/-- Whether a message is from the same host. -/
def isLocalhost (ipAddr : IPAddr) : Bool :=
  ipAddr.compareIPs (getLoopbackIPAddress ipAddr.family) = 0

/-- The check of the socket and of the address. It gives the address for the client log, and
whether the message is from the same host and whether all commands are allowed. -/
def checkAddress (table : AddrFilt.AuthTable) (sockFd : Socket) (remoteAddr : Address) :
    Option (IPAddr × Bool × Bool) :=
  match remoteAddr with
  | .ip ipAddr _ =>
      if sockFd = .sockFd4 ∨ sockFd = .sockFd6 then
        if !isLocalhost ipAddr ∧ !AddrFilt.isAllowed table ipAddr then none
        else some (ipAddr, isLocalhost ipAddr, false)
      else none
  | .unix _ => if sockFd = .sockFdu then some (.unspec, true, true) else none

/-- The accounting of a message in the client log, and whether it is processed. -/
def limitAccess (seed : BitVec 32) (remoteIp : IPAddr) (localhost leak kod : Bool)
    (now : Timespec) (log : Log) : Except LogAbort (Bool × Log) := do
  let r ← logServiceAccess seed log .cmdmon remoteIp now
  match r.2 with
  | none => pure (true, r.1)
  | some index =>
      if localhost then pure (true, r.1)
      else
        let l := limitServiceRate r.1 .cmdmon index leak kod
        pure (l.2 = .pass, l.1)

/-- `transmit_reply`. The length of a reply with an unknown code is zero. -/
def transmitReply (requestLength : ℕ) (rx : Memory) (reply : Reply ρ) : Option (ReplyMessage ρ) :=
  let length := replyLengths reply.reply
  if requestLength < length then none
  else
    some { version := protoVersionNumber, pktType := pktTypeCmdReply, res1 := 0, res2 := 0,
           command := rx.command, sequence := rx.sequence, reply := reply, length := length }

/-- The reply to a message which passed the checks of the header and the address. -/
def processRequest (B : Backend δ ρ) (now : Timespec) (fullAccess : Bool) (readLength : ℕ)
    (rx : Memory) (s : State δ) : Option (ReplyMessage ρ) × State δ :=
  if rx.version ≠ protoVersionNumber then
    if rx.version ≥ protoVersionMismatchCompatServer then
      (transmitReply readLength rx (.ofStatus .badPktVersion), s)
    else (none, s)
  else
    match Command.ofCode rx.command with
    | none => (transmitReply readLength rx (.ofStatus .invalid), s)
    | some command =>
        let expectedLength := commandLength rx.version rx.command
        if expectedLength < endOffset requestHeader then
          (transmitReply readLength rx (.ofStatus .invalid), s)
        else if readLength < expectedLength then
          (transmitReply readLength rx (.ofStatus .badPktLength), s)
        else
          let r := handleCommand B rx s now fullAccess command
          (transmitReply readLength rx r.1, r.2)

/-- `read_from_cmd_socket`. -/
def readFromCmdSocket (seed : BitVec 32) (env : Conditions δ ρ) (msg : Message) (s : State δ) :
    Except LogAbort (Option (ReplyMessage ρ) × State δ) :=
  let readLength := msg.data.length
  let now := (env.backend.schGetLastEventTime s.daemon).1
  match checkAddress s.accessAuthTable msg.sockFd msg.remoteAddr with
  | none => pure (none, s)
  | some (remoteIp, localhost, fullAccess) =>
      if readLength < endOffset requestHeader ∨ readLength < endOffset replyHeader ∨
          readLength > cmdRequest.size then pure (none, s)
      else
        let rx := rxMessage msg.data env.memory
        if rx.pktType ≠ pktTypeCmdRequest ∨ rx.res1 ≠ 0 ∨ rx.res2 ≠ 0 then pure (none, s)
        else do
          let r ← limitAccess seed remoteIp localhost env.leak env.kod now s.clientLog
          let s := { s with clientLog := r.2 }
          if r.1 then pure (processRequest env.backend now fullAccess readLength rx s)
          else pure (none, s)

/-! ### Lengths -/

/-- The code of the reply with the data which a command asks for. -/
def dataReply : Command → ReplyCode
  | .settime => .manualTimestamp2
  | .nSources => .nSources
  | .sourceData => .sourceData
  | .tracking => .tracking
  | .sourcestats => .sourcestats
  | .rtcreport => .rtc
  | .manualList => .manualList2
  | .activity => .activity
  | .smoothing => .smoothing
  | .serverStats => .serverStats4
  | .ntpData => .ntpData2
  | .ntpSourceName => .ntpSourceName
  | .authData => .authData
  | .clientAccessesByIndex3 => .clientAccessesByIndex3
  | .selectData => .selectData
  | _ => .null

theorem replyLength_le_reqLengthEntry (request reply : List CType) :
    offsetOfEor replyHeader reply ≤
      (reqLengthEntry request reply).1 + (reqLengthEntry request reply).2 := by
  rw [reqLengthEntry, paddingLength]
  dsimp only
  split <;> omega

/-- **The padding is sufficient** for the reply with the data. -/
theorem replyLengths_dataReply_le (command : Command) (h : (requestLengths command).1 ≠ 0) :
    replyLengths (dataReply command) ≤
      (requestLengths command).1 + (requestLengths command).2 := by
  cases command
  case null | logon | localRef | addServer | addPeer | doffset | subnetsAccessed | clientAccesses |
      clientAccessesByIndex | clientAccessesByIndex2 | local2 | addServer2 | addPeer2 | addServer3 |
      addPeer3 => exact absurd rfl h
  all_goals
    simp only [dataReply, requestLengths, replyLengths]
    exact replyLength_le_reqLengthEntry _ _

theorem replyLengths_null : replyLengths .null = endOffset replyHeader := rfl

/-! ### The replies of the handlers -/

/-- A reply has no data, or has the data of a command. -/
def Reply.Answers (reply : Reply ρ) (code : ReplyCode) : Prop :=
  reply.reply = .null ∨ reply.reply = code

variable {code : ReplyCode}

theorem Reply.answers_null : (Reply.null : Reply ρ).Answers code := .inl rfl

theorem Reply.answers_ofStatus (status : Status) : (Reply.ofStatus status : Reply ρ).Answers code :=
  .inl rfl

theorem Reply.answers_report (report : ρ) : (Reply.report code report).Answers code := .inr rfl

theorem Reply.answers_ofResult (failure : Status) (done : Bool) :
    (Reply.ofResult failure done : Reply ρ).Answers code := by
  cases done with
  | false => exact answers_ofStatus failure
  | true => exact answers_null

theorem Reply.answers_ofOption (failure : Status) (report : Option ρ) :
    (Reply.ofOption code failure report).Answers code := by
  cases report with
  | none => exact answers_ofStatus failure
  | some report => exact answers_report report

theorem Reply.answers_ofAccess (allowed : Bool) : (Reply.ofAccess allowed : Reply ρ).Answers code :=
  answers_ofStatus _

attribute [simp] Reply.answers_null Reply.answers_ofStatus Reply.answers_report
  Reply.answers_ofResult Reply.answers_ofOption Reply.answers_ofAccess

section

variable (B : Backend δ ρ) (rx : Memory) (s : State δ)

@[simp] theorem withResult_answers (failure : Status) (r : Bool × δ) :
    (withResult failure r : Reply ρ × δ).1.Answers code :=
  Reply.answers_ofResult failure r.1

theorem addSourceReply_answers (status : AddStatus) :
    (addSourceReply status : Reply ρ).Answers code := by
  cases status <;> exact .inl rfl

theorem handleAddSource_answers (d : δ) : (handleAddSource B rx d).1.Answers code := by
  rw [handleAddSource]
  split
  · exact Reply.answers_ofStatus _
  · split
    · exact Reply.answers_ofStatus _
    · exact addSourceReply_answers _

theorem handleSettime_answers (d : δ) : (handleSettime B rx d).1.Answers .manualTimestamp2 := by
  rw [handleSettime]
  split
  · exact Reply.answers_ofStatus _
  · split
    · exact .inr rfl
    · exact Reply.answers_ofStatus _

theorem handleLocal_answers (d : δ) : (handleLocal B rx d).1.Answers code := by
  rw [handleLocal]
  split <;> exact Reply.answers_null

theorem handleManual_answers (d : δ) : (handleManual B rx d).1.Answers code := by
  rw [handleManual]
  split
  · exact Reply.answers_null
  · split
    · exact Reply.answers_null
    · split
      · exact Reply.answers_null
      · exact Reply.answers_ofStatus _

theorem handleWritertc_answers (d : δ) : (handleWritertc B d).1.Answers code := by
  rw [handleWritertc]
  split
  · exact Reply.answers_null
  · exact Reply.answers_ofStatus _
  · exact Reply.answers_ofStatus _

theorem handleSmoothtime_answers (d : δ) : (handleSmoothtime B rx d).1.Answers code := by
  rw [handleSmoothtime]
  split
  · exact Reply.answers_ofStatus _
  · dsimp only
    split
    · exact Reply.answers_null
    · split
      · exact Reply.answers_null
      · exact Reply.answers_ofStatus _

theorem State.onDaemon_answers {f : δ → Reply ρ × δ} (h : ∀ d, (f d).1.Answers code) :
    ∀ r ∈ s.onDaemon f, r.1.Answers code := by
  rintro r hr
  obtain rfl := Option.some.inj hr
  exact h _

theorem State.onTable_answers {f : AddrFilt.AuthTable → Reply ρ × AddrFilt.AuthTable}
    (h : ∀ table, (f table).1.Answers code) : ∀ r ∈ s.onTable f, r.1.Answers code := by
  rintro r hr
  obtain rfl := Option.some.inj hr
  exact h _

theorem handleReadwriteCommands_answers (command : Command) :
    ∀ r ∈ handleReadwriteCommands B rx s command, r.1.Answers (dataReply command) := by
  cases command
  case addSource => exact s.onDaemon_answers (handleAddSource_answers B rx)
  case settime => exact s.onDaemon_answers (handleSettime_answers B rx)
  case local3 => exact s.onDaemon_answers (handleLocal_answers B rx)
  case manual => exact s.onDaemon_answers (handleManual_answers B rx)
  case writertc => exact s.onDaemon_answers (handleWritertc_answers B)
  case smoothtime => exact s.onDaemon_answers (handleSmoothtime_answers B rx)
  case cmdallow | cmdallowall | cmddeny | cmddenyall =>
      exact s.onTable_answers fun table => withResult_answers _ _
  case cyclelogs | dfreq | dump | modifyMakestep | modifyMaxupdateskew | onoffline | refresh |
      rekey | reloadSources | reselect | reselectdistance | resetSources | shutdown =>
      exact s.onDaemon_answers fun d => Reply.answers_null
  case allow | allowall | burst | delSource | deny | denyall | doffset2 | makestep | manualDelete |
      modifyMaxdelay | modifyMaxdelaydevratio | modifyMaxdelayratio | modifyMaxpoll |
      modifyMinpoll | modifyMinstratum | modifyOffset | modifyPolltarget | modifySelectopts |
      offline | online | trimrtc =>
      exact s.onDaemon_answers fun d => withResult_answers _ _
  all_goals exact fun r hr => absurd hr (Option.not_mem_none r)

theorem handleSourceData_answers (d : δ) : (handleSourceData B rx d).Answers .sourceData := by
  rw [handleSourceData]
  split
  · exact Reply.answers_ofStatus _
  · dsimp only
    split
    · exact Reply.answers_report _
    · exact Reply.answers_null

theorem handleNtpSourceName_answers (d : δ) :
    (handleNtpSourceName B rx d).Answers .ntpSourceName := by
  rw [handleNtpSourceName]
  split
  · exact Reply.answers_ofStatus _
  · exact .inr rfl

theorem handleClientAccessesByIndex_answers (now : Timespec) (log : Log) :
    (handleClientAccessesByIndex rx now log : Reply ρ × Log).1.Answers .clientAccessesByIndex3 := by
  rw [handleClientAccessesByIndex]
  split
  · exact Reply.answers_ofStatus _
  · exact .inr rfl

theorem readonlyReply_answers (now : Timespec) (command : Command) :
    ∀ r ∈ readonlyReply B rx s now command, r.1.Answers (dataReply command) := by
  rintro r hr
  cases command <;> simp only [readonlyReply, State.onDaemon, State.onLog, Option.mem_def,
    Option.some.injEq, reduceCtorEq] at hr <;> subst hr
  case sourceData => exact handleSourceData_answers B rx _
  case ntpSourceName => exact handleNtpSourceName_answers B rx _
  case clientAccessesByIndex3 => exact handleClientAccessesByIndex_answers rx now _
  all_goals first
    | exact .inr rfl
    | exact Reply.answers_ofAccess _
    | exact Reply.answers_ofOption _ _

theorem handleReadonlyCommands_answers (now : Timespec) (fullAccess : Bool) (command : Command) :
    ∀ r ∈ handleReadonlyCommands B rx s now fullAccess command,
      r.1.Answers (dataReply command) := by
  rw [handleReadonlyCommands]
  split
  · exact readonlyReply_answers B rx s now command
  · simp

/-- **The reply of a handler** has the data of its command or no data. -/
theorem handleCommand_answers (now : Timespec) (fullAccess : Bool) (command : Command) :
    (handleCommand B rx s now fullAccess command).1.Answers (dataReply command) := by
  rw [handleCommand]
  cases hr : (if fullAccess then handleReadwriteCommands B rx s command else none).or
      (handleReadonlyCommands B rx s now fullAccess command) with
  | none => exact Reply.answers_ofStatus _
  | some r =>
      rcases Option.or_eq_some_iff.mp hr with hr | ⟨-, hr⟩
      · cases fullAccess with
        | false => exact absurd hr (by simp)
        | true => exact handleReadwriteCommands_answers B rx s command r hr
      · exact handleReadonlyCommands_answers B rx s now fullAccess command r hr

end

/-! ### Every valid request has a reply -/

/-- The header and the length of a reply to a request. -/
structure ReplyTo (readLength : ℕ) (rx : Memory) (r : ReplyMessage ρ) : Prop where
  version : r.version = protoVersionNumber
  pktType : r.pktType = pktTypeCmdReply
  res1 : r.res1 = 0
  res2 : r.res2 = 0
  command : r.command = rx.command
  sequence : r.sequence = rx.sequence
  length : r.length = replyLengths r.reply.reply
  length_le : r.length ≤ readLength

theorem transmitReply_eq {reply : Reply ρ} {readLength : ℕ} (rx : Memory)
    (h : replyLengths reply.reply ≤ readLength) :
    ∃ r, transmitReply readLength rx reply = some r ∧ r.reply = reply ∧
      ReplyTo readLength rx r := by
  rw [transmitReply, if_neg (not_lt.mpr h)]
  exact ⟨_, rfl, rfl, rfl, rfl, rfl, rfl, rfl, rfl, rfl, h⟩

theorem Reply.Answers.length_le {reply : Reply ρ} (h : reply.Answers code) {readLength : ℕ}
    (hnull : endOffset replyHeader ≤ readLength) (hcode : replyLengths code ≤ readLength) :
    replyLengths reply.reply ≤ readLength := by
  rcases h with h | h
  · rw [h, replyLengths_null]
    exact hnull
  · rw [h]
    exact hcode

/-! ### The memory behind a message -/

section

variable {rx rx' : Memory} {n : ℕ}

theorem Memory.ntohs_congr (h : ∀ i < n, rx i = rx' i) {p : ℕ} (hp : p + 2 ≤ n) :
    rx.ntohs p = rx'.ntohs p := by
  rw [ntohs, ntohs, h p (by omega), h (p + 1) (by omega)]

theorem Memory.ntohl_congr (h : ∀ i < n, rx i = rx' i) {p : ℕ} (hp : p + 4 ≤ n) :
    rx.ntohl p = rx'.ntohl p := by
  rw [ntohl, ntohl, h p (by omega), h (p + 1) (by omega), h (p + 2) (by omega),
    h (p + 3) (by omega)]

theorem Memory.ip_congr (h : ∀ i < n, rx i = rx' i) {layout : List CType} {k : ℕ}
    (hp : field layout k + 20 ≤ n) : rx.ip layout k = rx'.ip layout k := by
  have hin6 : (fun i : Fin 16 => rx (field layout k + i)) =
      fun i : Fin 16 => rx' (field layout k + i) :=
    funext fun i => h _ (by omega)
  rw [ip, ip, ipNetworkToHost, ipNetworkToHost, ntohs_congr h (by omega),
    ntohl_congr h (by omega), hin6]

theorem Memory.uint_congr (h : ∀ i < n, rx i = rx' i) {layout : List CType} {k : ℕ}
    (hp : field layout k + 4 ≤ n) : rx.uint layout k = rx'.uint layout k :=
  ntohl_congr h hp

theorem Memory.int_congr (h : ∀ i < n, rx i = rx' i) {layout : List CType} {k : ℕ}
    (hp : field layout k + 4 ≤ n) : rx.int layout k = rx'.int layout k := by
  rw [int, int, uint_congr h hp]

theorem Memory.float_congr (h : ∀ i < n, rx i = rx' i) {layout : List CType} {k : ℕ}
    (hp : field layout k + 4 ≤ n) : rx.float layout k = rx'.float layout k := by
  rw [float, float, uint_congr h hp]

theorem Memory.timespecNetworkToHost_congr (h : ∀ i < n, rx i = rx' i) {p : ℕ}
    (hp : p + 12 ≤ n) : rx.timespecNetworkToHost p = rx'.timespecNetworkToHost p := by
  rw [timespecNetworkToHost, timespecNetworkToHost, ntohl_congr h (by omega),
    ntohl_congr h (by omega), ntohl_congr h (by omega)]

variable (B : Backend δ ρ) (s : State δ) {command : Command}

theorem addSourceName_congr (h : ∀ i < n, rx i = rx' i)
    (hp : Memory.field reqNtpSource 1 + 256 ≤ n) : addSourceName rx = addSourceName rx' := by
  rw [addSourceName, addSourceName]
  refine List.map_congr_left fun i hi => h _ ?_
  have := List.mem_range.mp hi
  omega

theorem handleAddSource_congr (h : ∀ i < (requestLengths .addSource).1, rx i = rx' i) :
    handleAddSource B rx = handleAddSource B rx' := by
  have hparams : addSourceParameters rx = addSourceParameters rx' := by
    simp (disch := decide) only [addSourceParameters, Memory.uint_congr h, Memory.int_congr h,
      Memory.float_congr h]
  funext d
  rw [handleAddSource, handleAddSource, hparams, Memory.uint_congr h (by decide),
    Memory.uint_congr h (by decide), Memory.int_congr h (by decide),
    addSourceName_congr h (by decide)]

theorem handleReadwriteCommands_congr (h : ∀ i < (requestLengths command).1, rx i = rx' i) :
    handleReadwriteCommands B rx s command = handleReadwriteCommands B rx' s command := by
  cases command <;> simp (disch := decide) only [handleReadwriteCommands, State.onDaemon,
    State.onTable, handleOnline, handleOffline, handleBurst, handleModifyMinpoll,
    handleModifyMaxpoll, handleModifyMaxdelay, handleModifyMaxdelayratio,
    handleModifyMaxdelaydevratio, handleModifyMinstratum, handleModifyPolltarget, modifyInt,
    modifyFloat, handleModifyMaxupdateskew, handleModifyMakestep, handleSettime, handleLocal,
    handleManual, handleAllowdeny, handleCmdallowdeny, handleDelSource, handleDfreq,
    handleDoffset, handleSmoothtime, handleManualDelete, handleReselectDistance,
    handleModifySelectopts, handleModifyOffset, Memory.ip_congr h, Memory.uint_congr h,
    Memory.int_congr h, Memory.float_congr h, Memory.timespecNetworkToHost_congr h]
  case addSource => rw [handleAddSource_congr B h]

theorem readonlyReply_congr (h : ∀ i < (requestLengths command).1, rx i = rx' i)
    (now : Timespec) : readonlyReply B rx s now command = readonlyReply B rx' s now command := by
  cases command <;> simp (disch := decide) only [readonlyReply, State.onDaemon, State.onLog,
    handleAccheck, handleAuthData, handleClientAccessesByIndex, handleCmdaccheck, handleNtpData,
    handleNtpSourceName, handleSelectData, handleSourcestats, handleSourceData,
    Memory.ip_congr h, Memory.uint_congr h, Memory.int_congr h]

/-- **A handler uses only the fields of its request.** -/
theorem handleCommand_congr (h : ∀ i < (requestLengths command).1, rx i = rx' i) (now : Timespec)
    (fullAccess : Bool) :
    handleCommand B rx s now fullAccess command = handleCommand B rx' s now fullAccess command := by
  rw [handleCommand, handleCommand, handleReadonlyCommands, handleReadonlyCommands,
    handleReadwriteCommands_congr B s h, readonlyReply_congr B s h]

end

section

variable {rx rx' : Memory} {n : ℕ}

/-- The fields of the header. -/
theorem Memory.header_congr (hn : endOffset requestHeader ≤ n) (h : ∀ i < n, rx i = rx' i) :
    rx.version = rx'.version ∧ rx.pktType = rx'.pktType ∧ rx.res1 = rx'.res1 ∧
      rx.res2 = rx'.res2 ∧ rx.command = rx'.command ∧ rx.sequence = rx'.sequence := by
  change 20 ≤ n at hn
  refine ⟨?_, ?_, ?_, ?_, ntohs_congr h ?_, ntohl_congr h ?_⟩
  · exact congrArg BitVec.toNat (h 0 (by omega))
  · exact congrArg BitVec.toNat (h 1 (by omega))
  · exact congrArg BitVec.toNat (h 2 (by omega))
  · exact congrArg BitVec.toNat (h 3 (by omega))
  · change 4 + 2 ≤ n
    omega
  · change 8 + 4 ≤ n
    omega

theorem transmitReply_congr (hcommand : rx.command = rx'.command)
    (hsequence : rx.sequence = rx'.sequence) (reply : Reply ρ) (readLength : ℕ) :
    transmitReply readLength rx reply = transmitReply readLength rx' reply := by
  rw [transmitReply, transmitReply, hcommand, hsequence]

theorem commandLength_eq {version n : ℕ} {command : Command}
    (h : Command.ofCode n = some command) (hn : endOffset requestHeader ≤ commandLength version n) :
    (requestLengths command).1 ≠ 0 ∧
      commandLength version n = (requestLengths command).1 + commandPaddingLength version n := by
  rw [commandLength, h] at hn ⊢
  dsimp only at hn ⊢
  split at hn
  · exact absurd hn (by decide)
  next hzero => exact ⟨hzero, if_neg hzero⟩

theorem replyLengths_dataReply_le_commandLength {version n : ℕ} {command : Command}
    (hversion : version = protoVersionNumber) (h : Command.ofCode n = some command)
    (hn : endOffset requestHeader ≤ commandLength version n) :
    replyLengths (dataReply command) ≤ commandLength version n := by
  obtain ⟨hzero, hlength⟩ := commandLength_eq h hn
  have hpadding : commandPaddingLength version n = (requestLengths command).2 := by
    rw [commandPaddingLength, hversion, if_neg (by decide), h]
    rfl
  rw [hlength, hpadding]
  exact replyLengths_dataReply_le command hzero

theorem processRequest_congr (B : Backend δ ρ) (s : State δ) {readLength : ℕ}
    (hlength : endOffset requestHeader ≤ readLength) (h : ∀ i < readLength, rx i = rx' i)
    (now : Timespec) (fullAccess : Bool) :
    processRequest B now fullAccess readLength rx s =
      processRequest B now fullAccess readLength rx' s := by
  obtain ⟨hversion, -, -, -, hcommand, hsequence⟩ := Memory.header_congr hlength h
  have htransmit := transmitReply_congr (ρ := ρ) hcommand hsequence
  rw [processRequest, processRequest, hversion, hcommand]
  split
  · rw [htransmit]
  · split
    · rw [htransmit]
    next command hcode =>
        dsimp only
        split
        · rw [htransmit]
        next hsupported =>
            split
            · rw [htransmit]
            next hshort =>
                have hlength := (commandLength_eq hcode (not_lt.mp hsupported)).2
                rw [htransmit, handleCommand_congr B s fun i hi => h i (by omega)]

end

/-- **A request has a reply** if its version is supported. -/
theorem processRequest_replies (B : Backend δ ρ) (rx : Memory) (s : State δ) {readLength : ℕ}
    (hlength : endOffset replyHeader ≤ readLength) (now : Timespec) (fullAccess : Bool) :
    if protoVersionMismatchCompatServer ≤ rx.version then
      ∃ r, (processRequest B now fullAccess readLength rx s).1 = some r ∧ ReplyTo readLength rx r
    else (processRequest B now fullAccess readLength rx s).1 = none := by
  have hstatus : ∀ status, ∃ r : ReplyMessage ρ,
      transmitReply readLength rx (.ofStatus status) = some r ∧ ReplyTo readLength rx r :=
    fun status => by
      have hnull : replyLengths (.ofStatus status : Reply ρ).reply ≤ readLength := hlength
      obtain ⟨r, hr, -, hto⟩ := transmitReply_eq rx hnull
      exact ⟨r, hr, hto⟩
  rw [processRequest]
  by_cases hversion : rx.version = protoVersionNumber
  · have hcompat : protoVersionMismatchCompatServer ≤ rx.version := hversion.symm ▸ by decide
    rw [if_neg (not_not.mpr hversion), if_pos hcompat]
    split
    · exact hstatus _
    next command hcode =>
        dsimp only
        split
        · exact hstatus _
        next hsupported =>
            split
            · exact hstatus _
            next hshort =>
                have hdata := replyLengths_dataReply_le_commandLength hversion hcode
                  (not_lt.mp hsupported)
                have hanswers := handleCommand_answers B rx s now fullAccess command
                obtain ⟨r, hr, -, hto⟩ := transmitReply_eq rx
                  (hanswers.length_le hlength (hdata.trans (not_lt.mp hshort)))
                exact ⟨r, hr, hto⟩
  · rw [if_pos hversion]
    split
    · exact hstatus _
    · rfl

/-- The checks of a message before the rate limiting. -/
structure Admitted (env : Conditions δ ρ) (msg : Message) (s : State δ) (remoteIp : IPAddr)
    (localhost fullAccess : Bool) : Prop where
  address : checkAddress s.accessAuthTable msg.sockFd msg.remoteAddr =
    some (remoteIp, localhost, fullAccess)
  min : endOffset replyHeader ≤ msg.data.length
  max : msg.data.length ≤ cmdRequest.size
  pktType : (rxMessage msg.data env.memory).pktType = pktTypeCmdRequest
  res1 : (rxMessage msg.data env.memory).res1 = 0
  res2 : (rxMessage msg.data env.memory).res2 = 0

/-- The accounting of an admitted message. -/
def Conditions.limit (env : Conditions δ ρ) (seed : BitVec 32) (s : State δ) (remoteIp : IPAddr)
    (localhost : Bool) : Except LogAbort (Bool × Log) :=
  limitAccess seed remoteIp localhost env.leak env.kod
    (env.backend.schGetLastEventTime s.daemon).1 s.clientLog

/-- **What is done with a message.** -/
theorem readFromCmdSocket_cases {seed : BitVec 32} {env : Conditions δ ρ} {msg : Message}
    {s s' : State δ} {out : Option (ReplyMessage ρ)}
    (h : readFromCmdSocket seed env msg s = .ok (out, s')) :
    ((out = none ∧ s' = s) ∧ ∀ remoteIp localhost fullAccess,
      ¬Admitted env msg s remoteIp localhost fullAccess) ∨
    ∃ remoteIp localhost fullAccess passed log,
      Admitted env msg s remoteIp localhost fullAccess ∧
        env.limit seed s remoteIp localhost = .ok (passed, log) ∧
        (out, s') =
          if passed then
            processRequest env.backend (env.backend.schGetLastEventTime s.daemon).1 fullAccess
              msg.data.length (rxMessage msg.data env.memory) { s with clientLog := log }
          else (none, { s with clientLog := log }) := by
  rw [readFromCmdSocket] at h
  dsimp only at h
  split at h
  next hcheck =>
      obtain ⟨rfl, rfl⟩ := Prod.mk.inj (Except.ok.inj h)
      exact .inl ⟨⟨rfl, rfl⟩, fun _ _ _ hadmitted => by simp [hadmitted.address] at hcheck⟩
  next remoteIp localhost fullAccess hcheck =>
      split at h
      next hlength =>
          obtain ⟨rfl, rfl⟩ := Prod.mk.inj (Except.ok.inj h)
          refine .inl ⟨⟨rfl, rfl⟩, fun _ _ _ hadmitted => ?_⟩
          have hmin := hadmitted.min
          have hmax := hadmitted.max
          have hheaders : endOffset requestHeader ≤ endOffset replyHeader := by decide
          omega
      next hlength =>
          split at h
          next hheader =>
              obtain ⟨rfl, rfl⟩ := Prod.mk.inj (Except.ok.inj h)
              refine .inl ⟨⟨rfl, rfl⟩, fun _ _ _ hadmitted => ?_⟩
              have htype := hadmitted.pktType
              have hres1 := hadmitted.res1
              have hres2 := hadmitted.res2
              tauto
          next hheader =>
              obtain ⟨⟨passed, log⟩, hlimit, h⟩ := Lib.bind_eq_ok_iff.mp h
              refine .inr ⟨remoteIp, localhost, fullAccess, passed, log,
                ⟨hcheck, by omega, by omega, by tauto, by tauto, by tauto⟩, hlimit, ?_⟩
              cases passed with
              | false => exact (Except.ok.inj h).symm
              | true => exact (Except.ok.inj h).symm

/-- A message which is processed: it is admitted, the rate is not limited, and its version is known
to be compatible. -/
def Accepted (seed : BitVec 32) (env : Conditions δ ρ) (msg : Message) (s : State δ) : Prop :=
  ∃ remoteIp localhost fullAccess log, Admitted env msg s remoteIp localhost fullAccess ∧
    env.limit seed s remoteIp localhost = .ok (true, log) ∧
      protoVersionMismatchCompatServer ≤ (rxMessage msg.data env.memory).version

/-- A message which was processed has a reply exactly if it was accepted. -/
theorem isSome_iff_accepted {seed : BitVec 32} {env : Conditions δ ρ} {msg : Message}
    {s s' : State δ} {out : Option (ReplyMessage ρ)}
    (h : readFromCmdSocket seed env msg s = .ok (out, s')) :
    (out.isSome ↔ Accepted seed env msg s) ∧
      ∀ r ∈ out, ReplyTo msg.data.length (rxMessage msg.data env.memory) r := by
  rcases readFromCmdSocket_cases h with ⟨⟨rfl, -⟩, hrefused⟩ |
    ⟨remoteIp, localhost, fullAccess, passed, log, hadmitted, hlimit, hout⟩
  · refine ⟨⟨fun hsome => absurd hsome Bool.false_ne_true, ?_⟩, fun r hr => absurd hr (by simp)⟩
    rintro ⟨remoteIp, localhost, fullAccess, log, hadmitted, -⟩
    exact absurd hadmitted (hrefused _ _ _)
  · have hunique : Accepted seed env msg s ↔
        passed = true ∧ protoVersionMismatchCompatServer ≤
          (rxMessage msg.data env.memory).version := by
      constructor
      · rintro ⟨remoteIp', localhost', fullAccess', log', hadmitted', hlimit', hversion⟩
        obtain ⟨rfl, hrest⟩ := Prod.mk.inj
          (Option.some.inj (hadmitted.address.symm.trans hadmitted'.address))
        obtain ⟨rfl, rfl⟩ := Prod.mk.inj hrest
        obtain ⟨rfl, -⟩ := Prod.mk.inj (Except.ok.inj (hlimit.symm.trans hlimit'))
        exact ⟨rfl, hversion⟩
      · rintro ⟨rfl, hversion⟩
        exact ⟨remoteIp, localhost, fullAccess, log, hadmitted, hlimit, hversion⟩
    rw [hunique]
    cases passed with
    | false =>
        obtain ⟨rfl, -⟩ := Prod.mk.inj hout
        exact ⟨by simp, fun r hr => absurd hr (by simp)⟩
    | true =>
        rw [if_pos rfl] at hout
        have hreplies := processRequest_replies env.backend (rxMessage msg.data env.memory)
          { s with clientLog := log } hadmitted.min
          (env.backend.schGetLastEventTime s.daemon).1 fullAccess
        rw [← hout] at hreplies
        split at hreplies
        next hversion =>
            obtain ⟨r, rfl, hto⟩ := hreplies
            refine ⟨by simp [hversion], fun r' hr' => ?_⟩
            obtain rfl := Option.some.inj hr'
            exact hto
        next hversion =>
            dsimp only at hreplies
            subst hreplies
            exact ⟨by simp [hversion], fun r hr => absurd hr (by simp)⟩

/-- The processing of a message ends without a failed assertion of the client log. -/
theorem readFromCmdSocket_sound {seed : BitVec 32} (env : Conditions δ ρ) (msg : Message)
    {s : State δ} (hlog : s.clientLog.Sound seed) :
    ∃ out s', readFromCmdSocket seed env msg s = .ok (out, s') := by
  rw [readFromCmdSocket]
  dsimp only
  split
  · exact ⟨_, _, rfl⟩
  next remoteIp localhost fullAccess hcheck =>
      split
      · exact ⟨_, _, rfl⟩
      · split
        · exact ⟨_, _, rfl⟩
        · obtain ⟨log', index, haccess, -⟩ := logServiceAccess_sound hlog .cmdmon remoteIp
            (env.backend.schGetLastEventTime s.daemon).1
          obtain ⟨⟨passed, log⟩, hlimit⟩ : ∃ r, limitAccess seed remoteIp localhost env.leak
              env.kod (env.backend.schGetLastEventTime s.daemon).1 s.clientLog = .ok r := by
            rw [limitAccess, haccess]
            cases index with
            | none => exact ⟨_, rfl⟩
            | some index => cases localhost <;> exact ⟨_, rfl⟩
          rw [hlimit]
          cases passed <;> exact ⟨_, _, rfl⟩

/-- **Every accepted request has a reply, which is not longer than the request.** No reply is
suppressed because of its length: the padding of a valid request is sufficient for the reply which
it asks for, and an error reply is not longer than the shortest message. With a client log which is
kept by its own functions, the processing of a message always ends. -/
theorem readFromCmdSocket_answers (seed : BitVec 32) (env : Conditions δ ρ) (msg : Message)
    (s : State δ) :
    ((∃ r s', readFromCmdSocket seed env msg s = .ok (some r, s')) ↔ Accepted seed env msg s) ∧
      (∀ r s', readFromCmdSocket seed env msg s = .ok (some r, s') →
        ReplyTo msg.data.length (rxMessage msg.data env.memory) r) ∧
      (s.clientLog.Sound seed → ∃ out s', readFromCmdSocket seed env msg s = .ok (out, s')) := by
  refine ⟨⟨?_, fun haccepted => ?_⟩, fun r s' h => (isSome_iff_accepted h).2 r rfl,
    readFromCmdSocket_sound env msg⟩
  · rintro ⟨r, s', h⟩
    exact (isSome_iff_accepted h).1.mp rfl
  · -- the accounting of the message is the only step which can fail
    obtain ⟨out, s', h⟩ : ∃ out s', readFromCmdSocket seed env msg s = .ok (out, s') := by
      obtain ⟨remoteIp, localhost, fullAccess, log, hadmitted, hlimit, -⟩ := haccepted
      have hheaders : endOffset requestHeader ≤ endOffset replyHeader := by decide
      have hmin := hadmitted.min
      have hmax := hadmitted.max
      rw [readFromCmdSocket]
      dsimp only
      rw [hadmitted.address]
      dsimp only
      rw [if_neg (by omega), if_neg (by simp [hadmitted.pktType, hadmitted.res1, hadmitted.res2])]
      rw [Conditions.limit] at hlimit
      rw [hlimit]
      exact ⟨_, _, rfl⟩
    obtain ⟨r, rfl⟩ := Option.isSome_iff_exists.mp ((isSome_iff_accepted h).1.mpr haccepted)
    exact ⟨r, s', h⟩

/-- A request for the number of sources from the same host. -/
def sampleMessage : Message :=
  ⟨.sockFd4, .ip (.inet4 0x7f000001) 323,
    [6, 1, 0, 0, 0, 14, 0, 0, 0, 0, 0, 7] ++ List.replicate 20 0⟩

/-- Functions of the other modules which do nothing. -/
def sampleConditions : Conditions Unit Unit := ⟨default, false, false, fun _ => 0⟩

/-- A daemon without a client log. -/
def sampleState : State Unit := ⟨AddrFilt.createTable, initialLog true 1 (fun _ => none) 0, ()⟩

set_option maxRecDepth 4000 in
theorem readFromCmdSocket_answers_sample : ∃ r s',
    readFromCmdSocket 0 sampleConditions sampleMessage sampleState = .ok (some r, s') ∧
      Accepted 0 sampleConditions sampleMessage sampleState ∧
      ReplyTo 32 (rxMessage sampleMessage.data fun _ => 0) r := by
  obtain ⟨hiff, hreply, -⟩ :=
    readFromCmdSocket_answers 0 sampleConditions sampleMessage sampleState
  exact ⟨_, _, rfl, hiff.mp ⟨_, _, rfl⟩, hreply _ _ rfl⟩

/-- **The memory behind a message is not used.** Neither the reply nor the new state depends on
what was there before the message was copied. -/
theorem readFromCmdSocket_memory (seed : BitVec 32) (env : Conditions δ ρ) (msg : Message)
    (s : State δ) (memory : Memory) :
    readFromCmdSocket seed { env with memory := memory } msg s =
      readFromCmdSocket seed env msg s := by
  rw [readFromCmdSocket, readFromCmdSocket]
  dsimp only
  split
  · rfl
  next remoteIp localhost fullAccess hcheck =>
      split
      · rfl
      next hlength =>
          have hle : endOffset requestHeader ≤ msg.data.length := by omega
          have hrx : ∀ i < msg.data.length,
              rxMessage msg.data memory i = rxMessage msg.data env.memory i := fun i hi => by
            rw [rxMessage, rxMessage, List.getD_eq_getElem _ _ hi, List.getD_eq_getElem _ _ hi]
          obtain ⟨-, htype, hres1, hres2, -, -⟩ := Memory.header_congr hle hrx
          rw [htype, hres1, hres2]
          split
          · rfl
          · simp only [processRequest_congr _ _ hle hrx]

end Chrony.Candm
