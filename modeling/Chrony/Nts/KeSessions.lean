import Chrony.Lib.Program
import Chrony.Nts.KeHandlers
import Chrony.Sched.Owners
import Mathlib.Data.Finset.Basic

/-!
# NTS-KE Sessions

The state machine of NTS-KE sessions (`nts_ke_session.c`), and the parts of `nts_ke_client.c`,
`nts_ke_server.c` and `nts_ntp_client.c` which create, start, stop and destroy the sessions. A
session is a record of the memory, and its descriptor, file handler and timeout are in the
environment. A session, the instance of the client which has it, and the argument of their handlers
have the same number.

What the system and the TLS library return is an input of each event. The event of a descriptor can
be any of the three events, even if it was not waited for. A failed assertion and a use of memory
which is not valid end the run.
-/

namespace Chrony.Nts.Nksn

open Lib Bytes Lib.Program

/-! ### Environment -/

/-- `KeState`. -/
inductive KeState
  | waitConnect
  | handshake
  | send
  | receive
  | shutdown
  | stopped
  deriving DecidableEq, Repr

/-- `TLS_Status`. -/
inductive TlsResult
  | success
  | failed
  | closed
  | againInput
  | againOutput
  deriving DecidableEq, Repr

/-- The events of a descriptor. -/
inductive FileEvent
  | input
  | output
  | exception
  deriving DecidableEq, Repr

/-- `FileHandlerEntry` of a session, with the events which are waited for. -/
structure FileHandlerEntry where
  arg : ℕ
  input : Bool
  output : Bool
  deriving DecidableEq, Repr

/-- The handlers of timeouts. -/
inductive TimeoutHandler
  | sessionTimeout
  | other
  deriving DecidableEq, Repr

/-- How a run ends. -/
inductive KeAbort
  /-- An assertion of the functions which add or get records. -/
  | record (e : SessionAbort)
  /-- The scheduler of timeouts. -/
  | sched (e : Sched.Abort)
  /-- `LOG_FATAL("Too many file descriptors")`. -/
  | tooManyDescriptors
  /-- `assert(!ptr->handler)` and `assert(ptr->handler)`. -/
  | fileHandler
  /-- `assert(0)` in `change_state`. -/
  | changeState
  /-- The assertions in `KE_SEND`. -/
  | sendMessage
  /-- `assert(0)` in `handle_event`. -/
  | handleEvent
  /-- `assert(inst->state == KE_STOPPED)`. -/
  | startSession
  /-- `assert(!NKC_IsActive(inst))`. -/
  | start
  /-- `assert(server_credentials)`. -/
  | credentials
  /-- An instance which does not exist is used. -/
  | noInstance
  /-- A message is used before it was reset. -/
  | uninitialised
  deriving DecidableEq, Repr

/-- What is outside of the instances: the file handlers by the descriptor, the open descriptors,
and the scheduler of timeouts. -/
structure KeEnv where
  fileHandlers : ℕ → Option FileHandlerEntry
  sockets : Finset ℕ
  sched : Sched.State TimeoutHandler ℕ

/-- `struct Message` of a session, with `new_message`. -/
structure KeMessage where
  session : Session
  sent : ℕ
  deriving DecidableEq, Repr

/-- The message after `reset_message`, when it is not a new one. -/
def KeMessage.reset : KeMessage := ⟨⟨resetMessage, false⟩, 0⟩

/-- `NKSN_Instance_Record`, where the message is not initialised before the first start, and the
messages which were passed to the handler since the last start. -/
structure Instance where
  server : Bool
  state : KeState
  sockFd : Option ℕ
  label : Option String
  tlsSession : Bool
  timeoutId : ℕ
  retryFactor : ℕ
  message : Option KeMessage
  handled : List (List Byte)

/-- Programs over the environment. -/
abbrev Ke := Program KeAbort KeEnv

/-- `FD_SETSIZE`. -/
def fdSetSize : ℕ := 1024

/-- `SCH_AddFileHandler`, for the input event. -/
def addFileHandler (fd arg : ℕ) : Ke Unit := do
  let env ← get
  assert .tooManyDescriptors (fd < fdSetSize)
  assert .fileHandler (env.fileHandlers fd = none)
  modify fun env =>
    { env with fileHandlers := Function.update env.fileHandlers fd (some ⟨arg, true, false⟩) }

/-- `SCH_RemoveFileHandler`. -/
def removeFileHandler : Option ℕ → Ke Unit
  | none => throw .fileHandler
  | some fd => do
      let env ← get
      assert .fileHandler (env.fileHandlers fd ≠ none)
      modify fun env => { env with fileHandlers := Function.update env.fileHandlers fd none }

/-- A descriptor which is returned by the system, if it succeeds. It is not open yet. -/
def openSocket (fd : Option ℕ) : Ke (Option ℕ) := do
  let env ← get
  match fd.filter (· ∉ env.sockets) with
  | none => pure none
  | some fd => do
      modify fun env => { env with sockets := insert fd env.sockets }
      pure (some fd)

/-- `SCK_CloseSocket`. -/
def closeSocket (fd : Option ℕ) : Ke Unit :=
  modify fun env => { env with sockets := fd.elim env.sockets env.sockets.erase }

/-- A call of the scheduler of timeouts. -/
def callSched {α : Type} (f : Sched.State TimeoutHandler ℕ →
    Except Sched.Abort (Sched.State TimeoutHandler ℕ × α)) : Ke α := fun env =>
  match f env.sched with
  | .error e => .error (.sched e)
  | .ok (sched, a) => .ok (a, { env with sched })

/-- `SCH_RemoveTimeout`. -/
def removeTimeout (id : ℕ) : Ke Unit :=
  callSched fun sched => (Sched.removeTimeout sched id).map (·, ())

/-- `SCH_AddTimeoutByDelay`, which returns the identifier of the timeout. -/
def addTimeoutByDelay (now delay : ℚ) (handler : TimeoutHandler) (arg : ℕ) : Ke ℕ :=
  callSched fun sched =>
    (Sched.addTimeoutByDelay sched now delay handler arg).map fun r => (r.1, r.2.id)

/-- A call of the functions which add or get records. -/
def callRecords {α : Type} (x : Except SessionAbort α) : Ke α := fun env =>
  match x with
  | .error e => .error (.record e)
  | .ok a => .ok (a, env)

/-! ### Sessions -/

/-- `NKE_RETRY_FACTOR2_CONNECT`. -/
def retryFactorConnect : ℕ := 4

/-- `NKE_RETRY_FACTOR2_TLS`. -/
def retryFactorTls : ℕ := 10

/-- `NKSN_CreateInstance`. -/
def createInstance (server : Bool) : Instance where
  server
  state := .stopped
  sockFd := none
  label := none
  tlsSession := false
  timeoutId := 0
  retryFactor := retryFactorConnect
  message := none
  handled := []

namespace Instance

/-- The fields which are set by `stop_session`. -/
def stopped (inst : Instance) : Instance :=
  { inst with
    state := .stopped
    sockFd := none
    label := none
    tlsSession := false
    timeoutId := 0 }

/-- `stop_session`. -/
def stopSession (inst : Instance) : Ke Instance :=
  if inst.state = .stopped then pure inst
  else do
    removeFileHandler inst.sockFd
    closeSocket inst.sockFd
    removeTimeout inst.timeoutId
    pure inst.stopped

/-- `session_timeout`. -/
def sessionTimeout (inst : Instance) : Ke Instance :=
  stopSession { inst with timeoutId := 0 }

/-- `set_input_output`. -/
def setInputOutput (inst : Instance) (output : Bool) : Ke Unit :=
  match inst.sockFd with
  | none => throw .fileHandler
  | some fd =>
      modify fun env =>
        { env with
          fileHandlers := Function.update env.fileHandlers fd
            ((env.fileHandlers fd).map fun ptr => { ptr with input := !output, output }) }

/-- Whether `change_state` waits for the output event. -/
def waitsForOutput (inst : Instance) : KeState → Option Bool
  | .handshake => some !inst.server
  | .waitConnect | .send | .shutdown => some true
  | .receive => some false
  | .stopped => none

/-- `change_state`. -/
def changeState (inst : Instance) (state : KeState) : Ke Instance :=
  match inst.waitsForOutput state with
  | none => throw .changeState
  | some output => do
      inst.setInputOutput output
      pure { inst with state }

/-- The message, after it was initialised. -/
def getMessage (inst : Instance) : Ke KeMessage :=
  match inst.message with
  | none => throw .uninitialised
  | some message => pure message

end Instance

/-- The results of the calls which are made for an event. -/
structure EventAnswers where
  /-- Whether there was no error of the socket. -/
  connected : Bool
  /-- The status of a call of TLS. -/
  tls : TlsResult
  /-- The number of bytes which could be sent, if it is not larger than the requested number. -/
  sent : ℕ
  /-- What is received. -/
  received : Input
  /-- The calls made by the handlers of messages. -/
  handler : HandlerAnswers
  /-- The configuration of the server. -/
  server : KeServer

/-- The parts of the received data, each of them not longer than the rest of the buffer. -/
def fitChunks : ℕ → List (List Byte) → List (List Byte)
  | _, [] => []
  | room, chunk :: chunks =>
      chunk.take room :: fitChunks (room - (chunk.take room).length) chunks

/-- The received data. The last call was successful only if there was a call. -/
def fitInput (message : Message) (input : Input) : Input where
  chunks := fitChunks (nkeMaxMessageLength - message.data.length)
    (if input.status = .success ∧ input.chunks = [] then [[]] else input.chunks)
  status := input.status

namespace Instance

variable (answers : EventAnswers)

/-- `handle_event` in `KE_WAIT_CONNECT`. -/
def handleConnect (event : FileEvent) (inst : Instance) : Ke Instance :=
  if event ≠ .output then pure inst
  else if !answers.connected then inst.stopSession
  else inst.changeState .handshake

/-- `handle_event` in `KE_HANDSHAKE`. -/
def handleHandshake (inst : Instance) : Ke Instance :=
  match answers.tls with
  | .success =>
      { inst with retryFactor := retryFactorTls }.changeState
        (if inst.server then .receive else .send)
  | .againInput => do
      inst.setInputOutput false
      pure inst
  | .againOutput => do
      inst.setInputOutput true
      pure inst
  | .closed => inst.stopSession
  | .failed => do
      let inst ← inst.stopSession
      pure { inst with retryFactor := retryFactorTls }

/-- `handle_event` in `KE_SEND`. -/
def handleSend (inst : Instance) : Ke Instance := do
  let message ← inst.getMessage
  let length := message.session.message.data.length
  assert .sendMessage (message.session.newMessage ∧ message.session.message.complete)
  assert .sendMessage (length ≤ nkeMaxMessageLength ∧ length > message.sent)
  match answers.tls with
  | .success => do
      let sent := message.sent + min answers.sent (length - message.sent)
      if sent < length then pure { inst with message := some { message with sent } }
      else do
        let inst ← inst.changeState (if inst.server then .shutdown else .receive)
        pure { inst with message := some .reset }
  | .againOutput => pure inst
  | _ => inst.stopSession

/-- `handle_event` in `KE_RECEIVE`. It returns whether a message is complete. -/
def handleReceive (inst : Instance) : Ke (Instance × Bool) := do
  let message ← inst.getMessage
  let r := Nts.handleReceive message.session.message
    (fitInput message.session.message answers.received)
  let session := { message.session with message := r.1 }
  let inst := { inst with message := some { message with session } }
  match r.2 with
  | .wait => pure (inst, false)
  | .stop => do
      let inst ← inst.stopSession
      pure (inst, false)
  | .message => do
      let inst ← inst.changeState (if inst.server then .send else .shutdown)
      pure (inst, true)

/-- `handle_event` in `KE_SHUTDOWN`. -/
def handleShutdown (inst : Instance) : Ke Instance :=
  match answers.tls with
  | .againInput => do
      inst.setInputOutput false
      pure inst
  | .againOutput => do
      inst.setInputOutput true
      pure inst
  | _ => inst.stopSession

/-- `handle_event`. -/
def handleEvent (event : FileEvent) (inst : Instance) : Ke (Instance × Bool) :=
  match inst.state with
  | .waitConnect => (·, false) <$> inst.handleConnect answers event
  | .handshake => (·, false) <$> inst.handleHandshake answers
  | .send => (·, false) <$> inst.handleSend answers
  | .receive => inst.handleReceive answers
  | .shutdown => (·, false) <$> inst.handleShutdown answers
  | .stopped => throw .handleEvent

end Instance

/-- The configuration of the client. -/
structure ClientConfig where
  siv : Siv
  aeads : List ℕ

/-- The handler of a message: `handle_message` of the server or the client. The response of the
server is begun with a reset of the message. -/
def callHandler (config : ClientConfig) (answers : EventAnswers) (server : Bool)
    (nkc : Option NkcInstance) (message : KeMessage) :
    Ke (KeMessage × Option NkcInstance × Bool) :=
  if server then do
    let r ← callRecords (answers.handler.processRequest answers.server message.session)
    pure (⟨r.1, 0⟩, nkc, r.2)
  else
    match nkc with
    | none => throw .noInstance
    | some nkc => do
        let r ← callRecords
          (nkc.handleMessage config.siv config.aeads answers.handler message.session)
        pure ({ message with session := r.2.1 }, some r.1, r.2.2)

namespace Instance

/-- `read_write_socket`, with the instance of the client. -/
def readWriteSocket (config : ClientConfig) (answers : EventAnswers) (event : FileEvent)
    (nkc : Option NkcInstance) (inst : Instance) : Ke (Instance × Option NkcInstance) := do
  let (inst, received) ← inst.handleEvent answers event
  if !received then pure (inst, nkc)
  else do
    let message ← inst.getMessage
    let message :=
      { message with session := { message.session with
        message := resetMessageParsing message.session.message } }
    let (message', nkc, handled) ← callHandler config answers inst.server nkc message
    let inst :=
      { inst with
        message := some message'
        handled := inst.handled ++ [message.session.message.data] }
    if handled then pure (inst, nkc)
    else do
      let inst ← inst.stopSession
      pure (inst, nkc)

/-- `NKSN_StartSession`, for the session of a number. The instance of TLS might not be created. -/
def startSession (arg fd : ℕ) (label : String) (created : Bool) (now timeout : ℚ)
    (inst : Instance) : Ke (Instance × Bool) := do
  assert .startSession (inst.state = .stopped)
  if !created then pure ({ inst with tlsSession := false }, false)
  else do
    addFileHandler fd arg
    let timeoutId ← addTimeoutByDelay now timeout .sessionTimeout arg
    let inst :=
      { inst with
        tlsSession := true
        sockFd := some fd
        label := some label
        timeoutId
        retryFactor := retryFactorConnect
        message := some .reset
        handled := [] }
    let inst ← inst.changeState (if inst.server then .handshake else .waitConnect)
    pure (inst, true)

end Instance

/-- The results of the calls which are made when a session is started. -/
structure StartAnswers where
  /-- The descriptor which is returned by the system. -/
  sockFd : Option ℕ
  label : String
  /-- Whether the instance of TLS could be created. -/
  created : Bool
  /-- The raw time. -/
  now : ℚ

/-- `CLIENT_TIMEOUT`. -/
def clientTimeout : ℚ := 16

/-- `SERVER_TIMEOUT`. -/
def serverTimeout : ℚ := 2

/-- `NKC_Start`. The request is prepared with a reset of the message. -/
def nkcStart (config : ClientConfig) (answers : StartAnswers) (arg : ℕ) (nkc : NkcInstance)
    (inst : Instance) : Ke (Instance × NkcInstance) := do
  assert .start (inst.state = .stopped ∧ !nkc.resolvingName)
  let nkc := { nkc with gotResponse := false }
  if !nkc.credentials ∨ config.siv.keyLength .aesSivCmac256 = 0 then pure (inst, nkc)
  else do
    let fd ← openSocket answers.sockFd
    match fd with
    | none => pure (inst, nkc)
    | some fd => do
        let (inst, started) ← inst.startSession arg fd answers.label answers.created answers.now
          clientTimeout
        if !started then do
          closeSocket (some fd)
          pure (inst, nkc)
        else do
          let message ← inst.getMessage
          let (session, prepared) ← callRecords
            (prepareRequest config.siv config.aeads message.session)
          let inst := { inst with message := some ⟨session, 0⟩ }
          if prepared then pure (inst, nkc)
          else do
            let inst ← inst.stopSession
            pure (inst, nkc)

/-! ### Clients and servers -/

/-- The variables of the server: whether the connections are passed to helper processes, whether it
has credentials, and the array of sessions. -/
structure Nks where
  helpers : Bool
  credentials : Bool
  sessions : List (Option ℕ)

/-- `NKS_Initialise`, for the sessions. There is no server if its credentials are not created. -/
def nksInitialise (helpers created : Bool) (connections : ℕ) : Option Nks :=
  if helpers then some ⟨true, false, List.replicate connections none⟩
  else if created then some ⟨false, true, List.replicate connections none⟩
  else none

/-- The environment and all instances: the sessions and clients by their numbers, the client of
each NTP source with NTS, and the server. -/
structure World where
  env : KeEnv
  sessions : ℕ → Option Instance
  clients : ℕ → Option NkcInstance
  allocated : ℕ
  nke : ℕ → Option ℕ
  nks : Option Nks

namespace World

/-- The state after the initialisation. -/
def init (now : ℚ) (nks : Option Nks) : World where
  env := ⟨fun _ => none, ∅, Sched.initialise now⟩
  sessions := fun _ => none
  clients := fun _ => none
  allocated := 0
  nke := fun _ => none
  nks

variable {α : Type} (config : ClientConfig) (w : World)

/-- A program over the environment. -/
def onEnv (m : Ke α) : Except KeAbort (World × α) := do
  let r ← m w.env
  .ok ({ w with env := r.2 }, r.1)

/-- A program over a session. -/
def onSession (i : ℕ) (m : Instance → Ke (Instance × α)) : Except KeAbort (World × α) :=
  match w.sessions i with
  | none => .error .noInstance
  | some inst => do
      let r ← m inst w.env
      .ok ({ w with env := r.2, sessions := Function.update w.sessions i (some r.1.1) }, r.1.2)

/-- A new session. -/
def addSession (server : Bool) : World :=
  { w with
    sessions := Function.update w.sessions w.allocated (some (createInstance server))
    allocated := w.allocated + 1 }

/-- `NKSN_DestroyInstance`. -/
def destroySession (i : ℕ) : Except KeAbort World := do
  let (w, _) ← w.onSession i fun inst => (·, ()) <$> inst.stopSession
  .ok { w with sessions := Function.update w.sessions i none }

/-- `NKC_CreateInstance`. -/
def nkcCreateInstance (credentials : Bool) : World :=
  { w.addSession false with
    clients := Function.update w.clients w.allocated (some ⟨credentials, false, false, false⟩) }

/-- `NKC_DestroyInstance`. The handler of the resolver frees the instance later, if the resolver is
running. -/
def nkcDestroyInstance (i : ℕ) : Except KeAbort World :=
  match w.clients i with
  | none => .error .noInstance
  | some nkc => do
      let w ← w.destroySession i
      .ok { w with
        clients := Function.update w.clients i
          (if nkc.resolvingName then some { nkc with destroying := true } else none) }

/-- `NKC_IsActive`. -/
def isActive (i : ℕ) : Except KeAbort Bool :=
  match w.sessions i, w.clients i with
  | some inst, some nkc => .ok (inst.state ≠ .stopped || nkc.resolvingName)
  | _, _ => .error .noInstance

/-- `name_resolve_handler`. -/
def nameResolveHandler (i : ℕ) (success : Bool) : World :=
  match w.clients i with
  | none => w
  | some nkc =>
      if !nkc.resolvingName then w
      else
        { w with
          clients := Function.update w.clients i
            (if nkc.destroying then none
            else some { nkc with
              resolvingName := false
              gotResponse := nkc.gotResponse && success }) }

/-- `NKC_Start`, for the client of a number. -/
def start (i : ℕ) (answers : StartAnswers) : Except KeAbort World :=
  match w.clients i with
  | none => .error .noInstance
  | some nkc => do
      let (w, nkc) ← w.onSession i (nkcStart config answers i nkc)
      .ok { w with clients := Function.update w.clients i (some nkc) }

/-- The end of `get_cookies`, which destroys the instance of the client when it is not active
anymore. -/
def destroyInactive (n i : ℕ) : Except KeAbort World := do
  let active ← w.isActive i
  if active then .ok w
  else do
    let w ← w.nkcDestroyInstance i
    .ok { w with nke := Function.update w.nke n none }

/-- `get_cookies` of an NTP source, for the instance of its client, which is created and started if
an attempt can be made. If that fails, it is not active. -/
def getCookies (n : ℕ) (attempt credentials : Bool) (answers : StartAnswers) :
    Except KeAbort World :=
  match w.nke n with
  | none =>
      if !attempt then .ok w
      else do
        let i := w.allocated
        let w :=
          { w.nkcCreateInstance credentials with nke := Function.update w.nke n (some i) }
        let w ← w.start config i answers
        w.destroyInactive n i
  | some i => w.destroyInactive n i

/-- `reset_instance` and `NNC_DestroyInstance`, for the instance of the client. -/
def resetInstance (n : ℕ) : Except KeAbort World :=
  match w.nke n with
  | none => .ok w
  | some i => do
      let w ← w.nkcDestroyInstance i
      .ok { w with nke := Function.update w.nke n none }

/-- The loop of `handle_client`, which finds an element of the array without a session or with a
stopped one. -/
def findSlot : ℕ → List (Option ℕ) → Except KeAbort (Option (ℕ × Option ℕ))
  | _, [] => .ok none
  | k, none :: _ => .ok (some (k, none))
  | k, some i :: slots =>
      match w.sessions i with
      | none => .error .noInstance
      | some inst =>
          if inst.state = .stopped then .ok (some (k, some i)) else findSlot (k + 1) slots

/-- `handle_client`. -/
def handleClient (nks : Nks) (answers : StartAnswers) (fd : ℕ) : Except KeAbort (World × Bool) :=
  if fd > fdSetSize / 2 then .ok (w, false)
  else do
    let slot ← w.findSlot 0 nks.sessions
    match slot with
    | none => .ok (w, false)
    | some (k, slot) =>
        let i := slot.getD w.allocated
        let w := slot.elim
          { w.addSession true with
            nks := some { nks with sessions := nks.sessions.set k (some i) } } fun _ => w
        if !nks.credentials then .error .credentials
        else
          w.onSession i
            (Instance.startSession i fd answers.label answers.created answers.now serverTimeout)

/-- `accept_connection`, if there is a server. The connection might not be permitted, and it is
closed after it was passed to a helper. -/
def acceptConnection (permitted : Bool) (answers : StartAnswers) : Except KeAbort World :=
  match w.nks with
  | none => .ok w
  | some nks => do
      let (w, fd) ← w.onEnv (openSocket answers.sockFd)
      match fd with
      | none => .ok w
      | some fd => do
          let (w, handled) ←
            if !permitted ∨ nks.helpers then .ok (w, false) else w.handleClient nks answers fd
          if handled then .ok w
          else do
            let (w, _) ← w.onEnv (closeSocket (some fd))
            .ok w

/-- `NKS_Finalise`, for the sessions. -/
def nksFinalise : Except KeAbort World :=
  match w.nks with
  | none => .ok w
  | some nks => do
      let w ← (nks.sessions.filterMap id).foldlM destroySession w
      .ok { w with nks := none }

/-! ### Events -/

/-- The dispatch of an event of a descriptor. -/
def fileEvent (fd : ℕ) (event : FileEvent) (answers : EventAnswers) : Except KeAbort World :=
  match w.env.fileHandlers fd with
  | none => .ok w
  | some ptr => do
      let (w, nkc) ← w.onSession ptr.arg
        (Instance.readWriteSocket config answers event (w.clients ptr.arg))
      .ok { w with clients := Function.update w.clients ptr.arg nkc }

/-- The dispatch of the first timeout. -/
def dispatchTimeout (now : ℚ) : Except KeAbort World :=
  match w.env.sched.timerQueue with
  | [] => .ok w
  | ptr :: _ => do
      let sched :=
        { w.env.sched with
          lastClassDispatch := Function.update w.env.sched.lastClassDispatch ptr.cls now }
      let (w, _) ← { w with env := { w.env with sched } }.onEnv (removeTimeout ptr.id)
      match ptr.handler with
      | .other => .ok w
      | .sessionTimeout => do
          let (w, _) ← w.onSession ptr.arg fun inst => (·, ()) <$> inst.sessionTimeout
          .ok w

end World

/-- An event, or a call which is made by another part of the program. -/
inductive Op
  | fileEvent (fd : ℕ) (event : FileEvent) (answers : EventAnswers)
  | timeout (now : ℚ)
  | getCookies (n : ℕ) (attempt credentials : Bool) (answers : StartAnswers)
  | resetInstance (n : ℕ)
  | nameResolved (i : ℕ) (success : Bool)
  | acceptConnection (permitted : Bool) (answers : StartAnswers)
  | nksFinalise
  | addTimeout (ts : ℚ)
  | removeTimeout (id : ℕ)
  | slew (cooked dfreq doffset : ℚ) (changeType : Sched.ChangeType)

/-- The effect of an event. The timeouts of other parts of the program are removed by their
identifiers. -/
def step (config : ClientConfig) (w : World) : Op → Except KeAbort World
  | .fileEvent fd event answers => w.fileEvent config fd event answers
  | .timeout now => w.dispatchTimeout now
  | .getCookies n attempt credentials answers => w.getCookies config n attempt credentials answers
  | .resetInstance n => w.resetInstance n
  | .nameResolved i success => .ok (w.nameResolveHandler i success)
  | .acceptConnection permitted answers => w.acceptConnection permitted answers
  | .nksFinalise => w.nksFinalise
  | .addTimeout ts =>
      Prod.fst <$> w.onEnv (callSched fun sched => Sched.addTimeout sched ts .other 0)
  | .removeTimeout id =>
      if w.env.sched.timerQueue.any fun ptr => ptr.id = id ∧ ptr.handler = .other then
        Prod.fst <$> w.onEnv (removeTimeout id)
      else .ok w
  | .slew cooked dfreq doffset changeType =>
      .ok { w with
        env := { w.env with
          sched := Sched.handleSlew w.env.sched cooked dfreq doffset changeType } }

/-- A run from the initialisation. -/
def run (config : ClientConfig) (now : ℚ) (nks : Option Nks) (ops : List Op) :
    Except KeAbort World :=
  ops.foldlM (step config) (.init now nks)

end Chrony.Nts.Nksn
