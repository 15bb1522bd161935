import Chrony.Nts.Cookies
import Chrony.Nts.KeClient

/-!
# The NTS-KE Request and Response

The request of the client (`prepare_request` of `nts_ke_client.c`), and how the server
processes it and prepares its response (`process_request` and `prepare_response` of
`nts_ke_server.c`). Both ends export the same keys from the TLS session.
-/

namespace Chrony.Nts

open Lib Bytes

/-! ### The client -/

/-- `MAX_AEAD_ALGORITHMS`. -/
def maxAeadAlgorithms : ℕ := 4

/-- `AEAD_AES_128_GCM_SIV`. -/
def aeadAes128GcmSiv : ℕ := 30

/-- The algorithms in the request: the first ones of the configuration that are available. -/
def offeredAeads (siv : Siv) (aeads : List ℕ) : List ℕ :=
  (aeads.filter fun a : ℕ => siv.keyLength (sivAlgorithm a) > 0).take maxAeadAlgorithms

/-- The records of the request. -/
def requestRecords (siv : Siv) (aeads : List ℕ) : List NewRecord :=
  let offered := offeredAeads siv aeads
  [⟨true, nkeRecordNextProtocol, encode16 0⟩,
    ⟨true, nkeRecordAeadAlgorithm, offered.flatMap encode16⟩] ++
    if aeadAes128GcmSiv ∈ offered then [⟨false, nkeRecordCompliant128gcmExport, []⟩] else []

/-- `prepare_request`. -/
def prepareRequest (siv : Siv) (aeads : List ℕ) (session : Session) :
    Except SessionAbort (Session × Bool) :=
  buildMessage session (requestRecords siv aeads)

/-! ### The request on the server -/

/-- `NKE_ERROR_UNRECOGNIZED_CRITICAL_RECORD`. -/
def nkeErrorUnrecognizedCriticalRecord : ℕ := 0

/-- `NKE_ERROR_BAD_REQUEST`. -/
def nkeErrorBadRequest : ℕ := 1

/-- `NTP_PORT`. -/
def ntpPort : ℕ := 123

/-- `CPS_MAX_LINE_LENGTH`, with the terminating character. -/
def cpsMaxLineLength : ℕ := 2048

/-- The configuration of the server and its keys. The name of the NTP server is from a line
of the configuration, and the keys are ready to make cookies. -/
structure KeServer where
  siv : Siv
  aeads : List ℕ
  port : ℕ
  ntpServer : Option (List Byte)
  keys : KeyServer
  ntpServer_lt : ∀ name ∈ ntpServer, name.length < cpsMaxLineLength
  keys_sound : keys.Sound siv

/-- The variables of `process_request`. -/
structure KeRequest where
  error : Option ℕ
  nextProtocolRecords : ℕ
  aeadAlgorithmRecords : ℕ
  nextProtocolValues : ℕ
  aeadAlgorithmValues : ℕ
  nextProtocol : Bool
  aeadAlgorithm : Option ℕ
  compliant128gcm : Bool
  deriving DecidableEq, Repr

/-- The request before the first record. -/
def emptyRequest : KeRequest := ⟨none, 0, 0, 0, 0, false, none, false⟩

/-- The 16-bit numbers in a body. -/
def halfwords (body : List Byte) : List ℕ :=
  (List.range (body.length / 2)).map fun i => decode16 (body.drop (2 * i))

/-- The inner loop over the enabled algorithms. -/
def KeServer.selectAead (server : KeServer) (aeadAlgorithm : Option ℕ) (value : ℕ) : Option ℕ :=
  server.aeads.foldl (fun aeadAlgorithm a =>
    if value = a ∧ aeadAlgorithm = none ∧ server.siv.keyLength (sivAlgorithm value) > 0 then
      some value
    else aeadAlgorithm) aeadAlgorithm

/-- The loop body of `process_request`. -/
def KeServer.addRecord (server : KeServer) (request : KeRequest) (record : Record) : KeRequest :=
  if request.error.isSome then request
  else if record.type = nkeRecordNextProtocol then
    if !record.critical ∨ record.bodyLength < 2 ∨ record.bodyLength % 2 ≠ 0 then
      { request with error := some nkeErrorBadRequest }
    else
      let values := halfwords record.body
      { request with
        nextProtocolRecords := request.nextProtocolRecords + 1
        nextProtocolValues := request.nextProtocolValues + values.length
        nextProtocol := request.nextProtocol || values.contains 0 }
  else if record.type = nkeRecordAeadAlgorithm then
    if record.bodyLength < 2 ∨ record.bodyLength % 2 ≠ 0 then
      { request with error := some nkeErrorBadRequest }
    else
      let values := halfwords record.body
      { request with
        aeadAlgorithmRecords := request.aeadAlgorithmRecords + 1
        aeadAlgorithmValues := request.aeadAlgorithmValues + values.length
        aeadAlgorithm := values.foldl server.selectAead request.aeadAlgorithm }
  else if record.type = nkeRecordCompliant128gcmExport then
    if record.bodyLength ≠ 0 then { request with error := some nkeErrorBadRequest }
    else { request with compliant128gcm := true }
  else if record.type = nkeRecordError ∨ record.type = nkeRecordWarning ∨
      record.type = nkeRecordCookie then
    { request with error := some nkeErrorBadRequest }
  else if record.critical then
    { request with error := some nkeErrorUnrecognizedCriticalRecord }
  else request

/-- The check of the numbers of records and values after the loop. -/
def KeRequest.checkCounts (request : KeRequest) : KeRequest :=
  if request.error.isNone ∧
      (request.nextProtocolRecords ≠ 1 ∨ request.nextProtocolValues < 1 ∨
        (request.nextProtocol ∧
          (request.aeadAlgorithmRecords ≠ 1 ∨ request.aeadAlgorithmValues < 1))) then
    { request with error := some nkeErrorBadRequest }
  else request

/-! ### The response of the server -/

/-- The keys that TLS exports, for an algorithm in the exporter context and a direction. -/
abbrev ExportKey := SivAlgorithm → Bool → ℕ → Byte

/-- The algorithm in the exporter context. -/
def exporterAlgorithm (algorithm : SivAlgorithm) (compliant128gcm : Bool) : SivAlgorithm :=
  if algorithm = .aes128GcmSiv ∧ !compliant128gcm then .aesSivCmac256 else algorithm

/-- The context of the server, by `NKSN_GetKeys`. -/
def KeServer.context (server : KeServer) (exportKey : ExportKey) (aead : ℕ)
    (compliant128gcm : Bool) : Option NkeContext :=
  KeSession.getKeys ⟨[], exportKey, none⟩ server.siv (sivAlgorithm aead)
    (exporterAlgorithm (sivAlgorithm aead) compliant128gcm)

/-- The records of a negotiated response that are before the cookies. -/
def KeServer.headRecords (server : KeServer) (aead : ℕ) (compliant128gcm : Bool) :
    List NewRecord :=
  [⟨true, nkeRecordNextProtocol, encode16 0⟩, ⟨true, nkeRecordAeadAlgorithm, encode16 aead⟩] ++
    (if aead = aeadAes128GcmSiv ∧ compliant128gcm then
      [⟨false, nkeRecordCompliant128gcmExport, []⟩] else []) ++
    (if server.port ≠ ntpPort then
      [⟨true, nkeRecordNtpv4PortNegotiation, encode16 server.port⟩] else []) ++
    server.ntpServer.toList.map fun name => ⟨true, nkeRecordNtpv4ServerNegotiation, name⟩

/-- The loop of `prepare_response` that adds cookies, with the random data of each. -/
def KeServer.addCookies (server : KeServer) (context : NkeContext) :
    List (ℕ → Byte) → Session → Except SessionAbort (Session × Bool)
  | [], session => .ok (session, true)
  | random :: randoms, session =>
      match generateCookie server.siv server.keys context random with
      | none => .ok (session, false)
      | some cookie => do
          let s ← nksnAddRecord session false nkeRecordCookie cookie
          if s.2 then server.addCookies context randoms s.1 else .ok s

/-- The records and cookies of a negotiated response. -/
def KeServer.addNegotiated (server : KeServer) (exportKey : ExportKey)
    (randoms : Fin nkeMaxCookies → ℕ → Byte) (aead : ℕ) (compliant128gcm : Bool)
    (session : Session) : Except SessionAbort (Session × Bool) := do
  let s ← addRecords session (server.headRecords aead compliant128gcm)
  if !s.2 then .ok s
  else
    match server.context exportKey aead compliant128gcm with
    | none => .ok (s.1, false)
    | some context => server.addCookies context (List.ofFn randoms) s.1

/-- The records of the response, before the end of the message. -/
def KeServer.addResponse (server : KeServer) (exportKey : ExportKey)
    (randoms : Fin nkeMaxCookies → ℕ → Byte) (request : KeRequest) (session : Session) :
    Except SessionAbort (Session × Bool) :=
  match request.error with
  | some error => addRecords session [⟨true, nkeRecordError, encode16 error⟩]
  | none =>
      if !request.nextProtocol then addRecords session [⟨true, nkeRecordNextProtocol, []⟩]
      else
        match request.aeadAlgorithm with
        | none =>
            addRecords session [⟨true, nkeRecordNextProtocol, encode16 0⟩,
              ⟨true, nkeRecordAeadAlgorithm, []⟩]
        | some aead => server.addNegotiated exportKey randoms aead request.compliant128gcm session

/-- `prepare_response`. -/
def KeServer.prepareResponse (server : KeServer) (exportKey : ExportKey)
    (randoms : Fin nkeMaxCookies → ℕ → Byte) (request : KeRequest) (session : Session) :
    Except SessionAbort (Session × Bool) := do
  let s ← server.addResponse exportKey randoms request (beginMessage session)
  if s.2 then endMessage s.1 else .ok s

/-- `process_request`. -/
def KeServer.processRequest (server : KeServer) (exportKey : ExportKey)
    (randoms : Fin nkeMaxCookies → ℕ → Byte) (session : Session) :
    Except SessionAbort (Session × Bool) := do
  let records ← getRecords nkeMaxRecordBodyLength (session.message.data.length + 1) session
  let request := records.foldl server.addRecord emptyRequest
  server.prepareResponse exportKey randoms request.checkCounts session

end Chrony.Nts
