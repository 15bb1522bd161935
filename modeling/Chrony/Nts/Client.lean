import Chrony.Lib.RingBuffer
import Chrony.Nts.Auth
import Chrony.Nts.KeClient
import Mathlib.Algebra.Order.Ring.Rat
import Mathlib.Data.List.OfFn

/-!
# The NTS Client

The authentication of requests and responses of an NTP client by NTS, from
`nts_ntp_client.c`. The cookies are kept in a ring buffer. Each of them is used in a single
request, and new cookies are received in responses to replace it. Other parts of the program
are represented by what they return to the client.

## Main results

* `generateRequestAuth_cases`: what a generated request takes from the instance.
* `checkResponseAuth_cases`: what is known of an accepted response, and what is changed by
  other packets.
-/

namespace Chrony.Nts

open Lib Bytes Ntp

/-- `NTS_MIN_UNIQ_ID_LENGTH`. -/
def ntsMinUniqIdLength : ℕ := 32

/-- `NTS_MAX_COOKIES`. -/
def ntsMaxCookies : ℕ := 8

/-- `MAX_TOTAL_COOKIE_LENGTH`. -/
def maxTotalCookieLength : ℕ := 8 * 108

/-- `RETRY_INTERVAL_KE_START`. -/
def retryIntervalKeStart : ℚ := 2

/-- `NKE_MAX_RETRY_INTERVAL2`. -/
def nkeMaxRetryInterval2 : ℤ := 19

/-- `NTP_KOD_NTS_NAK`. -/
def ntpKodNtsNak : ℕ := 0x4e54534e

/-- `NTP_INVALID_STRATUM`. -/
def ntpInvalidStratum : Byte := 0

/-- `NNC_Instance`. The lengths of the nonce and the unique identifier are fixed. -/
structure NncInstance where
  ntsAddress : RemoteAddress
  name : List Char
  defaultNtpPort : BitVec 16
  ntpAddress : RemoteAddress
  /-- Whether there is an NTS-KE instance. -/
  nke : Bool
  siv : Option SivInstance
  nkeAttempts : ℕ
  nextNkeAttempt : ℚ
  lastNkeSuccess : ℚ
  context : NkeContext
  altContext : NkeContext
  contextId : BitVec 32
  cookies : ℕ → List Byte
  numCookies : ℕ
  cookieIndex : ℕ
  authReady : Bool
  nakResponse : Bool
  okResponse : Bool
  nonce : Fin ntsMinUnpaddedNonceLength → Byte
  uniqId : Fin ntsMinUniqIdLength → Byte

namespace NncInstance

/-- `reset_instance`. -/
def reset (inst : NncInstance) : NncInstance :=
  { inst with
    nke := false
    siv := none
    nkeAttempts := 0
    nextNkeAttempt := 0
    lastNkeSuccess := 0
    context := invalidContext
    altContext := invalidContext
    contextId := 0
    cookies := fun _ => []
    numCookies := 0
    cookieIndex := 0
    authReady := false
    nakResponse := false
    okResponse := true
    nonce := fun _ => 0
    uniqId := fun _ => 0 }

/-- `NNC_CreateInstance`, before saved cookies are loaded. -/
def create (ntsAddress : RemoteAddress) (name : List Char) (ntpPort : BitVec 16) : NncInstance where
  ntsAddress
  name
  defaultNtpPort := ntpPort
  ntpAddress := ⟨ntsAddress.ipAddr, ntpPort⟩
  nke := false
  siv := none
  nkeAttempts := 0
  nextNkeAttempt := 0
  lastNkeSuccess := 0
  context := invalidContext
  altContext := invalidContext
  contextId := 0
  cookies := fun _ => []
  numCookies := 0
  cookieIndex := 0
  authReady := false
  nakResponse := false
  okResponse := true
  nonce := fun _ => 0
  uniqId := fun _ => 0

/-- **The unused cookies**, in the order in which they are sent. -/
def unused (inst : NncInstance) : List (List Byte) :=
  RingBuffer.view inst.cookies inst.cookieIndex ntsMaxCookies inst.numCookies

end NncInstance

/-! ### Preparation of requests -/

/-- What `NNC_PrepareForAuth` gets from other parts of the program. -/
structure PrepareInput where
  uniqId : Fin ntsMinUniqIdLength → Byte
  nonce : Fin ntsMinUnpaddedNonceLength → Byte
  now : ℚ
  /-- The result of `NKC_Start`. -/
  started : Bool
  /-- The result of `NKC_GetRetryFactor`. -/
  retryFactor : ℤ
  /-- The result of `NKC_IsActive`. -/
  active : Bool
  /-- What was received in the NTS-KE session. -/
  session : Option KeSession
  /-- Whether `NSR_UpdateSourceNtpAddress` is successful. -/
  updated : Bool

/-- The settings of the client. -/
structure ClientConfig where
  /-- `CNF_GetNtsAeads`. -/
  aeads : List ℕ
  /-- `CNF_GetNtsRefresh`. -/
  refresh : ℕ

/-- The assertion in `get_cookies`. -/
inductive AssertFailed
  | numCookies
  deriving DecidableEq, Repr

/-- `check_cookies`. -/
def checkCookies (config : ClientConfig) (now : ℚ) (inst : NncInstance) : NncInstance × Bool :=
  if inst.numCookies > 0 ∧ ((inst.nakResponse ∧ !inst.okResponse) ∨
      now - inst.lastNkeSuccess > config.refresh) then
    if inst.altContext.algorithm ≠ .invalid ∧
        inst.altContext.algorithm = inst.context.algorithm ∧
        inst.nkeAttempts > 0 ∧ inst.nakResponse ∧ !inst.okResponse then
      ({ inst with
          context := inst.altContext
          altContext := { inst.altContext with algorithm := .invalid } }, true)
    else ({ inst with numCookies := 0 }, false)
  else (inst, inst.numCookies > 0)

/-- The address which is used for a negotiated address. -/
def NncInstance.newAddress (inst : NncInstance) (negotiated : RemoteAddress) : RemoteAddress where
  ipAddr := if negotiated.ipAddr.family = .unspec then inst.ntsAddress.ipAddr else negotiated.ipAddr
  port := if negotiated.port = 0 then inst.defaultNtpPort else negotiated.port

/-- `set_ntp_address`. The last argument is the result of `NSR_UpdateSourceNtpAddress`. -/
def setNtpAddress (inst : NncInstance) (negotiated : RemoteAddress) (updated : Bool) :
    NncInstance × Bool :=
  let newAddress := inst.newAddress negotiated
  if inst.ntpAddress.ipAddr.compareIPs newAddress.ipAddr = 0 ∧
      inst.ntpAddress.port = newAddress.port then (inst, true)
  else if !updated then (inst, false)
  else ({ inst with ntpAddress := newAddress }, true)

/-- `update_next_nke_attempt`. -/
def updateNextNkeAttempt (inst : NncInstance) (failedStart : Bool) (now : ℚ) (retryFactor : ℤ) :
    NncInstance :=
  if failedStart then { inst with nextNkeAttempt := now + retryIntervalKeStart }
  else if !inst.nke then inst
  else
    let interval := min (retryFactor + inst.nkeAttempts - 1) nkeMaxRetryInterval2
    { inst with nextNkeAttempt := now + 2 ^ interval }

/-- The array of cookies after a copy to its first slots. -/
def copyCookies (cookies : ℕ → List Byte) (l : List (List Byte)) : ℕ → List Byte :=
  fun i => if h : i < l.length then l[i] else cookies i

/-- The instance with the data of a session. -/
def NncInstance.withData (inst : NncInstance) (data : KeData) : NncInstance :=
  { inst with
    nke := false
    context := data.context
    altContext := data.altContext
    cookies := copyCookies inst.cookies data.cookies
    numCookies := data.cookies.length
    siv := none
    contextId := inst.contextId + 1 }

/-- The last part of `get_cookies`, when the session has stopped. -/
def takeCookies (siv : Siv) (config : ClientConfig) (inst : NncInstance) (input : PrepareInput) :
    NncInstance × Bool :=
  match input.session.bind (·.data siv config.aeads) with
  | none => ({ inst with nke := false }, false)
  | some data =>
      let r := setNtpAddress (inst.withData data) data.ntpAddress input.updated
      if !r.2 then ({ r.1 with numCookies := 0 }, false)
      else ({ r.1 with lastNkeSuccess := input.now, cookieIndex := 0 }, true)

/-- `get_cookies`. -/
def getCookies (siv : Siv) (config : ClientConfig) (inst : NncInstance) (input : PrepareInput) :
    Except AssertFailed (NncInstance × Bool) :=
  if inst.numCookies ≠ 0 then .error .numCookies
  else if !inst.nke ∧ input.now < inst.nextNkeAttempt then .ok (inst, false)
  else
    let failedStart := !inst.nke && !input.started
    let inst :=
      if inst.nke then inst else { inst with nke := true, nkeAttempts := inst.nkeAttempts + 1 }
    let inst := updateNextNkeAttempt inst failedStart input.now input.retryFactor
    if input.active then .ok (inst, false)
    else .ok (takeCookies siv config inst input)

/-- The last part of `NNC_PrepareForAuth`. -/
def setRequestKey (siv : Siv) (inst : NncInstance) : NncInstance × Bool :=
  let inst := { inst with nakResponse := false }
  match inst.siv.or (siv.createInstance inst.context.algorithm) with
  | none => (inst, false)
  | some s =>
      match siv.setKey s inst.context.c2s with
      | none => ({ inst with siv := some s }, false)
      | some s => ({ inst with siv := some s, authReady := true }, true)

/-- `NNC_PrepareForAuth`. -/
def prepareForAuth (siv : Siv) (config : ClientConfig) (inst : NncInstance)
    (input : PrepareInput) : Except AssertFailed (NncInstance × Bool) := do
  let inst := { inst with authReady := false, uniqId := input.uniqId, nonce := input.nonce }
  let r := checkCookies config input.now inst
  let r ← if r.2 then .ok r else getCookies siv config r.1 input
  if r.2 then .ok (setRequestKey siv r.1) else .ok (r.1, false)

/-! ### Requests -/

/-- The loop which adds blank fields. -/
def addPlaceholders (bodyLength : ℕ) :
    ℕ → List Byte × PacketInfo → Option (List Byte × PacketInfo)
  | 0, r => some r
  | n + 1, r => do
      let r ← addField r.1 r.2 ntpEfNtsCookiePlaceholder (List.replicate bodyLength 0)
      addPlaceholders bodyLength n r

/-- The number of cookies which are requested with a cookie. -/
def reqCookies (numCookies cookieLength : ℕ) : ℕ :=
  min (ntsMaxCookies - numCookies) (maxTotalCookieLength / (cookieLength + 4))

/-- The fields which are added by `NNC_GenerateRequestAuth`. -/
def addRequestFields (siv : Siv) (s : SivInstance) (uniqId nonce cookie : List Byte)
    (requested : ℕ) (packet : List Byte) (info : PacketInfo) :
    Option (List Byte × PacketInfo) := do
  let r ← addField packet info ntpEfNtsUniqueIdentifier uniqId
  let r ← addField r.1 r.2 ntpEfNtsCookie cookie
  let r ← addPlaceholders cookie.length (requested - 1) r
  generateAuthEF siv s r.1 r.2 nonce [] (ntpMaxV4MacLength + 4)

/-- `NNC_GenerateRequestAuth`. There is no packet if it fails. -/
def generateRequestAuth (siv : Siv) (inst : NncInstance) (packet : List Byte) (info : PacketInfo) :
    NncInstance × Option (List Byte × PacketInfo) :=
  if !inst.authReady then (inst, none)
  else
    let inst := { inst with authReady := false }
    match inst.siv with
    | none => (inst, none)
    | some s =>
        if inst.numCookies = 0 then (inst, none)
        else if info.mode ≠ .client then (inst, none)
        else
          let cookie := inst.cookies inst.cookieIndex
          let inst := { inst with
            numCookies := inst.numCookies - 1
            cookieIndex := (inst.cookieIndex + 1) % ntsMaxCookies }
          match addRequestFields siv s (List.ofFn inst.uniqId) (List.ofFn inst.nonce) cookie
              (reqCookies inst.numCookies cookie.length) packet info with
          | none => (inst, none)
          | some r => ({ inst with okResponse := false }, some r)

/-! ### Responses -/

/-- Why a loop over the fields of a response is left. -/
inductive ResponseError
  /-- The field cannot be parsed, which is not expected. -/
  | notExpected
  | uniqId
  | authNotLast
  | auth
  | encryptedEf
  deriving DecidableEq, Repr

/-- `parse_encrypted_efs`. -/
def parseEncryptedEfs (plaintext : List Byte) : Bool :=
  (forItems (parseSingleField plaintext plaintext.length) () plaintext.length
    (fun _ _ => .ok ()) plaintext.length 0 ()).toBool

/-- Whether a field in the plaintext has an acceptable cookie. -/
def isCookieField (field : ExtField) : Bool :=
  field.type = ntpEfNtsCookie ∧
    ¬(field.bodyLength + 4 < ntpMinEfLength ∨ field.bodyLength > nkeMaxCookieLength)

/-- A cookie is added at the end of the ring buffer, if there is a free slot. -/
def NncInstance.addCookie (inst : NncInstance) (cookie : List Byte) : NncInstance :=
  if inst.numCookies ≥ ntsMaxCookies then inst
  else
    { inst with
      cookies := Function.update inst.cookies
        (RingBuffer.pos inst.cookieIndex ntsMaxCookies inst.numCookies) cookie
      numCookies := inst.numCookies + 1 }

/-- The loop of `extract_cookies`. -/
def extractLoop (plaintext : List Byte) : ℕ → ℕ → NncInstance → ℕ → NncInstance × Bool
  | 0, _, inst, _ => (inst, false)
  | fuel + 1, parsed, inst, acceptable =>
      if parsed < plaintext.length then
        match parseSingleField plaintext plaintext.length parsed with
        | none => (inst, false)
        | some (field, efLength) =>
            if isCookieField field then
              extractLoop plaintext fuel (parsed + efLength) (inst.addCookie field.body)
                (acceptable + 1)
            else extractLoop plaintext fuel (parsed + efLength) inst acceptable
      else (inst, acceptable > 0)

/-- `extract_cookies`. -/
def extractCookies (inst : NncInstance) (plaintext : List Byte) : NncInstance × Bool :=
  extractLoop plaintext (plaintext.length + 1) 0 inst 0

/-- The variables of the loop over the fields of a response. -/
structure ResponseFields where
  hasValidUniqId : Bool
  hasValidAuth : Bool
  plaintext : List Byte
  deriving DecidableEq, Repr

/-- The loop body of `NNC_CheckResponseAuth`. -/
def checkResponseField (siv : Siv) (s : SivInstance) (uniqId packet : List Byte)
    (info : PacketInfo) (r : ResponseFields) (field : ExtField) :
    Except ResponseError ResponseFields :=
  if field.type = ntpEfNtsUniqueIdentifier then
    if field.bodyLength ≠ ntsMinUniqIdLength ∨ field.body ≠ uniqId then .error .uniqId
    else .ok { r with hasValidUniqId := true }
  else if field.type = ntpEfNtsAuthAndEef then
    if field.start + (field.bodyLength + 4) ≠ info.length then .error .authNotLast
    else
      match decryptAuthEF siv s packet info field.start ntpMaxExtensionsLength with
      | none => .error .auth
      | some plaintext =>
          if !parseEncryptedEfs plaintext then .error .encryptedEf
          else .ok { r with hasValidAuth := true, plaintext }
  else .ok r

/-- The loop of `NNC_CheckResponseAuth`. -/
def checkResponseFields (siv : Siv) (s : SivInstance) (uniqId packet : List Byte)
    (info : PacketInfo) : Except ResponseError ResponseFields :=
  forItems (parseField packet info.length) .notExpected info.length
    (checkResponseField siv s uniqId packet info) info.length ntpHeaderLength ⟨false, false, []⟩

/-- Whether the header of a packet has the code of an NTS NAK. -/
def isNtsNak (packet : List Byte) : Bool :=
  packet.getD 1 0 = ntpInvalidStratum ∧ decode32 (packet.drop 12) = ntpKodNtsNak

/-- The last part of `NNC_CheckResponseAuth`, after the loop. -/
def acceptResponse (inst : NncInstance) (packet : List Byte) (r : ResponseFields) :
    NncInstance × Bool :=
  if !r.hasValidUniqId ∨ !r.hasValidAuth then
    if r.hasValidUniqId ∧ isNtsNak packet then ({ inst with nakResponse := true }, false)
    else (inst, false)
  else
    let extracted := extractCookies inst r.plaintext
    if !extracted.2 then (extracted.1, false)
    else
      ({ extracted.1 with
          okResponse := true
          nkeAttempts := 0
          nextNkeAttempt := 0
          altContext := { extracted.1.altContext with algorithm := .invalid } }, true)

/-- `NNC_CheckResponseAuth`. -/
def checkResponseAuth (siv : Siv) (inst : NncInstance) (packet : List Byte) (info : PacketInfo) :
    NncInstance × Bool :=
  if info.extFields = 0 ∨ info.mode ≠ .server then (inst, false)
  else if inst.okResponse ∨ inst.authReady then (inst, false)
  else
    match inst.siv.bind (siv.setKey · inst.context.s2c) with
    | none => (inst, false)
    | some s =>
        let inst := { inst with siv := some s }
        match checkResponseFields siv s (List.ofFn inst.uniqId) packet info with
        | .error _ => (inst, false)
        | .ok r => acceptResponse inst packet r

/-! ### The ring buffer -/

variable {siv : Siv} {inst : NncInstance}

theorem addCookie_eq (inst : NncInstance) (cookie : List Byte) : ∃ cookies n,
    inst.addCookie cookie = { inst with cookies := cookies, numCookies := n } := by
  unfold NncInstance.addCookie
  split
  · exact ⟨_, _, rfl⟩
  · exact ⟨_, _, rfl⟩

/-- **A cookie is added after the others**, or it is dropped. -/
theorem addCookie_unused (hle : inst.numCookies ≤ ntsMaxCookies) (cookie : List Byte) :
    (inst.addCookie cookie).unused = (inst.unused ++ [cookie]).take ntsMaxCookies ∧
      (inst.addCookie cookie).numCookies ≤ ntsMaxCookies := by
  have hlength : inst.unused.length = inst.numCookies := RingBuffer.length_view ..
  rw [NncInstance.addCookie]
  split
  next hfull =>
      refine ⟨?_, hle⟩
      rw [List.take_append_of_le_length (by omega), List.take_of_length_le (by omega)]
  next hfree =>
      refine ⟨?_, Nat.lt_of_not_le hfree⟩
      rw [List.take_of_length_le (by rw [List.length_append, List.length_singleton]; omega)]
      exact RingBuffer.view_push inst.cookies cookie (Nat.lt_of_not_le hfree)

theorem foldl_addCookie_eq (inst : NncInstance) (l : List (List Byte)) : ∃ cookies n,
    l.foldl NncInstance.addCookie inst = { inst with cookies := cookies, numCookies := n } := by
  induction l generalizing inst with
  | nil => exact ⟨_, _, rfl⟩
  | cons cookie l ih =>
      obtain ⟨cookies, n, hadd⟩ := addCookie_eq inst cookie
      obtain ⟨cookies', n', hfold⟩ := ih (inst.addCookie cookie)
      refine ⟨cookies', n', ?_⟩
      rw [List.foldl_cons, hfold, hadd]

/-- **Cookies are added after the others**, as long as there are free slots. -/
theorem foldl_addCookie_unused (hle : inst.numCookies ≤ ntsMaxCookies) (l : List (List Byte)) :
    (l.foldl NncInstance.addCookie inst).unused = (inst.unused ++ l).take ntsMaxCookies ∧
      (l.foldl NncInstance.addCookie inst).numCookies ≤ ntsMaxCookies := by
  induction l generalizing inst with
  | nil =>
      refine ⟨?_, hle⟩
      rw [List.append_nil, List.foldl_nil, List.take_of_length_le]
      exact (RingBuffer.length_view ..).trans_le hle
  | cons cookie l ih =>
      obtain ⟨hunused, hadd⟩ := addCookie_unused hle cookie
      obtain ⟨hfold, hfoldle⟩ := ih hadd
      refine ⟨?_, hfoldle⟩
      rw [List.foldl_cons, hfold, hunused, List.append_cons inst.unused cookie l]
      generalize inst.unused ++ [cookie] = unused
      rw [List.take_append, List.take_append, List.take_take, Nat.min_self, List.length_take]
      congr 2
      omega

/-! ### Responses -/

/-- The cookies in the fields of a plaintext. -/
def cookieBodies (fields : List ExtField) : List (List Byte) :=
  (fields.filter isCookieField).map ExtField.body

/-- **The cookies of fields which fill the plaintext are added.** -/
theorem extractLoop_eq {plaintext : List Byte} {fields : List ExtField} {fuel parsed stop : ℕ}
    (h : Scan (parseSingleField plaintext plaintext.length) parsed fields stop)
    (hstop : stop = plaintext.length) (hfuel : plaintext.length - parsed < fuel)
    (inst : NncInstance) (acceptable : ℕ) :
    extractLoop plaintext fuel parsed inst acceptable =
      ((cookieBodies fields).foldl NncInstance.addCookie inst,
        decide (0 < acceptable + (cookieBodies fields).length)) := by
  induction h generalizing fuel inst acceptable with
  | nil =>
      subst hstop
      obtain ⟨fuel, rfl⟩ : ∃ n, fuel = n + 1 := ⟨fuel - 1, by omega⟩
      rw [extractLoop, if_neg (Nat.lt_irrefl _)]
      rfl
  | @cons p q n field l hfield h ih =>
      subst hstop
      obtain ⟨fuel, rfl⟩ : ∃ n, fuel = n + 1 := ⟨fuel - 1, by omega⟩
      have hbounds := parseSingleField_bounds hfield
      rw [extractLoop, if_pos (by omega), hfield]
      dsimp only
      split
      next hcookie =>
          have hbodies : cookieBodies (field :: l) = field.body :: cookieBodies l := by
            rw [cookieBodies, List.filter_cons_of_pos hcookie]
            rfl
          rw [ih rfl (by omega), hbodies, List.length_cons, List.foldl_cons,
            Nat.add_assoc, Nat.add_comm 1]
      next hother =>
          have hbodies : cookieBodies (field :: l) = cookieBodies l := by
            rw [cookieBodies, List.filter_cons_of_neg hother]
            rfl
          rw [ih rfl (by omega), hbodies]

theorem parseEncryptedEfs_scan {plaintext : List Byte} (h : parseEncryptedEfs plaintext = true) :
    ∃ fields, Scan (parseSingleField plaintext plaintext.length) 0 fields plaintext.length := by
  rw [parseEncryptedEfs] at h
  cases hloop : forItems (parseSingleField plaintext plaintext.length) () plaintext.length
      (fun _ _ => .ok ()) plaintext.length 0 () with
  | error e =>
      rw [hloop] at h
      cases h
  | ok r =>
      obtain ⟨fields, hscan, -⟩ := exists_scan (fun p a n ha => (parseSingleField_bounds ha).2.2.1)
        (Nat.zero_le _) hloop
      exact ⟨fields, hscan⟩

/-- **An authenticated response**: it has the unique identifier, and its last field is an
authenticator of the packet before it. The plaintext is filled with fields. -/
structure IsAuthenticated (siv : Siv) (algorithm : SivAlgorithm) (key uniqId packet : List Byte)
    (info : PacketInfo) (plaintext : List Byte) : Prop where
  fields : ∃ before auth, Scan (parseField packet info.length) ntpHeaderLength (before ++ [auth])
      info.length ∧
    (∃ field ∈ before ++ [auth], field.type = ntpEfNtsUniqueIdentifier ∧ field.body = uniqId) ∧
    auth.type = ntpEfNtsAuthAndEef ∧
    ∃ content, readAuthEF algorithm packet info auth.start ntpMaxExtensionsLength = some content ∧
      siv.decrypt algorithm key content.nonce (packet.take auth.start) content.ciphertext =
        some plaintext
  encrypted : ∃ fields,
    Scan (parseSingleField plaintext plaintext.length) 0 fields plaintext.length

section Loop

variable {s : SivInstance} {uniqId packet : List Byte} {info : PacketInfo}
  {r r' : ResponseFields} {field : ExtField} {fields : List ExtField}

/-- What the loop body finds in a field. -/
theorem checkResponseField_cases
    (h : checkResponseField siv s uniqId packet info r field = .ok r') :
    (field.type = ntpEfNtsUniqueIdentifier ∧ field.body = uniqId ∧
      r' = { r with hasValidUniqId := true }) ∨
    (field.type = ntpEfNtsAuthAndEef ∧ field.start + (field.bodyLength + 4) = info.length ∧
      ∃ plaintext, decryptAuthEF siv s packet info field.start ntpMaxExtensionsLength =
          some plaintext ∧ parseEncryptedEfs plaintext = true ∧
        r' = { r with hasValidAuth := true, plaintext := plaintext }) ∨ r' = r := by
  rw [checkResponseField] at h
  split at h
  next htype =>
      split at h
      · cases h
      next hmatch =>
          obtain rfl := Except.ok.inj h
          exact .inl ⟨htype, not_not.mp (not_or.mp hmatch).2, rfl⟩
  next =>
      split at h
      next htype =>
          split at h
          · cases h
          next hlast =>
              split at h
              · cases h
              next plaintext hdecrypt =>
                  split at h
                  · cases h
                  next hparse =>
                      obtain rfl := Except.ok.inj h
                      refine .inr (.inl ⟨htype, not_not.mp hlast, plaintext, hdecrypt, ?_, rfl⟩)
                      simpa using hparse
      next => exact .inr (.inr (Except.ok.inj h).symm)

/-- The unique identifier is in one of the fields. -/
theorem exists_uniqId (h : fields.foldlM (checkResponseField siv s uniqId packet info) r = .ok r')
    (hbefore : r.hasValidUniqId = false) (hafter : r'.hasValidUniqId = true) :
    ∃ field ∈ fields, field.type = ntpEfNtsUniqueIdentifier ∧ field.body = uniqId := by
  induction fields generalizing r with
  | nil =>
      obtain rfl := Except.ok.inj h
      cases hbefore.symm.trans hafter
  | cons field fields ih =>
      rw [List.foldlM_cons] at h
      obtain ⟨r₁, hfield, hrest⟩ := bind_eq_ok_iff.mp h
      rcases checkResponseField_cases hfield with
        ⟨htype, hbody, -⟩ | ⟨-, -, plaintext, -, -, rfl⟩ | rfl
      · exact ⟨field, List.mem_cons_self, htype, hbody⟩
      · obtain ⟨field', hmem, hfield'⟩ := ih hrest hbefore
        exact ⟨field', List.mem_cons_of_mem _ hmem, hfield'⟩
      · obtain ⟨field', hmem, hfield'⟩ := ih hrest hbefore
        exact ⟨field', List.mem_cons_of_mem _ hmem, hfield'⟩

/-- **The authenticator is the last field**, because it ends at the end of the packet. -/
theorem exists_auth {start stop : ℕ}
    (hscan : Scan (parseField packet info.length) start fields stop) (hstop : stop = info.length)
    (h : fields.foldlM (checkResponseField siv s uniqId packet info) r = .ok r')
    (hbefore : r.hasValidAuth = false) (hafter : r'.hasValidAuth = true) :
    ∃ before auth, fields = before ++ [auth] ∧ auth.type = ntpEfNtsAuthAndEef ∧
      decryptAuthEF siv s packet info auth.start ntpMaxExtensionsLength = some r'.plaintext ∧
      parseEncryptedEfs r'.plaintext = true := by
  induction hscan generalizing r with
  | nil =>
      obtain rfl := Except.ok.inj h
      cases hbefore.symm.trans hafter
  | @cons p q n field fields hfield hscan ih =>
      rw [List.foldlM_cons] at h
      obtain ⟨r₁, hbody, hrest⟩ := bind_eq_ok_iff.mp h
      rcases checkResponseField_cases hbody with
        ⟨-, -, rfl⟩ | ⟨htype, hend, plaintext, hdecrypt, hparse, rfl⟩ | rfl
      · obtain ⟨before, auth, rfl, hauth⟩ := ih hstop hrest hbefore
        exact ⟨field :: before, auth, rfl, hauth⟩
      · have hbounds := parseField_bounds hfield
        -- there are no data after the authenticator
        cases hscan with
        | nil =>
            obtain rfl := Except.ok.inj hrest
            exact ⟨[], field, rfl, htype, hdecrypt, hparse⟩
        | cons hnext _ =>
            have := parseField_bounds hnext
            omega
      · obtain ⟨before, auth, rfl, hauth⟩ := ih hstop hrest hbefore
        exact ⟨field :: before, auth, rfl, hauth⟩

theorem parseField_pos (packet : List Byte) (length p : ℕ) (field : ExtField) (n : ℕ)
    (h : parseField packet length p = some (field, n)) : 0 < n := by
  have := parseField_bounds h
  omega

theorem parseField_le (packet : List Byte) (length p : ℕ) (field : ExtField) (n : ℕ)
    (h : parseField packet length p = some (field, n)) : p + n ≤ length :=
  (parseField_bounds h).2.2.1

/-- **What is known of a packet which passes the loop** with both fields. -/
theorem checkResponseFields_authenticated
    (h : checkResponseFields siv s uniqId packet info = .ok r)
    (huniqId : r.hasValidUniqId = true) (hauth : r.hasValidAuth = true) : ∃ key,
    s.key = some key ∧ IsAuthenticated siv s.algorithm key uniqId packet info r.plaintext := by
  have hlength : ntpHeaderLength ≤ info.length := by
    by_contra hlt
    rw [checkResponseFields, forItems_of_le (by omega)] at h
    obtain rfl := Except.ok.inj h
    cases huniqId
  obtain ⟨fields, hscan, hfold⟩ := exists_scan (parseField_le packet info.length) hlength h
  have hexists := exists_uniqId hfold rfl huniqId
  obtain ⟨before, auth, rfl, htype, hdecrypt, hparse⟩ := exists_auth hscan rfl hfold rfl hauth
  obtain ⟨content, key, hread, hkey, hplaintext⟩ := decryptAuthEF_eq_some hdecrypt
  refine ⟨key, hkey, ⟨before, auth, hscan, hexists, htype, content, hread, hplaintext⟩, ?_⟩
  exact parseEncryptedEfs_scan hparse

end Loop

/-- An instance after an accepted response. -/
def NncInstance.accepted (inst : NncInstance) (cookies : List (List Byte)) : NncInstance :=
  let inst := cookies.foldl NncInstance.addCookie inst
  { inst with
    okResponse := true
    nkeAttempts := 0
    nextNkeAttempt := 0
    altContext := { inst.altContext with algorithm := .invalid } }

theorem accepted_ntsAddress (inst : NncInstance) (l : List (List Byte)) :
    (inst.accepted l).ntsAddress = inst.ntsAddress := by
  obtain ⟨cookies, n, heq⟩ := foldl_addCookie_eq inst l
  rw [NncInstance.accepted, heq]

/-- **What `NNC_CheckResponseAuth` does.** The packet is not accepted, or it is an authenticated
response with cookies. -/
theorem checkResponseAuth_cases (siv : Siv) (inst : NncInstance) (packet : List Byte)
    (info : PacketInfo) :
    (∃ s nak, checkResponseAuth siv inst packet info =
        ({ inst with siv := s, nakResponse := nak }, false) ∧
      (s = inst.siv ∨
        ∃ s₀, inst.siv = some s₀ ∧ s = some { s₀ with key := some inst.context.s2c })) ∨
    ∃ s plaintext fields, inst.siv = some s ∧ inst.okResponse = false ∧ inst.authReady = false ∧
      IsAuthenticated siv s.algorithm inst.context.s2c (List.ofFn inst.uniqId) packet info
        plaintext ∧
      Scan (parseSingleField plaintext plaintext.length) 0 fields plaintext.length ∧
      checkResponseAuth siv inst packet info =
        ({ inst with siv := some { s with key := some inst.context.s2c } }.accepted
          (cookieBodies fields), true) := by
  rw [checkResponseAuth]
  split
  · exact .inl ⟨inst.siv, inst.nakResponse, rfl, .inl rfl⟩
  · split
    · exact .inl ⟨inst.siv, inst.nakResponse, rfl, .inl rfl⟩
    next hready =>
        split
        · exact .inl ⟨inst.siv, inst.nakResponse, rfl, .inl rfl⟩
        next s hs =>
            obtain ⟨s₀, hs₀, hset⟩ := Option.bind_eq_some_iff.mp hs
            obtain ⟨rfl, -⟩ := setKey_eq_some hset
            have hkey : some { s₀ with key := some inst.context.s2c } = inst.siv ∨
                ∃ s₁, inst.siv = some s₁ ∧ some { s₀ with key := some inst.context.s2c } =
                  some { s₁ with key := some inst.context.s2c } := .inr ⟨s₀, hs₀, rfl⟩
            dsimp only
            split
            · exact .inl ⟨_, inst.nakResponse, rfl, hkey⟩
            next r hr =>
                rw [acceptResponse]
                split
                · split
                  · exact .inl ⟨_, true, rfl, hkey⟩
                  · exact .inl ⟨_, inst.nakResponse, rfl, hkey⟩
                next hvalid =>
                    simp only [Bool.not_eq_true', not_or, Bool.not_eq_false] at hvalid hready
                    obtain ⟨key, hsome, hauth⟩ :=
                      checkResponseFields_authenticated hr hvalid.1 hvalid.2
                    obtain rfl := Option.some.inj hsome
                    obtain ⟨fields, hfields⟩ := hauth.encrypted
                    have hextract : extractCookies
                        { inst with siv := some { s₀ with key := some inst.context.s2c } }
                        r.plaintext = _ :=
                      extractLoop_eq hfields rfl (Nat.lt_succ_self _) _ 0
                    rw [hextract]
                    dsimp only
                    split
                    next hnone =>
                        have hnil : cookieBodies fields = [] := by
                          simpa using hnone
                        rw [hnil]
                        exact .inl ⟨_, inst.nakResponse, rfl, hkey⟩
                    next =>
                        refine .inr ⟨s₀, r.plaintext, fields, hs₀, ?_, ?_, hauth, hfields, rfl⟩
                        · simpa using hready.1
                        · simpa using hready.2

/-! ### Requests -/

/-- An instance without its first cookie. -/
def NncInstance.dropCookie (inst : NncInstance) : NncInstance :=
  { inst with
    numCookies := inst.numCookies - 1
    cookieIndex := (inst.cookieIndex + 1) % ntsMaxCookies }

/-- **The first cookie is used.** -/
theorem unused_eq_cons (h : 0 < inst.numCookies) :
    inst.unused = inst.cookies (inst.cookieIndex % ntsMaxCookies) :: inst.dropCookie.unused := by
  obtain ⟨n, hn⟩ : ∃ n, inst.numCookies = n + 1 := ⟨inst.numCookies - 1, by omega⟩
  have hdrop : inst.dropCookie.unused =
      (RingBuffer.view inst.cookies inst.cookieIndex ntsMaxCookies (n + 1)).tail := by
    rw [← RingBuffer.view_advance, NncInstance.unused, NncInstance.dropCookie, hn]
    rfl
  rw [hdrop, NncInstance.unused, hn, RingBuffer.view, List.range_succ_eq_map]
  rfl

/-- **What `NNC_GenerateRequestAuth` does.** It can fail before or after the first cookie was
taken. A request has the cookie and the unique identifier. -/
theorem generateRequestAuth_cases (siv : Siv) (inst : NncInstance) (packet : List Byte)
    (info : PacketInfo) :
    generateRequestAuth siv inst packet info = ({ inst with authReady := false }, none) ∨
    (0 < inst.numCookies ∧ generateRequestAuth siv inst packet info =
      ({ inst.dropCookie with authReady := false }, none)) ∨
    ∃ s r, 0 < inst.numCookies ∧ inst.siv = some s ∧ inst.authReady = true ∧
      info.mode = .client ∧
      addRequestFields siv s (List.ofFn inst.uniqId) (List.ofFn inst.nonce)
        (inst.cookies inst.cookieIndex)
        (reqCookies (inst.numCookies - 1) (inst.cookies inst.cookieIndex).length) packet info =
          some r ∧
      generateRequestAuth siv inst packet info =
        ({ inst.dropCookie with authReady := false, okResponse := false }, some r) := by
  rw [generateRequestAuth]
  split
  next hready =>
      refine .inl (congrArg (fun x => (x, none)) ?_)
      obtain ⟨_, _⟩ := inst
      simp_all
  next hready =>
      dsimp only
      split
      · exact .inl rfl
      next s hs =>
          split
          · exact .inl rfl
          next hnum =>
              split
              · exact .inl rfl
              next hmode =>
                  split
                  · exact .inr (.inl ⟨Nat.pos_of_ne_zero hnum, rfl⟩)
                  next r hr =>
                      refine .inr (.inr ⟨s, r, Nat.pos_of_ne_zero hnum, hs, ?_, not_not.mp hmode,
                        hr, rfl⟩)
                      simpa using hready

/-! ### Packets for tests -/

/-- An NTPv4 header with a mode, and its information. -/
def sampleHeader (mode : ℕ) : List Byte × PacketInfo :=
  (BitVec.ofNat 8 (0x20 + mode) :: List.replicate 47 0,
    ⟨ntpHeaderLength, 4, ntpMode mode, 0, 0, .none, none⟩)

end Chrony.Nts
