import Chrony.Addressing
import Chrony.Nts.Session
import Chrony.Nts.ServerKeys

/-!
# The NTS-KE Client

The data which an NTS-KE session provides to the NTP client: the keys, the cookies and the
address of the NTP server. The functions are from `nts_ke_client.c`. Keys are exported from
the TLS session and the name of the server is resolved by other parts of the program.

## Main results

* `KeSession.data_valid`: what is known of the data of a session.
-/

namespace Chrony.Nts

open Lib Bytes

/-- `NKE_MAX_RECORD_BODY_LENGTH`. -/
def nkeMaxRecordBodyLength : ℕ := 256

/-- `NKE_MAX_COOKIE_LENGTH`. -/
def nkeMaxCookieLength : ℕ := 256

/-- `NKE_MAX_COOKIES`. -/
def nkeMaxCookies : ℕ := 8

/-- `NKE_RECORD_NEXT_PROTOCOL`. -/
def nkeRecordNextProtocol : ℕ := 1

/-- `NKE_RECORD_ERROR`. -/
def nkeRecordError : ℕ := 2

/-- `NKE_RECORD_WARNING`. -/
def nkeRecordWarning : ℕ := 3

/-- `NKE_RECORD_AEAD_ALGORITHM`. -/
def nkeRecordAeadAlgorithm : ℕ := 4

/-- `NKE_RECORD_COOKIE`. -/
def nkeRecordCookie : ℕ := 5

/-- `NKE_RECORD_NTPV4_SERVER_NEGOTIATION`. -/
def nkeRecordNtpv4ServerNegotiation : ℕ := 6

/-- `NKE_RECORD_NTPV4_PORT_NEGOTIATION`. -/
def nkeRecordNtpv4PortNegotiation : ℕ := 7

/-- `NKE_RECORD_COMPLIANT_128GCM_EXPORT`. -/
def nkeRecordCompliant128gcmExport : ℕ := 1024

/-- The variables of `process_response`. -/
structure KeResponse where
  error : Bool
  nextProtocol : Bool
  aeadAlgorithm : Option SivAlgorithm
  compliant128gcm : Bool
  cookies : List (List Byte)
  serverName : List Byte
  port : ℕ
  deriving DecidableEq, Repr

/-- The response before the first record. -/
def emptyResponse : KeResponse := ⟨false, false, none, false, [], [], 0⟩

/-- `isgraph`, in the C locale. -/
def isGraph (b : Byte) : Bool := 0x21 ≤ b.toNat ∧ b.toNat ≤ 0x7e

/-- The records with a single value. -/
def KeResponse.addValue (siv : Siv) (aeads : List ℕ) (response : KeResponse) (record : Record) :
    KeResponse :=
  if record.type = nkeRecordNextProtocol then
    if !record.critical ∨ record.bodyLength ≠ 2 ∨ decode16 record.body ≠ 0 then
      { response with error := true }
    else { response with nextProtocol := true }
  else if record.type = nkeRecordAeadAlgorithm then
    if record.bodyLength ≠ 2 then { response with error := true }
    else
      let algorithm := sivAlgorithm (decode16 record.body)
      let aeadAlgorithm :=
        if decode16 record.body ∈ aeads ∧ siv.keyLength algorithm > 0 then some algorithm
        else response.aeadAlgorithm
      { response with aeadAlgorithm, error := aeadAlgorithm.isNone }
  else if record.type = nkeRecordCompliant128gcmExport then
    if record.bodyLength ≠ 0 then { response with error := true }
    else { response with compliant128gcm := true }
  else if record.type = nkeRecordError ∨ record.type = nkeRecordWarning then
    { response with error := true }
  else if record.type = nkeRecordNtpv4ServerNegotiation then
    if record.bodyLength < 1 ∨ !record.body.all isGraph then { response with error := true }
    else { response with serverName := record.body }
  else if record.type = nkeRecordNtpv4PortNegotiation then
    if record.bodyLength ≠ 2 then { response with error := true }
    else { response with port := decode16 record.body }
  else if record.critical then { response with error := true }
  else response

/-- The loop body of `process_response`. -/
def KeResponse.addRecord (siv : Siv) (aeads : List ℕ) (response : KeResponse) (record : Record) :
    KeResponse :=
  if response.error then response
  else if record.bodyLength > nkeMaxRecordBodyLength then
    if record.critical then { response with error := true } else response
  else if record.type = nkeRecordCookie then
    if record.bodyLength < 1 ∨ record.bodyLength > nkeMaxCookieLength ∨
        record.bodyLength % 4 ≠ 0 ∨ response.cookies.length ≥ nkeMaxCookies then response
    else { response with cookies := response.cookies ++ [record.body] }
  else response.addValue siv aeads record

/-- The records of a received message. -/
def messageRecords (data : List Byte) : List Record :=
  (getRecords nkeMaxRecordBodyLength (data.length + 1) ⟨⟨data, 0, true⟩, false⟩).toOption.getD []

/-- `process_response`. -/
def processResponse (siv : Siv) (aeads : List ℕ) (data : List Byte) : Option KeResponse :=
  let response := (messageRecords data).foldl (KeResponse.addRecord siv aeads) emptyResponse
  if response.error ∨ response.cookies = [] ∨ !response.nextProtocol ∨
      response.aeadAlgorithm = none then none
  else some response

/-- A session of the client with what it has received: the message, the keys exported by TLS
(for an algorithm in the exporter context, and a direction), and the address of the
negotiated server, if its name was resolved. -/
structure KeSession where
  message : List Byte
  exportKey : SivAlgorithm → Bool → ℕ → Byte
  serverAddress : Option { ip : IPAddr // ip.isReal = true }

/-- `NKSN_GetKeys`. -/
def KeSession.getKeys (session : KeSession) (siv : Siv) (algorithm exporter : SivAlgorithm) :
    Option NkeContext :=
  let length := siv.keyLength algorithm
  if length = 0 ∨ length > sivMaxKeyLength then none
  else
    some ⟨algorithm, (List.range length).map (session.exportKey exporter false),
      (List.range length).map (session.exportKey exporter true)⟩

/-- The data returned by `NKC_GetNtsData`. -/
structure KeData where
  context : NkeContext
  altContext : NkeContext
  cookies : List (List Byte)
  ntpAddress : RemoteAddress

/-- A context without keys. -/
def invalidContext : NkeContext := ⟨.invalid, [], []⟩

/-- The keys in `handle_message`. With AES-128-GCM-SIV there can be an alternative set. -/
def KeSession.contexts (session : KeSession) (siv : Siv) (algorithm : SivAlgorithm)
    (compliant128gcm : Bool) : Option (NkeContext × NkeContext) := do
  if algorithm = .aes128GcmSiv ∧ !compliant128gcm then
    let altContext ← session.getKeys siv algorithm algorithm
    let context ← session.getKeys siv algorithm .aesSivCmac256
    some (context, altContext)
  else
    let context ← session.getKeys siv algorithm algorithm
    some (context, invalidContext)

/-- The address of the NTP server. It is not specified if it was not negotiated. -/
def KeSession.address (session : KeSession) (response : KeResponse) : Option RemoteAddress :=
  if response.serverName = [] then some ⟨.unspec, BitVec.ofNat 16 response.port⟩
  else session.serverAddress.map fun ip => ⟨ip.val, BitVec.ofNat 16 response.port⟩

/-- `handle_message` and `NKC_GetNtsData`. There are no data if the session failed. -/
def KeSession.data (session : KeSession) (siv : Siv) (aeads : List ℕ) : Option KeData := do
  let response ← processResponse siv aeads session.message
  let algorithm ← response.aeadAlgorithm
  let contexts ← session.contexts siv algorithm response.compliant128gcm
  let ntpAddress ← session.address response
  some ⟨contexts.1, contexts.2, response.cookies, ntpAddress⟩

/-! ### Data of a session -/

/-- A cookie which fits in `NKE_Cookie` and can be put in an extension field. -/
def IsCookie (cookie : List Byte) : Prop :=
  1 ≤ cookie.length ∧ cookie.length ≤ nkeMaxCookieLength ∧ cookie.length % 4 = 0

/-- A context with keys of the length which is required by the algorithm. -/
structure NkeContext.HasKeys (siv : Siv) (context : NkeContext) : Prop where
  pos : siv.keyLength context.algorithm ≠ 0
  c2s : context.c2s.length = siv.keyLength context.algorithm
  s2c : context.s2c.length = siv.keyLength context.algorithm

variable {siv : Siv}

theorem body_length_of_getRecords {bufferLength fuel : ℕ} {session : Session} {l : List Record}
    (h : getRecords bufferLength fuel session = .ok l) :
    ∀ record ∈ l, record.body.length = min bufferLength record.bodyLength := by
  induction fuel generalizing session l with
  | zero =>
      obtain rfl := Except.ok.inj h
      nofun
  | succ fuel ih =>
      obtain ⟨⟨session', record⟩, hget, h⟩ := bind_eq_ok_iff.mp h
      cases record with
      | none =>
          obtain rfl := Except.ok.inj h
          nofun
      | some record =>
          obtain ⟨l', hl', h⟩ := bind_eq_ok_iff.mp h
          obtain rfl := Except.ok.inj h
          refine List.forall_mem_cons.mpr ⟨?_, ih hl'⟩
          rw [nksnGetRecord, getRecord] at hget
          split at hget
          · cases hget
          · split at hget
            · cases hget
            next r message hrecord =>
                obtain ⟨⟨r', n⟩, hread, hr⟩ := Option.map_eq_some_iff.mp hrecord
                obtain ⟨rfl, -⟩ := Prod.mk.inj hr
                obtain ⟨-, hsome⟩ := Prod.mk.inj (Except.ok.inj hget)
                split at hsome
                · cases hsome
                · obtain rfl := Option.some.inj hsome
                  rw [readRecord] at hread
                  split at hread
                  · cases hread
                  · dsimp only at hread
                    split at hread
                    · cases hread
                    · obtain ⟨rfl, -⟩ := Prod.mk.inj (Option.some.inj hread)
                      dsimp only
                      rw [length_slice]
                      omega

/-- What a record other than the one with the algorithm sets. -/
structure KeResponse.Keeps (response response' : KeResponse) : Prop where
  aeadAlgorithm : response'.aeadAlgorithm = response.aeadAlgorithm
  compliant128gcm : response.compliant128gcm = true → response'.compliant128gcm = true
  cookies : response'.cookies = response.cookies

theorem KeResponse.Keeps.refl (response : KeResponse) : response.Keeps response :=
  ⟨rfl, id, rfl⟩

theorem KeResponse.Keeps.ite {response r r' : KeResponse} {p : Prop} [Decidable p]
    (h : response.Keeps r) (h' : response.Keeps r') : response.Keeps (if p then r else r') := by
  split
  · exact h
  · exact h'

/-- **What a record with a single value changes.** -/
theorem addValue_cases (siv : Siv) (aeads : List ℕ) (response : KeResponse) (record : Record) :
    response.Keeps (response.addValue siv aeads record) ∨
      record.type = nkeRecordAeadAlgorithm ∧ ∃ aeadAlgorithm error,
        response.addValue siv aeads record = { response with aeadAlgorithm, error } ∧
          ∀ algorithm, aeadAlgorithm = some algorithm →
            siv.keyLength algorithm > 0 ∨ response.aeadAlgorithm = some algorithm := by
  by_cases haead : record.type = nkeRecordAeadAlgorithm
  · have hother : record.type ≠ nkeRecordNextProtocol := by
      rw [haead]
      decide
    refine .inr ⟨haead, ?_⟩
    rw [KeResponse.addValue, if_neg hother, if_pos haead]
    split
    · exact ⟨response.aeadAlgorithm, true, rfl, fun _ => .inr⟩
    · refine ⟨_, _, rfl, fun algorithm halgorithm => ?_⟩
      split at halgorithm
      next hsupported =>
          obtain rfl := Option.some.inj halgorithm
          exact .inl hsupported.2
      next => exact .inr halgorithm
  · have herror : response.Keeps { response with error := true } := ⟨rfl, id, rfl⟩
    rw [KeResponse.addValue, if_neg haead]
    refine .inl (.ite (.ite herror ⟨rfl, id, rfl⟩) ?_)
    refine .ite (.ite herror ⟨rfl, fun _ => rfl, rfl⟩) ?_
    refine .ite herror ?_
    refine .ite (.ite herror ⟨rfl, id, rfl⟩) ?_
    exact .ite (.ite herror ⟨rfl, id, rfl⟩) (.ite herror (.refl response))

theorem addValue_cookies (aeads : List ℕ) (response : KeResponse) (record : Record) :
    (response.addValue siv aeads record).cookies = response.cookies := by
  rcases addValue_cases siv aeads response record with hkeeps | ⟨-, _, _, heq, -⟩
  · exact hkeeps.cookies
  · rw [heq]

/-- The algorithm of a response is available. -/
def KeResponse.Supported (siv : Siv) (response : KeResponse) : Prop :=
  ∀ algorithm, response.aeadAlgorithm = some algorithm → siv.keyLength algorithm ≠ 0

theorem addValue_supported {aeads : List ℕ} {response : KeResponse}
    (h : response.Supported siv) (record : Record) :
    (response.addValue siv aeads record).Supported siv := by
  rcases addValue_cases siv aeads response record with hkeeps | ⟨-, _, _, heq, hnew⟩
  · intro algorithm halgorithm
    exact h algorithm (hkeeps.aeadAlgorithm ▸ halgorithm)
  · rw [heq]
    intro algorithm halgorithm
    exact (hnew algorithm halgorithm).elim Nat.ne_of_gt (h algorithm)

/-- What is known of a response. -/
structure KeResponse.Valid (siv : Siv) (response : KeResponse) : Prop where
  cookies : ∀ cookie ∈ response.cookies, IsCookie cookie
  length : response.cookies.length ≤ nkeMaxCookies
  supported : response.Supported siv

theorem addRecord_valid {aeads : List ℕ} {response : KeResponse} {record : Record}
    (h : response.Valid siv)
    (hbody : record.body.length = min nkeMaxRecordBodyLength record.bodyLength) :
    (response.addRecord siv aeads record).Valid siv := by
  unfold KeResponse.addRecord
  split
  · exact h
  · split
    · split
      · exact ⟨h.cookies, h.length, h.supported⟩
      · exact h
    next hlength =>
        split
        · split
          · exact h
          next hcookie =>
              rw [Nat.min_eq_right (not_lt.mp hlength)] at hbody
              refine ⟨fun cookie hmem => ?_, ?_, h.supported⟩
              · rcases List.mem_append.mp hmem with hmem | hmem
                · exact h.cookies cookie hmem
                · obtain rfl := List.mem_singleton.mp hmem
                  refine ⟨?_, ?_, ?_⟩
                  · omega
                  · omega
                  · omega
              · dsimp only
                rw [List.length_append, List.length_singleton]
                omega
        · refine ⟨?_, ?_, addValue_supported h.supported record⟩
          · rw [addValue_cookies]
            exact h.cookies
          · rw [addValue_cookies]
            exact h.length

/-- The loop of `process_response`. -/
theorem foldl_addRecord_valid {aeads : List ℕ} {records : List Record} {response : KeResponse}
    (h : response.Valid siv) (hbodies : ∀ record ∈ records,
      record.body.length = min nkeMaxRecordBodyLength record.bodyLength) :
    (records.foldl (KeResponse.addRecord siv aeads) response).Valid siv := by
  induction records generalizing response with
  | nil => exact h
  | cons record records ih =>
      obtain ⟨hrecord, hbodies⟩ := List.forall_mem_cons.mp hbodies
      exact ih (addRecord_valid h hrecord) hbodies

theorem messageRecords_bodies (data : List Byte) : ∀ record ∈ messageRecords data,
    record.body.length = min nkeMaxRecordBodyLength record.bodyLength := by
  rw [messageRecords]
  cases hget : getRecords nkeMaxRecordBodyLength (data.length + 1) ⟨⟨data, 0, true⟩, false⟩ with
  | error e => nofun
  | ok l => exact body_length_of_getRecords hget

theorem processResponse_valid {aeads : List ℕ} {data : List Byte} {response : KeResponse}
    (h : processResponse siv aeads data = some response) :
    response.Valid siv ∧ response.cookies ≠ [] := by
  rw [processResponse] at h
  split at h
  · cases h
  next hok =>
      obtain rfl := Option.some.inj h
      refine ⟨?_, fun hnil => hok (.inr (.inl hnil))⟩
      exact foldl_addRecord_valid ⟨nofun, Nat.zero_le _, nofun⟩ (messageRecords_bodies data)

/-- **What is known of the data of a session.** -/
structure KeData.Valid (siv : Siv) (data : KeData) : Prop where
  cookies : ∀ cookie ∈ data.cookies, IsCookie cookie
  nonempty : data.cookies ≠ []
  length : data.cookies.length ≤ nkeMaxCookies
  context : data.context.HasKeys siv
  altContext : data.altContext.algorithm = .invalid ∨ data.altContext.HasKeys siv
  ntpAddress : data.ntpAddress.ipAddr = .unspec ∨ data.ntpAddress.ipAddr.isReal = true

theorem KeSession.address_isReal {session : KeSession} {response : KeResponse}
    {ntpAddress : RemoteAddress} (h : session.address response = some ntpAddress) :
    ntpAddress.ipAddr = .unspec ∨ ntpAddress.ipAddr.isReal = true := by
  rw [KeSession.address] at h
  split at h
  · obtain rfl := Option.some.inj h
    exact .inl rfl
  · obtain ⟨ip, -, rfl⟩ := Option.map_eq_some_iff.mp h
    exact .inr ip.property

theorem getKeys_hasKeys {session : KeSession} {algorithm exporter : SivAlgorithm}
    {context : NkeContext} (h : session.getKeys siv algorithm exporter = some context) :
    context.HasKeys siv ∧ context.algorithm = algorithm := by
  rw [KeSession.getKeys] at h
  split at h
  · cases h
  next hlength =>
      obtain rfl := Option.some.inj h
      refine ⟨⟨fun hzero => hlength (.inl hzero), ?_, ?_⟩, rfl⟩
      · dsimp only
        rw [List.length_map, List.length_range]
      · dsimp only
        rw [List.length_map, List.length_range]

theorem KeSession.data_valid {session : KeSession} {aeads : List ℕ} {data : KeData}
    (h : session.data siv aeads = some data) : data.Valid siv := by
  obtain ⟨response, hresponse, h⟩ := Option.bind_eq_some_iff.mp h
  obtain ⟨algorithm, -, h⟩ := Option.bind_eq_some_iff.mp h
  obtain ⟨contexts, hcontexts, h⟩ := Option.bind_eq_some_iff.mp h
  obtain ⟨ntpAddress, haddress, h⟩ := Option.bind_eq_some_iff.mp h
  obtain rfl := Option.some.inj h
  obtain ⟨hvalid, hne⟩ := processResponse_valid hresponse
  rw [KeSession.contexts] at hcontexts
  split at hcontexts
  · obtain ⟨alt, halt, hcontexts⟩ := Option.bind_eq_some_iff.mp hcontexts
    obtain ⟨context, hcontext, hcontexts⟩ := Option.bind_eq_some_iff.mp hcontexts
    obtain rfl := Option.some.inj hcontexts
    exact ⟨hvalid.cookies, hne, hvalid.length, (getKeys_hasKeys hcontext).1,
      .inr (getKeys_hasKeys halt).1, KeSession.address_isReal haddress⟩
  · obtain ⟨context, hcontext, hcontexts⟩ := Option.bind_eq_some_iff.mp hcontexts
    obtain rfl := Option.some.inj hcontexts
    exact ⟨hvalid.cookies, hne, hvalid.length, (getKeys_hasKeys hcontext).1, .inl rfl,
      KeSession.address_isReal haddress⟩

end Chrony.Nts
