import Chrony.Nts.Framing
import Chrony.Nts.KeServer

/-!
# The Answers of the NTS-KE Server

The server answers every well-formed request, and what it answers is determined by the
records of the request: the error of the first record that has one, an error for a wrong
number of records, or a result of the negotiation with new cookies.

## Main results

* `foldl_addRecord_eq`: the loop over the records of a request.
* `addCookies_eq`: the cookies of a response are decoded to its context.
* `processRequest_eq`: the answer of the server to any request.
-/

namespace Chrony.Nts

open Lib Bytes

/-! ### Messages that can be built -/

/-- Records are added if there is space for them. -/
theorem addRecords_ok (session : Session) {records : List NewRecord}
    (hnew : session.newMessage = true) (hcomplete : session.message.complete = false)
    (hrecords : ∀ r ∈ records, r.Valid ∧ r.type ≠ nkeRecordEndOfMessage)
    (hlength : session.message.data.length + (records.flatMap NewRecord.encode).length ≤
      nkeMaxMessageLength) :
    addRecords session records = .ok ({ session with message := { session.message with
      data := session.message.data ++ records.flatMap NewRecord.encode } }, true) := by
  induction records generalizing session with
  | nil => rw [addRecords, List.flatMap_nil, List.append_nil]
  | cons r records ih =>
      obtain ⟨⟨hvalid, htype⟩, hrecords⟩ := List.forall_mem_cons.mp hrecords
      rw [List.flatMap_cons, List.length_append, length_encode] at hlength
      have hfits : ¬(r.body.length > 0xffff ∨ r.type < 0 ∨ r.type > 0x7fff ∨
          session.message.data.length + 4 + r.body.length > nkeMaxMessageLength) := by
        have hnonneg := hvalid.nonneg
        have hle := hvalid.type_le
        have hbody := hvalid.body_le
        omega
      have hadd : nksnAddRecord session r.critical r.type r.body =
          .ok ({ session with message := { session.message with
            data := session.message.data ++ r.encode } }, true) := by
        rw [nksnAddRecord, if_neg (by simp [hnew, hcomplete]), if_neg htype, addRecord,
          if_neg hfits]
        rfl
      rw [addRecords, hadd]
      have hrest := ih { session with message := { session.message with
        data := session.message.data ++ r.encode } } hnew hcomplete hrecords (by
          dsimp only
          rw [List.length_append, length_encode]
          omega)
      refine hrest.trans ?_
      rw [List.flatMap_cons, List.append_assoc]

/-- A message is ended if there is space for the last record. -/
theorem endMessage_ok (session : Session) (hcomplete : session.message.complete = false)
    (hlength : session.message.data.length + 4 ≤ nkeMaxMessageLength) :
    endMessage session = .ok ({ session with message :=
      ⟨session.message.data ++ endRecord.encode, session.message.parsed, true⟩ }, true) := by
  have hfits : ¬(([] : List Byte).length > 0xffff ∨ (nkeRecordEndOfMessage : ℤ) < 0 ∨
      (nkeRecordEndOfMessage : ℤ) > 0x7fff ∨
      session.message.data.length + 4 + ([] : List Byte).length > nkeMaxMessageLength) := by
    rw [List.length_nil, nkeRecordEndOfMessage]
    omega
  rw [endMessage, hcomplete, addRecord, if_neg hfits]
  rfl

/-- A session with a message that was built. -/
def Session.built (records : List NewRecord) : Session :=
  ⟨⟨(records ++ [endRecord]).flatMap NewRecord.encode, 0, true⟩, true⟩

/-- **A message is built** if there is space for it. -/
theorem buildMessage_ok (session : Session) {records : List NewRecord}
    (hrecords : ∀ r ∈ records, r.Valid ∧ r.type ≠ nkeRecordEndOfMessage)
    (hlength : (records.flatMap NewRecord.encode).length + 4 ≤ nkeMaxMessageLength) :
    buildMessage session records = .ok (.built records, true) := by
  have hadd := addRecords_ok (beginMessage session) rfl rfl hrecords (by
    rw [beginMessage, resetMessage, List.length_nil]
    omega)
  rw [buildMessage, hadd, Session.built, List.flatMap_append, List.flatMap_singleton]
  exact endMessage_ok ⟨⟨records.flatMap NewRecord.encode, 0, false⟩, true⟩ rfl hlength

/-! ### The records of a request -/

/-- **The error of a record** of a request. -/
def Record.offence (record : Record) : Option ℕ :=
  if record.type = nkeRecordNextProtocol then
    if !record.critical ∨ record.bodyLength < 2 ∨ record.bodyLength % 2 ≠ 0 then
      some nkeErrorBadRequest
    else none
  else if record.type = nkeRecordAeadAlgorithm then
    if record.bodyLength < 2 ∨ record.bodyLength % 2 ≠ 0 then some nkeErrorBadRequest else none
  else if record.type = nkeRecordCompliant128gcmExport then
    if record.bodyLength ≠ 0 then some nkeErrorBadRequest else none
  else if record.type = nkeRecordError ∨ record.type = nkeRecordWarning ∨
      record.type = nkeRecordCookie then
    some nkeErrorBadRequest
  else if record.critical then some nkeErrorUnrecognizedCriticalRecord
  else none

/-- The number of records of a type. -/
def countRecords (type : ℕ) (records : List Record) : ℕ :=
  records.countP fun record => record.type = type

/-- The values in all records of a type. -/
def valuesOf (type : ℕ) (records : List Record) : List ℕ :=
  records.flatMap fun record => if record.type = type then halfwords record.body else []

/-- The algorithms that the server can use. -/
def KeServer.enables (server : KeServer) (value : ℕ) : Bool :=
  value ∈ server.aeads ∧ server.siv.keyLength (sivAlgorithm value) > 0

theorem selectAead_eq (server : KeServer) (aeadAlgorithm : Option ℕ) (value : ℕ) :
    server.selectAead aeadAlgorithm value =
      aeadAlgorithm.or (if server.enables value then some value else none) := by
  rw [KeServer.selectAead, KeServer.enables]
  induction server.aeads generalizing aeadAlgorithm with
  | nil => simp
  | cons a aeads ih =>
      rw [List.foldl_cons, ih]
      cases aeadAlgorithm with
      | some v => simp
      | none =>
          by_cases ha : value = a
          · subst ha
            by_cases hlength : server.siv.keyLength (sivAlgorithm value) > 0
            · simp [hlength]
            · simp [hlength]
          · simp [ha]

/-- The algorithm is the first one that is enabled. -/
theorem foldl_selectAead (server : KeServer) (values : List ℕ) (aeadAlgorithm : Option ℕ) :
    values.foldl server.selectAead aeadAlgorithm =
      aeadAlgorithm.or (values.find? server.enables) := by
  induction values generalizing aeadAlgorithm with
  | nil => simp
  | cons value values ih =>
      rw [List.foldl_cons, ih, selectAead_eq, Option.or_assoc, List.find?_cons]
      cases server.enables value with
      | true => rfl
      | false => rfl

/-- The variables after records without an error. -/
def KeRequest.extend (server : KeServer) (request : KeRequest) (records : List Record) :
    KeRequest where
  error := none
  nextProtocolRecords :=
    request.nextProtocolRecords + countRecords nkeRecordNextProtocol records
  aeadAlgorithmRecords :=
    request.aeadAlgorithmRecords + countRecords nkeRecordAeadAlgorithm records
  nextProtocolValues :=
    request.nextProtocolValues + (valuesOf nkeRecordNextProtocol records).length
  aeadAlgorithmValues :=
    request.aeadAlgorithmValues + (valuesOf nkeRecordAeadAlgorithm records).length
  nextProtocol := request.nextProtocol || (valuesOf nkeRecordNextProtocol records).contains 0
  aeadAlgorithm :=
    request.aeadAlgorithm.or ((valuesOf nkeRecordAeadAlgorithm records).find? server.enables)
  compliant128gcm := request.compliant128gcm ||
    records.any fun record => record.type = nkeRecordCompliant128gcmExport

/-- **One turn of the loop** of `process_request`. -/
theorem addRecord_eq (server : KeServer) {request : KeRequest} (record : Record)
    (herror : request.error = none) :
    server.addRecord request record =
      match record.offence with
      | some e => { request with error := some e }
      | none => request.extend server [record] := by
  have hnone : ¬request.error.isSome := by simp [herror]
  rw [KeServer.addRecord, if_neg hnone, Record.offence]
  obtain ⟨error, n₁, n₂, n₃, n₄, nextProtocol, aeadAlgorithm, compliant⟩ := request
  dsimp only at herror
  subst herror
  split_ifs with hnext hbad haead hbad hcompliant hbad hbad hcritical
  · rfl
  · simp [KeRequest.extend, countRecords, valuesOf, hnext, nkeRecordNextProtocol,
      nkeRecordAeadAlgorithm, nkeRecordCompliant128gcmExport]
  · rfl
  · simp [KeRequest.extend, countRecords, valuesOf, haead, nkeRecordNextProtocol,
      nkeRecordAeadAlgorithm, nkeRecordCompliant128gcmExport, foldl_selectAead]
  · rfl
  · simp [KeRequest.extend, countRecords, valuesOf, hcompliant, nkeRecordNextProtocol,
      nkeRecordAeadAlgorithm, nkeRecordCompliant128gcmExport]
  · rfl
  · rfl
  · simp [KeRequest.extend, countRecords, valuesOf, hnext, haead, hcompliant]

theorem addRecord_of_error (server : KeServer) {request : KeRequest} (record : Record)
    (herror : request.error.isSome) : server.addRecord request record = request :=
  if_pos herror

theorem extend_append (server : KeServer) (request : KeRequest) (l₁ l₂ : List Record) :
    (request.extend server l₁).extend server l₂ = request.extend server (l₁ ++ l₂) := by
  simp [KeRequest.extend, countRecords, valuesOf, Nat.add_assoc, Bool.or_assoc, Option.or_assoc]

/-- **The loop of `process_request`**, up to the first record with an error. -/
theorem foldl_addRecord_eq (server : KeServer) (records : List Record) (request : KeRequest)
    (herror : request.error = none) :
    match records.findSome? Record.offence with
    | some e => (records.foldl server.addRecord request).error = some e
    | none => records.foldl server.addRecord request = request.extend server records := by
  induction records generalizing request with
  | nil =>
      obtain ⟨error, n₁, n₂, n₃, n₄, nextProtocol, aeadAlgorithm, compliant⟩ := request
      dsimp only at herror
      subst herror
      simp [KeRequest.extend, countRecords, valuesOf]
  | cons record records ih =>
      rw [List.foldl_cons, addRecord_eq server record herror, List.findSome?_cons]
      cases record.offence with
      | some e =>
          dsimp only
          have hstop : ∀ l : List Record, l.foldl server.addRecord
              { request with error := some e } = { request with error := some e } := by
            intro l
            induction l with
            | nil => rfl
            | cons r l ihl =>
                rw [List.foldl_cons, addRecord_of_error server r rfl]
                exact ihl
          rw [hstop]
      | none =>
          dsimp only
          have hrest := ih (request.extend server [record]) rfl
          rw [extend_append, List.singleton_append] at hrest
          exact hrest

/-- A request needs one record with protocols and, for NTP, one with algorithms. -/
def wrongCounts (records : List Record) : Bool :=
  countRecords nkeRecordNextProtocol records ≠ 1 ∨
    (valuesOf nkeRecordNextProtocol records).contains 0 ∧
      countRecords nkeRecordAeadAlgorithm records ≠ 1

/-- **The error of a request**: that of the first record which has one, or a wrong number of
records. -/
def requestError (records : List Record) : Option ℕ :=
  (records.findSome? Record.offence).or
    (if wrongCounts records then some nkeErrorBadRequest else none)

/-- Each record of a type with values has at least one. -/
theorem countRecords_le {type : ℕ}
    (htype : type = nkeRecordNextProtocol ∨ type = nkeRecordAeadAlgorithm)
    {records : List Record} (hok : records.findSome? Record.offence = none)
    (hbodies : ∀ record ∈ records,
      record.body.length = min nkeMaxRecordBodyLength record.bodyLength) :
    countRecords type records ≤ (valuesOf type records).length := by
  induction records with
  | nil => exact Nat.zero_le _
  | cons record records ih =>
      obtain ⟨hbody, hbodies⟩ := List.forall_mem_cons.mp hbodies
      rw [List.findSome?_cons] at hok
      cases hoffence : record.offence with
      | some e =>
          rw [hoffence] at hok
          cases hok
      | none =>
          rw [hoffence] at hok
          have hrest := ih hok hbodies
          rw [countRecords, valuesOf] at hrest ⊢
          rw [List.countP_cons, List.flatMap_cons, List.length_append]
          by_cases hrecord : record.type = type
          · have hvalue : 1 ≤ (halfwords record.body).length := by
              rw [halfwords, List.length_map, List.length_range, hbody]
              rw [Record.offence] at hoffence
              rw [nkeMaxRecordBodyLength]
              rcases htype with rfl | rfl
              · rw [if_pos hrecord] at hoffence
                have hvalid := ite_eq_right_iff.mp hoffence
                by_contra hlt
                exact absurd (hvalid (.inr (.inl (by omega)))) (by simp)
              · rw [if_neg (by rw [hrecord]; decide), if_pos hrecord] at hoffence
                have hvalid := ite_eq_right_iff.mp hoffence
                by_contra hlt
                exact absurd (hvalid (.inl (by omega))) (by simp)
            rw [if_pos (decide_eq_true hrecord), if_pos hrecord]
            omega
          · rw [if_neg (by simpa using hrecord), if_neg hrecord, List.length_nil]
            omega

/-- The check of the numbers after the loop. -/
theorem checkCounts_extend (server : KeServer) {records : List Record}
    (hok : records.findSome? Record.offence = none)
    (hbodies : ∀ record ∈ records,
      record.body.length = min nkeMaxRecordBodyLength record.bodyLength) :
    (emptyRequest.extend server records).checkCounts =
      { emptyRequest.extend server records with error := requestError records } := by
  have hnext := countRecords_le (.inl rfl) hok hbodies
  have haead := countRecords_le (.inr rfl) hok hbodies
  rw [requestError, hok, Option.none_or, KeRequest.checkCounts]
  have hiff : ((emptyRequest.extend server records).error.isNone ∧
      ((emptyRequest.extend server records).nextProtocolRecords ≠ 1 ∨
        (emptyRequest.extend server records).nextProtocolValues < 1 ∨
        ((emptyRequest.extend server records).nextProtocol ∧
          ((emptyRequest.extend server records).aeadAlgorithmRecords ≠ 1 ∨
            (emptyRequest.extend server records).aeadAlgorithmValues < 1)))) ↔
      wrongCounts records := by
    simp only [KeRequest.extend, emptyRequest, wrongCounts, Option.isNone_none, true_and,
      Nat.zero_add, Bool.false_or, decide_eq_true_eq]
    constructor
    · rintro (h | h | ⟨hntp, h | h⟩)
      · exact .inl h
      · exact .inl (by omega)
      · exact .inr ⟨hntp, h⟩
      · exact .inr ⟨hntp, by omega⟩
    · rintro (h | ⟨hntp, h⟩)
      · exact .inl h
      · exact .inr (.inr ⟨hntp, .inl h⟩)
  by_cases hwrong : wrongCounts records
  · rw [if_pos (hiff.mpr hwrong), if_pos hwrong]
  · rw [if_neg fun h => hwrong (hiff.mp h), if_neg hwrong]
    rfl

/-! ### The response -/

/-- The length of the keys gives the algorithm. -/
theorem contextAlgorithm_keyLength {siv : Siv} {algorithm : SivAlgorithm}
    (h : siv.keyLength algorithm ≠ 0) :
    contextAlgorithm (siv.keyLength algorithm) = some algorithm := by
  unfold Siv.keyLength at h ⊢
  split at h
  next hsupported =>
      rw [if_pos hsupported]
      cases algorithm with
      | aesSivCmac256 => rfl
      | aes128GcmSiv => rfl
      | invalid | aesSivCmac384 | aesSivCmac512 | aes256GcmSiv => exact absurd rfl h
  next => exact absurd rfl h

/-- The keys of an available algorithm can be exported, and a cookie can have them. -/
theorem exists_getKeys (session : KeSession) {siv : Siv} {algorithm : SivAlgorithm}
    (h : siv.keyLength algorithm ≠ 0) (exporter : SivAlgorithm) :
    ∃ context, session.getKeys siv algorithm exporter = some context ∧ context.Valid := by
  have hle := keyLength_le siv algorithm
  refine ⟨_, if_neg (by omega), ?_, ?_⟩
  · rw [List.length_map, List.length_map]
  · rw [List.length_map, List.length_range]
    exact contextAlgorithm_keyLength h

/-- The record of a cookie. -/
def cookieRecord (cookie : List Byte) : NewRecord :=
  ⟨false, nkeRecordCookie, cookie⟩

/-- **The cookies of a response** are added, and they are decoded to the context. -/
theorem addCookies_eq (server : KeServer) {context : NkeContext} (hcontext : context.Valid)
    (randoms : List (ℕ → Byte)) (session : Session) :
    ∃ cookies : List (List Byte), cookies.length = randoms.length ∧
      (∀ cookie ∈ cookies, cookie.length ≤ 100 ∧
        decodeCookie server.siv server.keys cookie = some context) ∧
      server.addCookies context randoms session =
        addRecords session (cookies.map cookieRecord) := by
  have hsound := server.keys_sound
  induction randoms generalizing session with
  | nil => exact ⟨[], rfl, nofun, rfl⟩
  | cons random randoms ih =>
      have hready := hsound.ready _ hsound.current
      obtain ⟨cookie, hcookie, hdecode⟩ := exists_cookie rfl hready hcontext random
      have hdecode := hdecode server.keys (by rw [hsound.index _ hsound.current])
      obtain ⟨key, -, hkey, -, -, hlength, -, -⟩ := decodeCookie_eq_some hdecode
      have hnonce : key.nonceLength ≤ maxCookieNonceLength := by
        have hindex : decode32 cookie % maxServerKeys < maxServerKeys := mod_maxServerKeys_lt _
        rw [hkey, (hsound.ready _ hindex).nonceLength]
        exact Nat.min_le_right _ _
      have hkeyLength : context.c2s.length ≤ 32 := by
        rcases contextAlgorithm_eq_some hcontext.2 with h | h
        · omega
        · omega
      have hle : cookie.length ≤ 100 := by
        rw [hlength, sivTagLength]
        rw [maxCookieNonceLength] at hnonce
        omega
      rw [KeServer.addCookies, hcookie]
      dsimp only
      cases hadd : nksnAddRecord session false nkeRecordCookie cookie with
      | error e =>
          -- An assertion fails in both loops.
          obtain ⟨cookies, hcount, hcookies, -⟩ := ih session
          refine ⟨cookie :: cookies, ?_, ?_, ?_⟩
          · rw [List.length_cons, List.length_cons, hcount]
          · exact List.forall_mem_cons.mpr ⟨⟨hle, hdecode⟩, hcookies⟩
          · rw [List.map_cons, addRecords, cookieRecord, hadd]
            rfl
      | ok s =>
          obtain ⟨cookies, hcount, hcookies, heq⟩ := ih s.1
          refine ⟨cookie :: cookies, ?_, ?_, ?_⟩
          · rw [List.length_cons, List.length_cons, hcount]
          · exact List.forall_mem_cons.mpr ⟨⟨hle, hdecode⟩, hcookies⟩
          · rw [List.map_cons, addRecords, cookieRecord, hadd]
            change (if s.2 then server.addCookies context randoms s.1 else .ok s) = _
            rw [heq]
            rfl

/-- **The answer** to a request with the records, and what is known of its cookies. -/
def KeServer.Answers (server : KeServer) (exportKey : ExportKey) (records : List Record)
    (answer : List NewRecord) : Prop :=
  let compliant := records.any fun record => record.type = nkeRecordCompliant128gcmExport
  match requestError records with
  | some error => answer = [⟨true, nkeRecordError, encode16 error⟩]
  | none =>
      if (valuesOf nkeRecordNextProtocol records).contains 0 then
        match (valuesOf nkeRecordAeadAlgorithm records).find? server.enables with
        | none =>
            answer = [⟨true, nkeRecordNextProtocol, encode16 0⟩, ⟨true, nkeRecordAeadAlgorithm, []⟩]
        | some aead => ∃ (context : NkeContext) (cookies : List (List Byte)),
            server.context exportKey aead compliant = some context ∧
            cookies.length = nkeMaxCookies ∧
            (∀ cookie ∈ cookies, cookie.length ≤ nkeMaxCookieLength ∧
              decodeCookie server.siv server.keys cookie = some context) ∧
            answer = server.headRecords aead compliant ++ cookies.map cookieRecord
      else answer = [⟨true, nkeRecordNextProtocol, []⟩]

theorem addRecords_append (session : Session) (l₁ l₂ : List NewRecord) :
    addRecords session (l₁ ++ l₂) = (addRecords session l₁).bind fun s =>
      if s.2 then addRecords s.1 l₂ else .ok s := by
  induction l₁ generalizing session with
  | nil => rfl
  | cons r l₁ ih =>
      rw [List.cons_append, addRecords, addRecords]
      cases nksnAddRecord session r.critical r.type r.body with
      | error e => rfl
      | ok s =>
          obtain ⟨s, added⟩ := s
          cases added with
          | false => rfl
          | true => exact ih s

/-- A record with a type of the protocol and a body which is not too long. -/
theorem newRecord_valid (critical : Bool) {type : ℕ} (htype : 0 < type ∧ type ≤ 0x7fff)
    {body : List Byte} (hbody : body.length ≤ 0xffff) :
    (NewRecord.mk critical type body).Valid ∧
      (NewRecord.mk critical type body).type ≠ nkeRecordEndOfMessage := by
  refine ⟨⟨?_, ?_, hbody⟩, ?_⟩
  · exact Int.natCast_nonneg type
  · dsimp only
    omega
  · dsimp only
    rw [nkeRecordEndOfMessage]
    omega

/-- The records of a response are valid. -/
theorem headRecords_valid (server : KeServer) (aead : ℕ) (compliant : Bool) :
    ∀ r ∈ server.headRecords aead compliant, r.Valid ∧ r.type ≠ nkeRecordEndOfMessage := by
  intro r hr
  simp only [KeServer.headRecords, List.mem_append, List.mem_cons, List.not_mem_nil,
    or_false] at hr
  rcases hr with (((rfl | rfl) | hr) | hr) | hr
  · exact newRecord_valid true (by decide) (by simp)
  · exact newRecord_valid true (by decide) (by simp)
  · split at hr
    · obtain rfl := List.mem_singleton.mp hr
      exact newRecord_valid false (by decide) (by simp)
    · cases hr
  · split at hr
    · obtain rfl := List.mem_singleton.mp hr
      exact newRecord_valid true (by decide) (by simp)
    · cases hr
  · obtain ⟨name, hname, rfl⟩ := List.mem_map.mp hr
    have hlt := server.ntpServer_lt name (Option.mem_toList.mp hname)
    rw [cpsMaxLineLength] at hlt
    exact newRecord_valid true (by decide) (by omega)

theorem headRecords_length (server : KeServer) (aead : ℕ) (compliant : Bool) :
    ((server.headRecords aead compliant).flatMap NewRecord.encode).length ≤ 3000 := by
  have hcompliant : ((if aead = aeadAes128GcmSiv ∧ compliant then
      [(⟨false, nkeRecordCompliant128gcmExport, []⟩ : NewRecord)] else []).flatMap
        NewRecord.encode).length ≤ 4 := by
    split
    · exact le_rfl
    · exact Nat.zero_le _
  have hport : ((if server.port ≠ ntpPort then
      [(⟨true, nkeRecordNtpv4PortNegotiation, encode16 server.port⟩ : NewRecord)] else []).flatMap
        NewRecord.encode).length ≤ 6 := by
    split
    · exact le_rfl
    · exact Nat.zero_le _
  have hserver : ((server.ntpServer.toList.map fun name =>
      (⟨true, nkeRecordNtpv4ServerNegotiation, name⟩ : NewRecord)).flatMap
        NewRecord.encode).length ≤ 2100 := by
    have hname := server.ntpServer_lt
    cases hcase : server.ntpServer with
    | none => exact Nat.zero_le _
    | some name =>
        have hlt := hname name hcase
        rw [cpsMaxLineLength] at hlt
        simp only [Option.toList_some, List.map_cons, List.map_nil, List.flatMap_cons,
          List.flatMap_nil, List.append_nil, length_encode]
        omega
  simp only [KeServer.headRecords, List.flatMap_append, List.flatMap_cons, List.flatMap_nil,
    List.length_append, length_encode, length_encode16, List.length_nil]
  omega

theorem cookieRecords_length {cookies : List (List Byte)}
    (h : ∀ cookie ∈ cookies, cookie.length ≤ 100) :
    ((cookies.map cookieRecord).flatMap NewRecord.encode).length ≤ 104 * cookies.length := by
  induction cookies with
  | nil => exact Nat.zero_le _
  | cons cookie cookies ih =>
      obtain ⟨hcookie, hcookies⟩ := List.forall_mem_cons.mp h
      have hrest := ih hcookies
      rw [List.map_cons, List.flatMap_cons, List.length_append, length_encode, List.length_cons]
      change 4 + cookie.length + _ ≤ _
      omega

/-- **A negotiated response** is built. -/
theorem addNegotiated_eq (server : KeServer) (exportKey : ExportKey)
    (randoms : Fin nkeMaxCookies → ℕ → Byte) {aead : ℕ} (henabled : server.enables aead)
    (compliant : Bool) (session : Session) :
    ∃ (context : NkeContext) (cookies : List (List Byte)),
      server.context exportKey aead compliant = some context ∧
      cookies.length = nkeMaxCookies ∧
      (∀ cookie ∈ cookies, cookie.length ≤ 100 ∧
        decodeCookie server.siv server.keys cookie = some context) ∧
      server.addNegotiated exportKey randoms aead compliant session = addRecords session
        (server.headRecords aead compliant ++ cookies.map cookieRecord) := by
  obtain ⟨-, hlength⟩ := of_decide_eq_true henabled
  obtain ⟨context, hcontext, hvalid⟩ := exists_getKeys ⟨[], exportKey, none⟩ hlength.ne'
    (exporterAlgorithm (sivAlgorithm aead) compliant)
  have hcontext : server.context exportKey aead compliant = some context := hcontext
  cases hadd : addRecords session (server.headRecords aead compliant) with
  | error e =>
      obtain ⟨cookies, hcount, hcookies, -⟩ :=
        addCookies_eq server hvalid (List.ofFn randoms) session
      rw [List.length_ofFn] at hcount
      refine ⟨context, cookies, hcontext, hcount, hcookies, ?_⟩
      rw [KeServer.addNegotiated, addRecords_append, hadd]
      rfl
  | ok s =>
      obtain ⟨cookies, hcount, hcookies, heq⟩ :=
        addCookies_eq server hvalid (List.ofFn randoms) s.1
      rw [List.length_ofFn] at hcount
      refine ⟨context, cookies, hcontext, hcount, hcookies, ?_⟩
      rw [KeServer.addNegotiated, addRecords_append, hadd, hcontext]
      obtain ⟨s, added⟩ := s
      cases added with
      | false => rfl
      | true => exact heq

/-- There is space for the records of a negotiated response. -/
theorem negotiated_eq (server : KeServer) (exportKey : ExportKey)
    (randoms : Fin nkeMaxCookies → ℕ → Byte) {aead : ℕ} (henabled : server.enables aead)
    (compliant : Bool) (session : Session) :
    ∃ answer, (∃ (context : NkeContext) (cookies : List (List Byte)),
        server.context exportKey aead compliant = some context ∧
        cookies.length = nkeMaxCookies ∧
        (∀ cookie ∈ cookies, cookie.length ≤ nkeMaxCookieLength ∧
          decodeCookie server.siv server.keys cookie = some context) ∧
        answer = server.headRecords aead compliant ++ cookies.map cookieRecord) ∧
      (∀ r ∈ answer, r.Valid ∧ r.type ≠ nkeRecordEndOfMessage) ∧
      (answer.flatMap NewRecord.encode).length + 4 ≤ nkeMaxMessageLength ∧
      server.addNegotiated exportKey randoms aead compliant session =
        addRecords session answer := by
  obtain ⟨context, cookies, hcontext, hcount, hcookies, heq⟩ :=
    addNegotiated_eq server exportKey randoms henabled compliant session
  refine ⟨_, ⟨context, cookies, hcontext, hcount, fun cookie hcookie => ?_, rfl⟩, ?_, ?_, heq⟩
  · obtain ⟨hle, hdecode⟩ := hcookies cookie hcookie
    exact ⟨hle.trans (by decide), hdecode⟩
  · refine List.forall_mem_append.mpr ⟨headRecords_valid server aead compliant, fun r hr => ?_⟩
    obtain ⟨cookie, hcookie, rfl⟩ := List.mem_map.mp hr
    have hle := (hcookies cookie hcookie).1
    exact newRecord_valid false (by decide) (by omega)
  · have hhead := headRecords_length server aead compliant
    have htail := cookieRecords_length fun cookie hcookie => (hcookies cookie hcookie).1
    rw [hcount, nkeMaxCookies] at htail
    rw [List.flatMap_append, List.length_append, nkeMaxMessageLength]
    omega

/-- The records of an answer can be built. -/
theorem addResponse_eq (server : KeServer) (exportKey : ExportKey)
    (randoms : Fin nkeMaxCookies → ℕ → Byte) {records : List Record}
    (hbodies : ∀ record ∈ records,
      record.body.length = min nkeMaxRecordBodyLength record.bodyLength) (session : Session) :
    ∃ answer, server.Answers exportKey records answer ∧
      (∀ r ∈ answer, r.Valid ∧ r.type ≠ nkeRecordEndOfMessage) ∧
      (answer.flatMap NewRecord.encode).length + 4 ≤ nkeMaxMessageLength ∧
      server.addResponse exportKey randoms
        (records.foldl server.addRecord emptyRequest).checkCounts session =
          addRecords session answer := by
  have hfold := foldl_addRecord_eq server records emptyRequest rfl
  have hshort : ∀ answer : List NewRecord,
      (answer.flatMap NewRecord.encode).length ≤ 12 →
      (answer.flatMap NewRecord.encode).length + 4 ≤ nkeMaxMessageLength := fun answer h => by
    rw [nkeMaxMessageLength]
    omega
  unfold KeServer.Answers
  cases hoffence : records.findSome? Record.offence with
  | some e =>
      rw [hoffence] at hfold
      have herror : requestError records = some e := by rw [requestError, hoffence]; rfl
      have hchecked : (records.foldl server.addRecord emptyRequest).checkCounts.error = some e := by
        rw [KeRequest.checkCounts, if_neg (by simp [hfold])]
        exact hfold
      rw [herror, KeServer.addResponse, hchecked]
      refine ⟨_, rfl, ?_, hshort _ (by simp [length_encode]), rfl⟩
      exact List.forall_mem_singleton.mpr (newRecord_valid true (by decide) (by simp))
  | none =>
      rw [hoffence] at hfold
      dsimp only at hfold
      rw [hfold, checkCounts_extend server hoffence hbodies, KeServer.addResponse]
      dsimp only
      cases herror : requestError records with
      | some e =>
          refine ⟨_, rfl, ?_, hshort _ (by simp [length_encode]), rfl⟩
          exact List.forall_mem_singleton.mpr (newRecord_valid true (by decide) (by simp))
      | none =>
          simp only [KeRequest.extend, emptyRequest, Bool.false_or, Option.none_or]
          cases (valuesOf nkeRecordNextProtocol records).contains 0 with
          | false =>
              simp only [Bool.not_false, Bool.false_eq_true, reduceIte]
              refine ⟨_, rfl, ?_, hshort _ (by simp [length_encode]), rfl⟩
              exact List.forall_mem_singleton.mpr (newRecord_valid true (by decide) (by simp))
          | true =>
              simp only [Bool.not_true, Bool.false_eq_true, reduceIte]
              cases hselected : (valuesOf nkeRecordAeadAlgorithm records).find? server.enables with
              | none =>
                  refine ⟨_, rfl, ?_, hshort _ (by simp [length_encode]), rfl⟩
                  refine List.forall_mem_cons.mpr ⟨newRecord_valid true (by decide) (by simp), ?_⟩
                  exact List.forall_mem_singleton.mpr (newRecord_valid true (by decide) (by simp))
              | some aead =>
                  exact negotiated_eq server exportKey randoms (List.find?_some hselected) _ session

/-- **The answer of the server** to any well-formed request. -/
theorem processRequest_eq (server : KeServer) (exportKey : ExportKey)
    (randoms : Fin nkeMaxCookies → ℕ → Byte) {records : List NewRecord}
    (hrecords : ∀ r ∈ records, r.Valid ∧ r.type ≠ nkeRecordEndOfMessage) {session : Session}
    (hmessage : session.message =
      ⟨(records ++ [endRecord]).flatMap NewRecord.encode, 0, true⟩) :
    ∃ answer,
      server.Answers exportKey (records.map (NewRecord.read nkeMaxRecordBodyLength)) answer ∧
      (∀ r ∈ answer, r.Valid ∧ r.type ≠ nkeRecordEndOfMessage) ∧
      server.processRequest exportKey randoms session = .ok (.built answer, true) := by
  have hfuel : records.length < session.message.data.length + 1 := by
    have hle := length_le_encode records
    rw [hmessage, List.flatMap_append, List.length_append]
    omega
  have hget := getRecords_complete hrecords hmessage nkeMaxRecordBodyLength hfuel
  obtain ⟨answer, hanswer, hvalid, hlength, heq⟩ := addResponse_eq server exportKey randoms
    (body_length_of_getRecords hget) (beginMessage session)
  refine ⟨answer, hanswer, hvalid, ?_⟩
  have hbuild := buildMessage_ok session hvalid hlength
  rw [buildMessage, ← heq] at hbuild
  rw [KeServer.processRequest, hget]
  exact hbuild

end Chrony.Nts
