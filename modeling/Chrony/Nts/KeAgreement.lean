import Chrony.Nts.KeAnswer

/-!
# The NTS-KE Agreement

What a client and a server agree on. If the client accepts the response of the server, it has
the algorithm and the keys of the server, and its cookies have these keys.

## Main results

* `answers_request`: the answer of the server to the request of a client.
* `data_negotiated`: the context of the client.
* `ke_agreement`: the agreement of the client and the server.
-/

namespace Chrony.Nts

open Lib Bytes

/-! ### The request of a client -/

/-- The offered algorithms are known ones, so they fit in 16 bits. -/
theorem offeredAeads_spec {siv : Siv} {aeads : List ℕ} {aead : ℕ}
    (h : aead ∈ offeredAeads siv aeads) :
    aead ∈ aeads ∧ siv.keyLength (sivAlgorithm aead) > 0 ∧ aead < 65536 := by
  obtain ⟨hmem, hlength⟩ := List.mem_filter.mp (List.mem_of_mem_take h)
  have hlength := of_decide_eq_true hlength
  refine ⟨hmem, hlength, ?_⟩
  by_contra hlarge
  have hinvalid : sivAlgorithm aead = .invalid := by
    unfold sivAlgorithm
    split
    any_goals omega
    rfl
  rw [hinvalid, Siv.keyLength] at hlength
  · split at hlength
    · exact absurd hlength (by decide)
    · exact absurd hlength (by decide)
  · simp
  · simp

theorem halfwords_encode {values : List ℕ} (h : ∀ value ∈ values, value < 65536) :
    halfwords (values.flatMap encode16) = values := by
  induction values with
  | nil => rfl
  | cons value values ih =>
      obtain ⟨hvalue, hvalues⟩ := List.forall_mem_cons.mp h
      have hlength : ((value :: values).flatMap encode16).length / 2 =
          (values.flatMap encode16).length / 2 + 1 := by
        rw [List.flatMap_cons, List.length_append, length_encode16]
        omega
      rw [halfwords, hlength, List.range_succ_eq_map, List.map_cons, List.map_map]
      refine congrArg₂ List.cons ?_ ?_
      · rw [Nat.mul_zero, List.drop_zero, List.flatMap_cons]
        exact decode16_encode16_of_lt hvalue _
      · refine Eq.trans ?_ (ih hvalues)
        rw [halfwords]
        refine List.map_congr_left fun i _ => congrArg decode16 ?_
        rw [List.flatMap_cons, show 2 * Nat.succ i = 2 + 2 * i by omega, ← List.drop_drop]
        rfl

theorem length_flatMap_encode16 (values : List ℕ) :
    (values.flatMap encode16).length = 2 * values.length := by
  induction values with
  | nil => rfl
  | cons value values ih =>
      rw [List.flatMap_cons, List.length_append, length_encode16, ih, List.length_cons]
      omega

theorem length_offeredAeads (siv : Siv) (aeads : List ℕ) :
    (offeredAeads siv aeads).length ≤ maxAeadAlgorithms := by
  rw [offeredAeads, List.length_take]
  exact Nat.min_le_left _ _

theorem requestRecords_valid (siv : Siv) (aeads : List ℕ) :
    ∀ r ∈ requestRecords siv aeads, r.Valid ∧ r.type ≠ nkeRecordEndOfMessage := by
  have hoffered := length_offeredAeads siv aeads
  rw [maxAeadAlgorithms] at hoffered
  intro r hr
  simp only [requestRecords, List.mem_append, List.mem_cons, List.not_mem_nil, or_false] at hr
  rcases hr with (rfl | rfl) | hr
  · exact newRecord_valid true (by decide) (by simp)
  · exact newRecord_valid true (by decide) (by rw [length_flatMap_encode16]; omega)
  · split at hr
    · obtain rfl := List.mem_singleton.mp hr
      exact newRecord_valid false (by decide) (by simp)
    · cases hr

/-- **The request is built.** -/
theorem prepareRequest_eq (siv : Siv) (aeads : List ℕ) (session : Session) :
    prepareRequest siv aeads session = .ok (.built (requestRecords siv aeads), true) := by
  refine buildMessage_ok session (requestRecords_valid siv aeads) ?_
  have hoffered := length_offeredAeads siv aeads
  rw [maxAeadAlgorithms] at hoffered
  rw [requestRecords, nkeMaxMessageLength]
  split
  · simp only [List.cons_append, List.nil_append, List.flatMap_cons, List.flatMap_nil,
      List.append_nil, List.length_append, length_encode, length_encode16,
      length_flatMap_encode16, List.length_nil]
    omega
  · simp only [List.append_nil, List.flatMap_cons, List.flatMap_nil,
      List.length_append, length_encode, length_encode16, length_flatMap_encode16]
    omega

/-- The records of the request as they are read by the server. -/
theorem map_read_requestRecords (siv : Siv) (aeads : List ℕ) :
    (requestRecords siv aeads).map (NewRecord.read nkeMaxRecordBodyLength) =
      [⟨true, nkeRecordNextProtocol, 2, encode16 0⟩,
        ⟨true, nkeRecordAeadAlgorithm, 2 * (offeredAeads siv aeads).length,
          (offeredAeads siv aeads).flatMap encode16⟩] ++
        if aeadAes128GcmSiv ∈ offeredAeads siv aeads then
          [⟨false, nkeRecordCompliant128gcmExport, 0, []⟩] else [] := by
  have hoffered := length_offeredAeads siv aeads
  rw [maxAeadAlgorithms] at hoffered
  have hlength := length_flatMap_encode16 (offeredAeads siv aeads)
  have htake : ((offeredAeads siv aeads).flatMap encode16).take nkeMaxRecordBodyLength =
      (offeredAeads siv aeads).flatMap encode16 :=
    List.take_of_length_le (by rw [nkeMaxRecordBodyLength]; omega)
  rw [requestRecords, List.map_append, List.map_cons, List.map_cons, List.map_nil, NewRecord.read,
    NewRecord.read]
  dsimp only
  rw [htake, hlength]
  split
  · rfl
  · rfl

/-- The error of a request of a client: it has one if no algorithm is offered. -/
theorem requestError_request (siv : Siv) (aeads : List ℕ) :
    requestError ((requestRecords siv aeads).map (NewRecord.read nkeMaxRecordBodyLength)) =
      if offeredAeads siv aeads = [] then some nkeErrorBadRequest else none := by
  rw [map_read_requestRecords]
  generalize offeredAeads siv aeads = offered
  cases offered with
  | nil => rfl
  | cons aead offered =>
      have hlength : ¬2 * (offered.length + 1) < 2 := by omega
      rw [if_neg (List.cons_ne_nil _ _), requestError]
      split
      · simp [Record.offence, hlength, wrongCounts, countRecords, nkeRecordNextProtocol,
          nkeRecordAeadAlgorithm, nkeRecordCompliant128gcmExport]
      · simp [Record.offence, hlength, wrongCounts, countRecords, nkeRecordNextProtocol,
          nkeRecordAeadAlgorithm]

/-- The protocols and the algorithms of the request. -/
theorem valuesOf_request (siv : Siv) (aeads : List ℕ) :
    valuesOf nkeRecordNextProtocol
        ((requestRecords siv aeads).map (NewRecord.read nkeMaxRecordBodyLength)) = [0] ∧
      valuesOf nkeRecordAeadAlgorithm
        ((requestRecords siv aeads).map (NewRecord.read nkeMaxRecordBodyLength)) =
          offeredAeads siv aeads ∧
      (((requestRecords siv aeads).map (NewRecord.read nkeMaxRecordBodyLength)).any
        fun record => record.type = nkeRecordCompliant128gcmExport) =
          decide (aeadAes128GcmSiv ∈ offeredAeads siv aeads) := by
  have hvalues : halfwords ((offeredAeads siv aeads).flatMap encode16) = offeredAeads siv aeads :=
    halfwords_encode fun aead haead => (offeredAeads_spec haead).2.2
  have hzero : halfwords (encode16 0) = [0] := by decide
  rw [map_read_requestRecords]
  split
  next hmem =>
      simp [valuesOf, hvalues, hzero, hmem, nkeRecordNextProtocol, nkeRecordAeadAlgorithm,
        nkeRecordCompliant128gcmExport]
  next hmem =>
      simp [valuesOf, hvalues, hzero, hmem, nkeRecordNextProtocol, nkeRecordAeadAlgorithm,
        nkeRecordCompliant128gcmExport]

/-- **The answer to a client**: the first of the offered algorithms that the server can use. -/
theorem answers_request {server : KeServer} {exportKey : ExportKey} {siv : Siv} {aeads : List ℕ}
    {answer : List NewRecord}
    (h : server.Answers exportKey
      ((requestRecords siv aeads).map (NewRecord.read nkeMaxRecordBodyLength)) answer) :
    if offeredAeads siv aeads = [] then
      answer = [⟨true, nkeRecordError, encode16 nkeErrorBadRequest⟩]
    else
      match (offeredAeads siv aeads).find? server.enables with
      | none =>
          answer = [⟨true, nkeRecordNextProtocol, encode16 0⟩, ⟨true, nkeRecordAeadAlgorithm, []⟩]
      | some aead => ∃ (context : NkeContext) (cookies : List (List Byte)),
          server.context exportKey aead (aeadAes128GcmSiv ∈ offeredAeads siv aeads) =
            some context ∧
          cookies.length = nkeMaxCookies ∧
          (∀ cookie ∈ cookies, cookie.length ≤ nkeMaxCookieLength ∧
            decodeCookie server.siv server.keys cookie = some context) ∧
          answer = server.headRecords aead (aeadAes128GcmSiv ∈ offeredAeads siv aeads) ++
            cookies.map cookieRecord := by
  obtain ⟨hnext, haeads, hcompliant⟩ := valuesOf_request siv aeads
  unfold KeServer.Answers at h
  rw [requestError_request, hnext, haeads, hcompliant] at h
  by_cases hempty : offeredAeads siv aeads = []
  · rw [if_pos hempty] at h ⊢
    exact h
  · rw [if_neg hempty] at h ⊢
    exact h

/-! ### The response on the client -/

/-- **What a record without an algorithm changes**: it can have a cookie. -/
theorem addRecord_cases (siv : Siv) (aeads : List ℕ) (response : KeResponse) {record : Record}
    (h : record.type ≠ nkeRecordAeadAlgorithm) :
    response.Keeps (response.addRecord siv aeads record) ∨
      record.type = nkeRecordCookie ∧ record.bodyLength ≤ nkeMaxRecordBodyLength ∧
        response.addRecord siv aeads record =
          { response with cookies := response.cookies ++ [record.body] } := by
  have hkeeps := (addValue_cases siv aeads response record).resolve_right fun haead => h haead.1
  have herror : response.Keeps { response with error := true } := ⟨rfl, id, rfl⟩
  unfold KeResponse.addRecord
  split
  · exact .inl (.refl response)
  · split
    · exact .inl (.ite herror (.refl response))
    next hlength =>
        split
        next htype =>
            split
            · exact .inl (.refl response)
            · exact .inr ⟨htype, not_lt.mp hlength, rfl⟩
        · exact .inl hkeeps

/-- **The loop of `process_response`** over records which do not have an algorithm. -/
theorem foldl_addRecord_rest (siv : Siv) (aeads : List ℕ) {records : List Record}
    (htypes : ∀ record ∈ records, record.type ≠ nkeRecordAeadAlgorithm) (response : KeResponse) :
    (records.foldl (KeResponse.addRecord siv aeads) response).aeadAlgorithm =
        response.aeadAlgorithm ∧
      (response.compliant128gcm = true →
        (records.foldl (KeResponse.addRecord siv aeads) response).compliant128gcm = true) ∧
      ∀ cookie ∈ (records.foldl (KeResponse.addRecord siv aeads) response).cookies,
        cookie ∈ response.cookies ∨ ∃ record ∈ records, record.type = nkeRecordCookie ∧
          record.bodyLength ≤ nkeMaxRecordBodyLength ∧ cookie = record.body := by
  induction records generalizing response with
  | nil => exact ⟨rfl, id, fun cookie hcookie => .inl hcookie⟩
  | cons record records ih =>
      obtain ⟨htype, htypes⟩ := List.forall_mem_cons.mp htypes
      obtain ⟨haead, hcompliant, hcookies⟩ := ih htypes (response.addRecord siv aeads record)
      rw [List.foldl_cons]
      rcases addRecord_cases siv aeads response htype with hkeeps | ⟨htype', hlength, heq⟩
      · refine ⟨haead.trans hkeeps.aeadAlgorithm, fun h => hcompliant (hkeeps.compliant128gcm h),
          fun cookie hcookie => ?_⟩
        rcases hcookies cookie hcookie with hmem | ⟨r, hr, hspec⟩
        · exact .inl (hkeeps.cookies ▸ hmem)
        · exact .inr ⟨r, List.mem_cons_of_mem record hr, hspec⟩
      · rw [heq] at haead hcompliant hcookies ⊢
        refine ⟨haead, hcompliant, fun cookie hcookie => ?_⟩
        rcases hcookies cookie hcookie with hmem | ⟨r, hr, hspec⟩
        · rcases List.mem_append.mp hmem with hmem | hmem
          · exact .inl hmem
          · obtain rfl := List.mem_singleton.mp hmem
            exact .inr ⟨record, List.mem_cons_self, htype', hlength, rfl⟩
        · exact .inr ⟨r, List.mem_cons_of_mem record hr, hspec⟩

/-- The records of a response as they are read by the client. -/
theorem messageRecords_built {answer : List NewRecord}
    (hanswer : ∀ r ∈ answer, r.Valid ∧ r.type ≠ nkeRecordEndOfMessage) :
    messageRecords (Session.built answer).message.data =
      answer.map (NewRecord.read nkeMaxRecordBodyLength) := by
  have hfuel : answer.length < (Session.built answer).message.data.length + 1 := by
    have hle := length_le_encode answer
    rw [Session.built, List.flatMap_append, List.length_append]
    omega
  let session : Session := ⟨⟨(Session.built answer).message.data, 0, true⟩, false⟩
  have hmessage : session.message =
      ⟨(answer ++ [endRecord]).flatMap NewRecord.encode, 0, true⟩ := rfl
  have hget := getRecords_complete hanswer hmessage nkeMaxRecordBodyLength hfuel
  rw [messageRecords, hget]
  rfl

/-- The length of keys is the same in all libraries that have the algorithm. -/
theorem keyLength_eq {siv siv' : Siv} {algorithm : SivAlgorithm}
    (h : siv.keyLength algorithm ≠ 0) (h' : siv'.keyLength algorithm ≠ 0) :
    siv.keyLength algorithm = siv'.keyLength algorithm := by
  unfold Siv.keyLength at h h' ⊢
  split at h
  next hsupported =>
      split at h'
      next hsupported' => rw [if_pos hsupported, if_pos hsupported']
      next => exact absurd rfl h'
  next => exact absurd rfl h

theorem sivAlgorithm_eq_aes128GcmSiv {aead : ℕ} (h : sivAlgorithm aead = .aes128GcmSiv) :
    aead = aeadAes128GcmSiv := by
  unfold sivAlgorithm at h
  split at h
  next => cases h
  next => cases h
  next => cases h
  next heq =>
      rw [aeadAes128GcmSiv]
      omega
  next => cases h
  next => cases h

/-- The records of a negotiated response after the first two. -/
def KeServer.restRecords (server : KeServer) (aead : ℕ) (compliant : Bool)
    (cookies : List (List Byte)) : List NewRecord :=
  (if aead = aeadAes128GcmSiv ∧ compliant then
    [⟨false, nkeRecordCompliant128gcmExport, []⟩] else []) ++
  ((if server.port ≠ ntpPort then
    [⟨true, nkeRecordNtpv4PortNegotiation, encode16 server.port⟩] else []) ++
  ((server.ntpServer.toList.map fun name => ⟨true, nkeRecordNtpv4ServerNegotiation, name⟩) ++
  cookies.map cookieRecord))

theorem headRecords_append (server : KeServer) (aead : ℕ) (compliant : Bool)
    (cookies : List (List Byte)) :
    server.headRecords aead compliant ++ cookies.map cookieRecord =
      ⟨true, nkeRecordNextProtocol, encode16 0⟩ :: ⟨true, nkeRecordAeadAlgorithm, encode16 aead⟩ ::
        server.restRecords aead compliant cookies := by
  rw [KeServer.headRecords, KeServer.restRecords]
  simp only [List.append_assoc, List.cons_append, List.nil_append]

theorem restRecords_type (server : KeServer) (aead : ℕ) (compliant : Bool)
    (cookies : List (List Byte)) : ∀ r ∈ server.restRecords aead compliant cookies,
      r.type ≠ nkeRecordAeadAlgorithm := by
  intro r hr
  simp only [KeServer.restRecords, List.mem_append] at hr
  rcases hr with hr | hr | hr | hr
  · split at hr
    · obtain rfl := List.mem_singleton.mp hr
      exact fun h => absurd h (by simp [nkeRecordCompliant128gcmExport, nkeRecordAeadAlgorithm])
    · cases hr
  · split at hr
    · obtain rfl := List.mem_singleton.mp hr
      exact fun h => absurd h (by simp [nkeRecordNtpv4PortNegotiation, nkeRecordAeadAlgorithm])
    · cases hr
  · obtain ⟨name, -, rfl⟩ := List.mem_map.mp hr
    exact fun h => absurd h (by simp [nkeRecordNtpv4ServerNegotiation, nkeRecordAeadAlgorithm])
  · obtain ⟨cookie, -, rfl⟩ := List.mem_map.mp hr
    exact fun h => absurd h (by simp [cookieRecord, nkeRecordCookie, nkeRecordAeadAlgorithm])

/-- The cookies of a response are the only records of their type. -/
theorem restRecords_cookie {server : KeServer} {aead : ℕ} {compliant : Bool}
    {cookies : List (List Byte)} {r : NewRecord}
    (hr : r ∈ server.restRecords aead compliant cookies) (htype : r.type = nkeRecordCookie) :
    r.body ∈ cookies := by
  simp only [KeServer.restRecords, List.mem_append] at hr
  rcases hr with hr | hr | hr | hr
  · split at hr
    · obtain rfl := List.mem_singleton.mp hr
      exact absurd htype (by simp [nkeRecordCompliant128gcmExport, nkeRecordCookie])
    · cases hr
  · split at hr
    · obtain rfl := List.mem_singleton.mp hr
      exact absurd htype (by simp [nkeRecordNtpv4PortNegotiation, nkeRecordCookie])
    · cases hr
  · obtain ⟨name, -, rfl⟩ := List.mem_map.mp hr
    exact absurd htype (by simp [nkeRecordNtpv4ServerNegotiation, nkeRecordCookie])
  · obtain ⟨cookie, hcookie, rfl⟩ := List.mem_map.mp hr
    exact hcookie

/-- The response of the client after the first two records. -/
theorem addRecord_first {siv : Siv} {aeads : List ℕ} {aead : ℕ} (hmem : aead ∈ aeads)
    (hlength : siv.keyLength (sivAlgorithm aead) > 0) (hlt : aead < 65536) :
    (emptyResponse.addRecord siv aeads
        (NewRecord.read nkeMaxRecordBodyLength
          ⟨true, nkeRecordNextProtocol, encode16 0⟩)).addRecord siv aeads
        (NewRecord.read nkeMaxRecordBodyLength
          ⟨true, nkeRecordAeadAlgorithm, encode16 aead⟩) =
      { emptyResponse with nextProtocol := true, aeadAlgorithm := some (sivAlgorithm aead) } := by
  have hdecode : decode16 ((encode16 aead).take nkeMaxRecordBodyLength) = aead := by
    rw [List.take_of_length_le (by simp [nkeMaxRecordBodyLength]),
      ← List.append_nil (encode16 aead)]
    exact decode16_encode16_of_lt hlt []
  have hfirst : emptyResponse.addRecord siv aeads
      (NewRecord.read nkeMaxRecordBodyLength ⟨true, nkeRecordNextProtocol, encode16 0⟩) =
        { emptyResponse with nextProtocol := true } := rfl
  rw [hfirst, KeResponse.addRecord, KeResponse.addValue]
  simp [NewRecord.read, emptyResponse, nkeMaxRecordBodyLength, nkeRecordAeadAlgorithm,
    nkeRecordCookie, nkeRecordNextProtocol] at hdecode ⊢
  simp [hdecode, hmem, hlength]

/-- **The response which the client accepts** has the algorithm and the cookies of the
server. -/
theorem processResponse_negotiated {server : KeServer} {siv : Siv} {aeads : List ℕ} {aead : ℕ}
    (hmem : aead ∈ aeads) (hlength : siv.keyLength (sivAlgorithm aead) > 0) (hlt : aead < 65536)
    {compliant : Bool} {cookies : List (List Byte)} {answer : List NewRecord}
    (hanswer : answer = server.headRecords aead compliant ++ cookies.map cookieRecord)
    (hvalid : ∀ r ∈ answer, r.Valid ∧ r.type ≠ nkeRecordEndOfMessage) {response : KeResponse}
    (h : processResponse siv aeads (Session.built answer).message.data = some response) :
    response.aeadAlgorithm = some (sivAlgorithm aead) ∧
      (aead = aeadAes128GcmSiv → compliant = true → response.compliant128gcm = true) ∧
      ∀ cookie ∈ response.cookies, cookie ∈ cookies := by
  rw [processResponse, messageRecords_built hvalid, hanswer, headRecords_append, List.map_cons,
    List.map_cons, List.foldl_cons, List.foldl_cons, addRecord_first hmem hlength hlt] at h
  have htypes : ∀ record ∈ (server.restRecords aead compliant cookies).map
      (NewRecord.read nkeMaxRecordBodyLength), record.type ≠ nkeRecordAeadAlgorithm := by
    intro record hrecord htype
    obtain ⟨r, hr, rfl⟩ := List.mem_map.mp hrecord
    have hnonneg := (hvalid r (by
      rw [hanswer, headRecords_append]
      exact List.mem_cons_of_mem _ (List.mem_cons_of_mem _ hr))).1.nonneg
    refine restRecords_type server aead compliant cookies r hr ?_
    rw [← Int.toNat_of_nonneg hnonneg]
    exact congrArg Nat.cast htype
  obtain ⟨haead, -, hcookies⟩ := foldl_addRecord_rest siv aeads htypes
    { emptyResponse with nextProtocol := true, aeadAlgorithm := some (sivAlgorithm aead) }
  split at h
  · cases h
  · obtain rfl := Option.some.inj h
    refine ⟨haead, fun haes hcompliant => ?_, fun cookie hcookie => ?_⟩
    · -- The record with the flag is the first one of the rest.
      rw [KeServer.restRecords, if_pos ⟨haes, hcompliant⟩, List.singleton_append, List.map_cons]
      rw [KeServer.restRecords, if_pos ⟨haes, hcompliant⟩, List.singleton_append,
        List.map_cons] at htypes
      rw [List.foldl_cons]
      exact (foldl_addRecord_rest siv aeads (List.forall_mem_cons.mp htypes).2 _).2.1 rfl
    · rcases hcookies cookie hcookie with hnil | ⟨record, hrecord, htype, hle, rfl⟩
      · cases hnil
      · obtain ⟨r, hr, rfl⟩ := List.mem_map.mp hrecord
        have hnonneg := (hvalid r (by
          rw [hanswer, headRecords_append]
          exact List.mem_cons_of_mem _ (List.mem_cons_of_mem _ hr))).1.nonneg
        have hbody : (r.read nkeMaxRecordBodyLength).body = r.body :=
          List.take_of_length_le hle
        rw [hbody]
        refine restRecords_cookie hr ?_
        rw [← Int.toNat_of_nonneg hnonneg]
        exact congrArg Nat.cast htype

/-- **The context of the client** is that of the server. -/
theorem data_negotiated {server : KeServer} {siv : Siv} {aeads : List ℕ} {aead : ℕ}
    {exportKey : ExportKey} (hselected : (offeredAeads siv aeads).find? server.enables = some aead)
    {context : NkeContext} {cookies : List (List Byte)}
    (hcontext : server.context exportKey aead (aeadAes128GcmSiv ∈ offeredAeads siv aeads) =
      some context) {answer : List NewRecord}
    (hanswer : answer = server.headRecords aead (aeadAes128GcmSiv ∈ offeredAeads siv aeads) ++
      cookies.map cookieRecord)
    (hvalid : ∀ r ∈ answer, r.Valid ∧ r.type ≠ nkeRecordEndOfMessage)
    {serverAddress : Option { ip : IPAddr // ip.isReal = true }} {data : KeData}
    (h : KeSession.data ⟨(Session.built answer).message.data, exportKey, serverAddress⟩ siv aeads =
      some data) :
    data.context = context ∧ context.algorithm = sivAlgorithm aead ∧
      ∀ cookie ∈ data.cookies, cookie ∈ cookies := by
  obtain ⟨hmem, hlength, hlt⟩ := offeredAeads_spec (List.mem_of_find?_eq_some hselected)
  have henabled : server.enables aead = true := List.find?_some hselected
  obtain ⟨-, hserver⟩ := of_decide_eq_true henabled
  have hoffered : sivAlgorithm aead = .aes128GcmSiv →
      aead = aeadAes128GcmSiv ∧ aeadAes128GcmSiv ∈ offeredAeads siv aeads := fun halgorithm => by
    have haead := sivAlgorithm_eq_aes128GcmSiv halgorithm
    exact ⟨haead, haead ▸ List.mem_of_find?_eq_some hselected⟩
  obtain ⟨response, hresponse, h⟩ := Option.bind_eq_some_iff.mp h
  obtain ⟨algorithm, halgorithm, h⟩ := Option.bind_eq_some_iff.mp h
  obtain ⟨contexts, hcontexts, h⟩ := Option.bind_eq_some_iff.mp h
  obtain ⟨ntpAddress, -, h⟩ := Option.bind_eq_some_iff.mp h
  obtain rfl := Option.some.inj h
  obtain ⟨haead, hcompliant, hcookies⟩ :=
    processResponse_negotiated hmem hlength hlt hanswer hvalid hresponse
  obtain rfl := Option.some.inj (halgorithm.symm.trans haead)
  have hexporter : exporterAlgorithm (sivAlgorithm aead)
      (aeadAes128GcmSiv ∈ offeredAeads siv aeads) = sivAlgorithm aead := by
    rw [exporterAlgorithm, if_neg]
    rintro ⟨h128, hnot⟩
    simp [(hoffered h128).2] at hnot
  have hkeys : KeSession.getKeys ⟨(Session.built answer).message.data, exportKey, serverAddress⟩ siv
      (sivAlgorithm aead) (sivAlgorithm aead) = some context := by
    rw [← hcontext, KeServer.context, hexporter, KeSession.getKeys, KeSession.getKeys,
      keyLength_eq hlength.ne' hserver.ne']
  have hfirst : contexts.1 = context := by
    rw [KeSession.contexts] at hcontexts
    split at hcontexts
    next hcond =>
        obtain ⟨h128, hnot⟩ := hcond
        obtain ⟨haes, hmem'⟩ := hoffered h128
        rw [hcompliant haes (decide_eq_true hmem')] at hnot
        cases hnot
    next =>
        rw [hkeys] at hcontexts
        exact congrArg Prod.fst (Option.some.inj hcontexts).symm
  exact ⟨hfirst, (getKeys_hasKeys hkeys).2, hcookies⟩

/-- A response with an error is not accepted. -/
theorem data_error {answer : List NewRecord}
    (hvalid : ∀ r ∈ answer, r.Valid ∧ r.type ≠ nkeRecordEndOfMessage) {siv : Siv} {aeads : List ℕ}
    (herror : ((answer.map (NewRecord.read nkeMaxRecordBodyLength)).foldl
      (KeResponse.addRecord siv aeads) emptyResponse).error = true) (exportKey : ExportKey)
    (serverAddress : Option { ip : IPAddr // ip.isReal = true }) :
    KeSession.data ⟨(Session.built answer).message.data, exportKey, serverAddress⟩ siv aeads =
      none := by
  have hnone : processResponse siv aeads (Session.built answer).message.data = none := by
    rw [processResponse, messageRecords_built hvalid]
    exact if_pos (.inl herror)
  rw [KeSession.data, hnone]
  rfl

/-- **NTS-KE agreement.**
- The request of a client is built, and the server answers it with the first of the offered
  algorithms that it has enabled and supports, with no algorithm if there is none, and with
  an error if none is offered. If the client accepts the response, it has the algorithm and
  the keys of the server, and the server decodes its cookies to this context.
- Any well-formed request is answered, with the error of the first record that has one, an
  error for wrong numbers of records, or a negotiated result. No assertion fails. -/
theorem ke_agreement :
    (∀ (siv : Siv) (aeads : List ℕ) (server : KeServer) (exportKey : ExportKey)
      (randoms : Fin nkeMaxCookies → ℕ → Byte) (client : Session), ∃ request,
      prepareRequest siv aeads client = .ok (request, true) ∧
      ∀ session : Session, session.message = request.message → ∃ answer,
        server.processRequest exportKey randoms session = .ok (.built answer, true) ∧
        (offeredAeads siv aeads = [] →
          answer = [⟨true, nkeRecordError, encode16 nkeErrorBadRequest⟩]) ∧
        (offeredAeads siv aeads ≠ [] → (offeredAeads siv aeads).find? server.enables = none →
          answer = [⟨true, nkeRecordNextProtocol, encode16 0⟩,
            ⟨true, nkeRecordAeadAlgorithm, []⟩]) ∧
        (∀ aead, (offeredAeads siv aeads).find? server.enables = some aead → ∃ rest,
          answer = ⟨true, nkeRecordNextProtocol, encode16 0⟩ ::
            ⟨true, nkeRecordAeadAlgorithm, encode16 aead⟩ :: rest) ∧
        ∀ serverAddress data,
          KeSession.data ⟨(Session.built answer).message.data, exportKey, serverAddress⟩ siv aeads =
            some data → ∃ aead,
              (offeredAeads siv aeads).find? server.enables = some aead ∧
              data.context.algorithm = sivAlgorithm aead ∧
              server.context exportKey aead (aeadAes128GcmSiv ∈ offeredAeads siv aeads) =
                some data.context ∧
              ∀ cookie ∈ data.cookies,
                decodeCookie server.siv server.keys cookie = some data.context) ∧
    ∀ (server : KeServer) (exportKey : ExportKey) (randoms : Fin nkeMaxCookies → ℕ → Byte)
      (records : List NewRecord) (session : Session),
      (∀ r ∈ records, r.Valid ∧ r.type ≠ nkeRecordEndOfMessage) →
      session.message = ⟨(records ++ [endRecord]).flatMap NewRecord.encode, 0, true⟩ →
      ∃ answer,
        server.processRequest exportKey randoms session = .ok (.built answer, true) ∧
        server.Answers exportKey (records.map (NewRecord.read nkeMaxRecordBodyLength)) answer := by
  refine ⟨fun siv aeads server exportKey randoms client =>
    ⟨_, prepareRequest_eq siv aeads client, fun session hsession => ?_⟩, ?_⟩
  · obtain ⟨answer, hanswer, hvalid, hprocess⟩ := processRequest_eq server exportKey randoms
      (requestRecords_valid siv aeads) hsession
    have hanswer := answers_request hanswer
    refine ⟨answer, hprocess, fun hempty => ?_, fun hne hnone => ?_, fun aead hsome => ?_,
      fun serverAddress data hdata => ?_⟩
    · rw [if_pos hempty] at hanswer
      exact hanswer
    · rw [if_neg hne, hnone] at hanswer
      exact hanswer
    · have hne : offeredAeads siv aeads ≠ [] := fun hempty => by
        rw [hempty] at hsome
        cases hsome
      rw [if_neg hne, hsome] at hanswer
      obtain ⟨context, cookies, -, -, -, hanswer⟩ := hanswer
      rw [headRecords_append] at hanswer
      exact ⟨_, hanswer⟩
    · by_cases hempty : offeredAeads siv aeads = []
      · rw [if_pos hempty] at hanswer
        rw [data_error hvalid (by rw [hanswer]; rfl)] at hdata
        cases hdata
      · rw [if_neg hempty] at hanswer
        cases hselected : (offeredAeads siv aeads).find? server.enables with
        | none =>
            rw [hselected] at hanswer
            rw [data_error hvalid (by rw [hanswer]; rfl)] at hdata
            cases hdata
        | some aead =>
            rw [hselected] at hanswer
            obtain ⟨context, cookies, hcontext, -, hcookies, hanswer⟩ := hanswer
            obtain ⟨rfl, halgorithm, hstored⟩ :=
              data_negotiated hselected hcontext hanswer hvalid hdata
            exact ⟨aead, rfl, halgorithm, hcontext,
              fun cookie hcookie => (hcookies cookie (hstored cookie hcookie)).2⟩
  · intro server exportKey randoms records session hrecords hmessage
    obtain ⟨answer, hanswer, -, hprocess⟩ :=
      processRequest_eq server exportKey randoms hrecords hmessage
    exact ⟨answer, hprocess, hanswer⟩

/-- Keys of a server for a test. -/
def keSampleKeys : KeyServer :=
  (initialiseKeys sampleSiv fun n => ⟨fun i => BitVec.ofNat 8 (n + i), 0⟩).getD
    ⟨fun _ => emptyKey, 0⟩

theorem keSampleKeys_sound : keSampleKeys.Sound sampleSiv := by
  obtain ⟨keys, hkeys⟩ := initialiseKeys_succeeds
    (show sampleSiv.keyLength (newKeyAlgorithm sampleSiv) ≠ 0 by decide)
    fun n => ⟨fun i => BitVec.ofNat 8 (n + i), 0⟩
  rw [keSampleKeys, hkeys]
  exact initialiseKeys_sound hkeys

/-- A server with the default algorithms. -/
def keSampleServer : KeServer where
  siv := sampleSiv
  aeads := [30, 15]
  port := 123
  ntpServer := none
  keys := keSampleKeys
  ntpServer_lt := nofun
  keys_sound := keSampleKeys_sound

/-- **A client which has no algorithm** to offer gets an error, and not a response without an
algorithm. -/
theorem ke_agreement_nothing_offered : ∃ request answer,
    prepareRequest sampleSiv [17] ⟨resetMessage, false⟩ = .ok (request, true) ∧
    keSampleServer.processRequest (fun _ _ _ => 0) (fun _ _ => 0) request =
      .ok (.built answer, true) ∧
    [17].find? keSampleServer.enables = none ∧
    answer = [⟨true, nkeRecordError, encode16 nkeErrorBadRequest⟩] ∧
    answer ≠ [⟨true, nkeRecordNextProtocol, encode16 0⟩, ⟨true, nkeRecordAeadAlgorithm, []⟩] := by
  obtain ⟨answer, hanswer, -, hprocess⟩ := processRequest_eq keSampleServer (fun _ _ _ => 0)
    (fun _ _ => 0) (requestRecords_valid sampleSiv [17])
    (rfl : (Session.built (requestRecords sampleSiv [17])).message = _)
  have hanswer := answers_request hanswer
  rw [if_pos (by decide)] at hanswer
  refine ⟨_, answer, prepareRequest_eq sampleSiv [17] _, hprocess, by decide, hanswer, ?_⟩
  rw [hanswer]
  decide

end Chrony.Nts
