import Chrony.Lib.Run
import Chrony.Nts.KeAgreement

/-!
# The Handlers of NTS-KE Messages

A session has a handler, which is called when a complete message is received. The handler of the
client (`handle_message` of `nts_ke_client.c`) reads the response, and the handler of the server
(`handle_message` of `nts_ke_server.c`) reads the request and prepares the response in the same
buffer. Here the session is passed through the calls, with its assertions, and each call to TLS,
to the generator of cookies and to the resolver can fail.

## Main results

* `prepareRequest_returns`, `HandlerAnswers.processRequest_returns`,
  `NkcInstance.handleMessage_returns`: no assertion fails, and the buffer is not exceeded.
* `KeServer.processRequest_refines`, `NkcInstance.processResponse_eq`: the response of the key
  establishment is one of those which are possible here, and its data are the same.
-/

namespace Chrony.Nts

open Lib Bytes

variable {β : Type}

/-! ### The handlers -/

/-- A loop over the records of a message, up to the last record or until it is left. -/
def forRecords (done : β → Bool) (add : β → Record → β) :
    ℕ → Session → β → Except SessionAbort (Session × β)
  | 0, session, b => .ok (session, b)
  | fuel + 1, session, b =>
      if done b then .ok (session, b)
      else do
        let r ← nksnGetRecord session nkeMaxRecordBodyLength
        match r.2 with
        | none => .ok (r.1, b)
        | some record => forRecords done add fuel r.1 (add b record)

/-- The results of the functions which are called by the handlers. -/
structure HandlerAnswers where
  /-- Whether TLS exports the keys of the alternative context. -/
  exportedAlt : Bool
  /-- Whether TLS exports the keys of the context. -/
  exported : Bool
  /-- The results of `NKS_GenerateCookie`. -/
  cookies : Fin nkeMaxCookies → Option (List Byte)
  /-- Whether the name of the NTP server is an address. -/
  isAddress : Bool

/-- The result of `NKSN_GetKeys`, when TLS exports the keys or not. -/
def keysExported (siv : Siv) (algorithm : SivAlgorithm) (exported : Bool) : Bool :=
  siv.keyLength algorithm ≠ 0 ∧ siv.keyLength algorithm ≤ sivMaxKeyLength ∧ exported

/-- The fields of a client which decide when its session is started and what is done with it. -/
structure NkcInstance where
  credentials : Bool
  destroying : Bool
  gotResponse : Bool
  resolvingName : Bool
  deriving DecidableEq, Repr

namespace NkcInstance

/-- `process_response`. There is no response if it is not valid. -/
def processResponse (siv : Siv) (aeads : List ℕ) (session : Session) :
    Except SessionAbort (Session × Option KeResponse) := do
  let (session, response) ← forRecords KeResponse.error (KeResponse.addRecord siv aeads)
    (session.message.data.length + 1) session emptyResponse
  if response.error ∨ response.cookies = [] ∨ !response.nextProtocol ∨
      response.aeadAlgorithm = none then .ok (session, none)
  else .ok (session, some response)

/-- The calls of `NKSN_GetKeys` in `handle_message`. -/
def getKeys (siv : Siv) (answers : HandlerAnswers) (algorithm : SivAlgorithm)
    (compliant128gcm : Bool) : Bool :=
  if algorithm = .aes128GcmSiv ∧ !compliant128gcm then
    keysExported siv algorithm answers.exportedAlt && keysExported siv algorithm answers.exported
  else keysExported siv algorithm answers.exported

/-- The last part of `handle_message`. A name is resolved as a fully qualified domain name, for
which a dot may need to be added in the buffer. -/
def setServerName (inst : NkcInstance) (answers : HandlerAnswers) (serverName : List Byte) :
    NkcInstance × Bool :=
  if serverName = [] then ({ inst with gotResponse := true }, true)
  else if inst.resolvingName then (inst, false)
  else if answers.isAddress then ({ inst with gotResponse := true }, true)
  else if serverName.length + 1 ≥ nkeMaxRecordBodyLength + 2 then (inst, false)
  else ({ inst with resolvingName := true, gotResponse := true }, true)

/-- `handle_message` of the client. -/
def handleMessage (siv : Siv) (aeads : List ℕ) (inst : NkcInstance) (answers : HandlerAnswers)
    (session : Session) : Except SessionAbort (NkcInstance × Session × Bool) := do
  let (session, response) ← processResponse siv aeads session
  match response with
  | none => .ok (inst, session, false)
  | some response =>
      match response.aeadAlgorithm with
      | none => .ok (inst, session, false)
      | some algorithm =>
          if !getKeys siv answers algorithm response.compliant128gcm then .ok (inst, session, false)
          else
            let r := inst.setServerName answers response.serverName
            .ok (r.1, session, r.2)

end NkcInstance

namespace HandlerAnswers

/-- The loop of `prepare_response` that adds cookies. -/
def addCookies : List (Option (List Byte)) → Session → Except SessionAbort (Session × Bool)
  | [], session => .ok (session, true)
  | none :: _, session => .ok (session, false)
  | some cookie :: cookies, session => do
      let s ← nksnAddRecord session false nkeRecordCookie cookie
      if s.2 then addCookies cookies s.1 else .ok s

/-- The records and cookies of a negotiated response. -/
def addNegotiated (answers : HandlerAnswers) (server : KeServer) (aead : ℕ)
    (compliant128gcm : Bool) (session : Session) : Except SessionAbort (Session × Bool) := do
  let s ← addRecords session (server.headRecords aead compliant128gcm)
  if !s.2 then .ok s
  else if !keysExported server.siv (sivAlgorithm aead) answers.exported then .ok (s.1, false)
  else addCookies (List.ofFn answers.cookies) s.1

/-- The records of the response, before the end of the message. -/
def addResponse (answers : HandlerAnswers) (server : KeServer) (request : KeRequest)
    (session : Session) : Except SessionAbort (Session × Bool) :=
  match request.error with
  | some error => addRecords session [⟨true, nkeRecordError, encode16 error⟩]
  | none =>
      if !request.nextProtocol then addRecords session [⟨true, nkeRecordNextProtocol, []⟩]
      else
        match request.aeadAlgorithm with
        | none =>
            addRecords session [⟨true, nkeRecordNextProtocol, encode16 0⟩,
              ⟨true, nkeRecordAeadAlgorithm, []⟩]
        | some aead => answers.addNegotiated server aead request.compliant128gcm session

/-- `prepare_response`. -/
def prepareResponse (answers : HandlerAnswers) (server : KeServer) (request : KeRequest)
    (session : Session) : Except SessionAbort (Session × Bool) := do
  let s ← answers.addResponse server request (beginMessage session)
  if s.2 then endMessage s.1 else .ok s

/-- `process_request`, which is all of `handle_message` of the server. -/
def processRequest (answers : HandlerAnswers) (server : KeServer) (session : Session) :
    Except SessionAbort (Session × Bool) := do
  let (session, request) ← forRecords (fun request => request.error.isSome) server.addRecord
    (session.message.data.length + 1) session emptyRequest
  answers.prepareResponse server request.checkCounts session

end HandlerAnswers

/-! ### Reading of messages -/

/-- Reading of a record moves the position of the parser only. -/
theorem nksnGetRecord_returns {session : Session} (hcomplete : session.message.complete = true)
    (hparsed : session.message.parsed ≤ session.message.data.length) (bufferLength : ℕ) :
    ∃ parsed record, nksnGetRecord session bufferLength =
      .ok ({ session with message := { session.message with parsed } }, record) ∧
        parsed ≤ session.message.data.length := by
  rw [nksnGetRecord, hcomplete, getRecord]
  cases hread : readRecord session.message.data bufferLength session.message.parsed with
  | none => exact ⟨session.message.parsed, none, rfl, hparsed⟩
  | some r =>
      obtain ⟨-, hle⟩ := readRecord_bounds hread
      exact ⟨session.message.parsed + r.2, _, rfl, hle⟩

/-- **The loop over the records** does not fail, and moves the position of the parser only. -/
theorem forRecords_returns {session : Session} (hcomplete : session.message.complete = true)
    (hparsed : session.message.parsed ≤ session.message.data.length) (done : β → Bool)
    (add : β → Record → β) (fuel : ℕ) (b : β) :
    ∃ parsed b', forRecords done add fuel session b =
      .ok ({ session with message := { session.message with parsed } }, b') ∧
        parsed ≤ session.message.data.length := by
  induction fuel generalizing session b with
  | zero => exact ⟨_, b, rfl, hparsed⟩
  | succ fuel ih =>
      rw [forRecords]
      split
      · exact ⟨_, b, rfl, hparsed⟩
      · obtain ⟨parsed, record, hget, hle⟩ :=
          nksnGetRecord_returns hcomplete hparsed nkeMaxRecordBodyLength
        rw [hget]
        cases record with
        | none => exact ⟨parsed, b, rfl, hle⟩
        | some record =>
            exact @ih { session with message := { session.message with parsed } } hcomplete hle
              (add b record)

/-- All records of a complete message can be read. -/
theorem getRecords_returns {session : Session} (hcomplete : session.message.complete = true)
    (hparsed : session.message.parsed ≤ session.message.data.length) (bufferLength fuel : ℕ) :
    ∃ records, getRecords bufferLength fuel session = .ok records := by
  induction fuel generalizing session with
  | zero => exact ⟨[], rfl⟩
  | succ fuel ih =>
      obtain ⟨parsed, record, hget, hle⟩ := nksnGetRecord_returns hcomplete hparsed bufferLength
      rw [getRecords, hget]
      cases record with
      | none => exact ⟨[], rfl⟩
      | some record =>
          obtain ⟨records, hrecords⟩ :=
            @ih { session with message := { session.message with parsed } } hcomplete hle
          refine ⟨record :: records, ?_⟩
          dsimp only [bind, Except.bind]
          rw [hrecords]

/-- **The loop visits all records**, if those which are found after it is left do not matter. -/
theorem forRecords_eq_foldl {done : β → Bool} {add : β → Record → β}
    (hdone : ∀ b record, done b = true → add b record = b) {session : Session}
    (hcomplete : session.message.complete = true)
    (hparsed : session.message.parsed ≤ session.message.data.length) (fuel : ℕ) (b : β) :
    (forRecords done add fuel session b).map Prod.snd =
      (getRecords nkeMaxRecordBodyLength fuel session).map (·.foldl add b) := by
  induction fuel generalizing session b with
  | zero => rfl
  | succ fuel ih =>
      rw [forRecords]
      split
      next hb =>
          obtain ⟨records, hrecords⟩ :=
            getRecords_returns hcomplete hparsed nkeMaxRecordBodyLength (fuel + 1)
          rw [hrecords]
          have hfixed := List.foldl_fixed' (fun record => hdone b record hb) records
          exact congrArg Except.ok hfixed.symm
      · obtain ⟨parsed, record, hget, hle⟩ :=
          nksnGetRecord_returns hcomplete hparsed nkeMaxRecordBodyLength
        rw [getRecords, hget]
        cases record with
        | none => rfl
        | some record =>
            have hrest := @ih { session with message := { session.message with parsed } }
              hcomplete hle (add b record)
            dsimp only [bind, Except.bind]
            rw [hrest]
            cases getRecords nkeMaxRecordBodyLength fuel
                { session with message := { session.message with parsed } } with
            | error e => rfl
            | ok records => rfl

/-! ### Building of messages -/

/-- A message to which records are added. -/
structure Session.Building (session : Session) : Prop where
  newMessage : session.newMessage = true
  complete : session.message.complete = false
  parsed : session.message.parsed = 0
  length : session.message.data.length ≤ nkeMaxMessageLength

/-- What is known of a message when it was prepared, or could not be prepared. -/
structure Session.Prepared (session : Session) (prepared : Bool) : Prop where
  newMessage : session.newMessage = true
  parsed : session.message.parsed = 0
  length : session.message.data.length ≤ nkeMaxMessageLength
  complete : prepared = true → session.message.complete = true ∧ 0 < session.message.data.length

variable {allowed : SessionAbort → Prop} {session : Session}

theorem beginMessage_building (session : Session) : (beginMessage session).Building :=
  ⟨rfl, rfl, rfl, Nat.zero_le _⟩

/-- A record is added only if there is space for it. -/
theorem addRecord_length {message : Message} (h : message.data.length ≤ nkeMaxMessageLength)
    (critical : Bool) (type : ℤ) (body : List Byte) :
    (addRecord message critical type body).1.data.length ≤ nkeMaxMessageLength := by
  rw [addRecord]
  split
  · exact h
  next hfits =>
      have hlength := length_encode ⟨critical, type, body⟩
      rw [NewRecord.encode] at hlength
      dsimp only at hlength ⊢
      rw [List.length_append, hlength]
      omega

theorem nksnAddRecord_returns (h : session.Building) (critical : Bool) {type : ℤ}
    (htype : type ≠ nkeRecordEndOfMessage) (body : List Byte) :
    Returns allowed (nksnAddRecord session critical type body) fun r => r.1.Building := by
  rw [nksnAddRecord, if_neg (by simp [h.newMessage, h.complete]), if_neg htype]
  refine ⟨h.newMessage, ?_, ?_, addRecord_length h.length critical type body⟩
  · dsimp only
    rw [addRecord]
    split <;> exact h.complete
  · dsimp only
    rw [addRecord]
    split <;> exact h.parsed

theorem addRecords_returns (h : session.Building) {records : List NewRecord}
    (htypes : ∀ r ∈ records, r.type ≠ nkeRecordEndOfMessage) :
    Returns allowed (addRecords session records) fun r => r.1.Building := by
  induction records generalizing session with
  | nil => exact h
  | cons r records ih =>
      obtain ⟨htype, htypes⟩ := List.forall_mem_cons.mp htypes
      refine (nksnAddRecord_returns h r.critical htype r.body).bind fun s hs => ?_
      split
      · exact ih hs htypes
      · exact hs

/-- **The end of a message.** -/
theorem endMessage_returns (h : session.Building) :
    Returns allowed (endMessage session) fun r => r.1.Prepared r.2 := by
  rw [endMessage, h.complete, if_neg (by decide)]
  dsimp only
  split
  · exact ⟨h.newMessage, h.parsed, h.length, fun hready => absurd hready Bool.false_ne_true⟩
  next hadded =>
      have hlength := addRecord_length h.length true nkeRecordEndOfMessage []
      rw [addRecord] at hlength hadded ⊢
      split at hadded
      · exact absurd rfl hadded
      next hfits =>
          rw [if_neg hfits] at hlength ⊢
          refine ⟨h.newMessage, h.parsed, hlength, fun _ => ⟨rfl, ?_⟩⟩
          have hend := length_encode endRecord
          dsimp only
          rw [List.length_append]
          exact Nat.lt_of_lt_of_le (by decide) (Nat.le_add_left _ _)

/-- A message is ended if its records could be added. -/
theorem endMessage_bind_returns {x : Except SessionAbort (Session × Bool)}
    (hx : Returns allowed x fun r => r.1.Building) :
    Returns allowed (x >>= fun s => if s.2 then endMessage s.1 else .ok s)
      fun r => r.1.Prepared r.2 := by
  refine hx.bind fun s hs => ?_
  split
  · exact endMessage_returns hs
  next hadded =>
      exact ⟨hs.newMessage, hs.parsed, hs.length, fun h => absurd h hadded⟩

/-- **The request of the client.** -/
theorem prepareRequest_returns (siv : Siv) (aeads : List ℕ) (session : Session) :
    Returns allowed (prepareRequest siv aeads session) fun r => r.1.Prepared r.2 :=
  endMessage_bind_returns (addRecords_returns (beginMessage_building session)
    fun r hr => (requestRecords_valid siv aeads r hr).2)

namespace HandlerAnswers

theorem addCookies_returns (h : session.Building) (cookies : List (Option (List Byte))) :
    Returns allowed (addCookies cookies session) fun r => r.1.Building := by
  induction cookies generalizing session with
  | nil => exact h
  | cons cookie cookies ih =>
      cases cookie with
      | none => exact h
      | some cookie =>
          refine (nksnAddRecord_returns h false (by decide) cookie).bind fun s hs => ?_
          split
          · exact ih hs
          · exact hs

theorem addResponse_returns (h : session.Building) (answers : HandlerAnswers)
    (server : KeServer) (request : KeRequest) :
    Returns allowed (answers.addResponse server request session) fun r => r.1.Building := by
  rw [addResponse]
  split
  · exact addRecords_returns h (by simp [nkeRecordError, nkeRecordEndOfMessage])
  · split
    · exact addRecords_returns h (by simp [nkeRecordNextProtocol, nkeRecordEndOfMessage])
    · split
      · exact addRecords_returns h
          (by simp [nkeRecordNextProtocol, nkeRecordAeadAlgorithm, nkeRecordEndOfMessage])
      · refine (addRecords_returns h fun r hr => (headRecords_valid server _ _ r hr).2).bind
          fun s hs => ?_
        split
        · exact hs
        · split
          · exact hs
          · exact addCookies_returns hs _

/-- **The response of the server.** -/
theorem processRequest_returns (hcomplete : session.message.complete = true)
    (hparsed : session.message.parsed ≤ session.message.data.length) (answers : HandlerAnswers)
    (server : KeServer) :
    Returns allowed (answers.processRequest server session) fun r => r.1.Prepared r.2 := by
  obtain ⟨parsed, request, hrecords, -⟩ := forRecords_returns hcomplete hparsed
    (fun request : KeRequest => request.error.isSome) server.addRecord
    (session.message.data.length + 1) emptyRequest
  rw [processRequest, hrecords]
  exact endMessage_bind_returns (answers.addResponse_returns (beginMessage_building _) server _)

end HandlerAnswers

theorem NkcInstance.setServerName_destroying (inst : NkcInstance) (answers : HandlerAnswers)
    (serverName : List Byte) :
    (inst.setServerName answers serverName).1.destroying = inst.destroying := by
  rw [setServerName]
  repeat' split
  all_goals rfl

/-- **The handler of the client** reads the response only. -/
theorem NkcInstance.handleMessage_returns (hcomplete : session.message.complete = true)
    (hparsed : session.message.parsed ≤ session.message.data.length) (siv : Siv)
    (aeads : List ℕ) (inst : NkcInstance) (answers : HandlerAnswers) :
    Returns allowed (inst.handleMessage siv aeads answers session) fun r =>
      r.1.destroying = inst.destroying ∧ ∃ parsed, parsed ≤ session.message.data.length ∧
        r.2.1 = { session with message := { session.message with parsed } } := by
  obtain ⟨parsed, response, hrecords, hle⟩ := forRecords_returns hcomplete hparsed
    KeResponse.error (KeResponse.addRecord siv aeads) (session.message.data.length + 1)
    emptyResponse
  have hresponse : ∃ response, processResponse siv aeads session =
      .ok ({ session with message := { session.message with parsed } }, response) := by
    rw [processResponse, hrecords]
    dsimp only [bind, Except.bind]
    split
    · exact ⟨none, rfl⟩
    · exact ⟨some response, rfl⟩
  obtain ⟨response, hresponse⟩ := hresponse
  rw [handleMessage, hresponse]
  cases response with
  | none => exact ⟨rfl, parsed, hle, rfl⟩
  | some response =>
      dsimp only [bind, Except.bind]
      split
      · exact ⟨rfl, parsed, hle, rfl⟩
      · split
        · exact ⟨rfl, parsed, hle, rfl⟩
        · exact ⟨setServerName_destroying inst answers _, parsed, hle, rfl⟩

/-! ### The key establishment -/

namespace HandlerAnswers

/-- The cookies are those which are generated for a context. -/
theorem addCookies_map (server : KeServer) (context : NkeContext) (randoms : List (ℕ → Byte))
    (session : Session) :
    addCookies (randoms.map (generateCookie server.siv server.keys context)) session =
      server.addCookies context randoms session := by
  induction randoms generalizing session with
  | nil => rfl
  | cons random randoms ih =>
      rw [List.map_cons, KeServer.addCookies]
      cases generateCookie server.siv server.keys context random with
      | none => rfl
      | some cookie =>
          rw [addCookies]
          refine congrArg (_ >>= ·) (funext fun s => ?_)
          rw [ih]

/-- The calls which do not fail, with the cookies for a context. -/
def succeeding (server : KeServer) (randoms : Fin nkeMaxCookies → ℕ → Byte)
    (context : NkeContext) : HandlerAnswers where
  exportedAlt := true
  exported := true
  cookies j := generateCookie server.siv server.keys context (randoms j)
  isAddress := true

/-- The keys are exported if there is a context. -/
theorem keysExported_eq (server : KeServer) (exportKey : ExportKey) (aead : ℕ)
    (compliant128gcm : Bool) : keysExported server.siv (sivAlgorithm aead) true =
      (server.context exportKey aead compliant128gcm).isSome := by
  rw [keysExported, KeServer.context, KeSession.getKeys]
  dsimp only
  split
  next hlength =>
      refine decide_eq_false fun hexported => ?_
      omega
  next hlength =>
      refine decide_eq_true ⟨?_, ?_, rfl⟩
      · omega
      · omega

theorem addNegotiated_eq (server : KeServer) (exportKey : ExportKey)
    (randoms : Fin nkeMaxCookies → ℕ → Byte) (aead : ℕ) (compliant128gcm : Bool) :
    ∃ context, ∀ session,
      (succeeding server randoms context).addNegotiated server aead compliant128gcm session =
        server.addNegotiated exportKey randoms aead compliant128gcm session := by
  have hexported := keysExported_eq server exportKey aead compliant128gcm
  cases hcontext : server.context exportKey aead compliant128gcm with
  | none =>
      rw [hcontext] at hexported
      refine ⟨invalidContext, fun session => ?_⟩
      rw [addNegotiated, KeServer.addNegotiated, hcontext, succeeding, hexported]
      rfl
  | some context =>
      rw [hcontext] at hexported
      refine ⟨context, fun session => ?_⟩
      rw [addNegotiated, KeServer.addNegotiated, hcontext, succeeding, hexported]
      have hcookies : List.ofFn (fun j =>
          generateCookie server.siv server.keys context (randoms j)) =
            (List.ofFn randoms).map (generateCookie server.siv server.keys context) :=
        List.map_ofFn.symm
      dsimp only
      rw [hcookies]
      simp only [addCookies_map]
      rfl

/-- **The response which is computed** is one of the possible ones. -/
theorem exists_addResponse_eq (server : KeServer) (exportKey : ExportKey)
    (randoms : Fin nkeMaxCookies → ℕ → Byte) (request : KeRequest) :
    ∃ answers : HandlerAnswers, answers.addResponse server request =
      server.addResponse exportKey randoms request := by
  obtain ⟨error, _, _, _, _, nextProtocol, aeadAlgorithm, compliant128gcm⟩ := request
  cases aeadAlgorithm with
  | none => exact ⟨succeeding server randoms invalidContext, rfl⟩
  | some aead =>
      obtain ⟨context, hcontext⟩ :=
        addNegotiated_eq server exportKey randoms aead compliant128gcm
      refine ⟨succeeding server randoms context, funext fun session => ?_⟩
      cases error with
      | some error => rfl
      | none =>
          cases nextProtocol with
          | false => rfl
          | true => exact hcontext session

end HandlerAnswers

/-- **The server of the key establishment** does what is possible here. -/
theorem KeServer.processRequest_refines (hcomplete : session.message.complete = true)
    (hparsed : session.message.parsed ≤ session.message.data.length) (server : KeServer)
    (exportKey : ExportKey) (randoms : Fin nkeMaxCookies → ℕ → Byte) :
    ∃ answers : HandlerAnswers,
      answers.processRequest server session = server.processRequest exportKey randoms session := by
  have hdone : ∀ (request : KeRequest) record, request.error.isSome = true →
      server.addRecord request record = request := fun request record herror => by
    rw [KeServer.addRecord, if_pos herror]
  obtain ⟨parsed, request, hfor, -⟩ := forRecords_returns hcomplete hparsed
    (fun request : KeRequest => request.error.isSome) server.addRecord
    (session.message.data.length + 1) emptyRequest
  obtain ⟨records, hrecords⟩ := getRecords_returns hcomplete hparsed nkeMaxRecordBodyLength
    (session.message.data.length + 1)
  have hfold := forRecords_eq_foldl hdone hcomplete hparsed (session.message.data.length + 1)
    emptyRequest
  rw [hfor, hrecords] at hfold
  obtain rfl := Except.ok.inj hfold
  obtain ⟨answers, hanswers⟩ := HandlerAnswers.exists_addResponse_eq server exportKey randoms
    (records.foldl server.addRecord emptyRequest).checkCounts
  refine ⟨answers, ?_⟩
  rw [HandlerAnswers.processRequest, KeServer.processRequest, hfor, hrecords]
  dsimp only [bind, Except.bind]
  rw [HandlerAnswers.prepareResponse, KeServer.prepareResponse, hanswers]
  rfl

/-- **The client of the key establishment** reads the same response. -/
theorem NkcInstance.processResponse_eq (siv : Siv) (aeads : List ℕ) (data : List Byte) :
    (processResponse siv aeads ⟨⟨data, 0, true⟩, false⟩).map Prod.snd =
      .ok (Nts.processResponse siv aeads data) := by
  have hdone : ∀ (response : KeResponse) record, response.error = true →
      response.addRecord siv aeads record = response := fun response record herror => by
    rw [KeResponse.addRecord, if_pos herror]
  have hparsed : (0 : ℕ) ≤ data.length := Nat.zero_le _
  obtain ⟨parsed, response, hfor, -⟩ := @forRecords_returns _ ⟨⟨data, 0, true⟩, false⟩ rfl hparsed
    KeResponse.error (KeResponse.addRecord siv aeads) (data.length + 1) emptyResponse
  obtain ⟨records, hrecords⟩ := @getRecords_returns ⟨⟨data, 0, true⟩, false⟩ rfl hparsed
    nkeMaxRecordBodyLength (data.length + 1)
  have hfold := @forRecords_eq_foldl _ KeResponse.error (KeResponse.addRecord siv aeads) hdone
    ⟨⟨data, 0, true⟩, false⟩ rfl hparsed (data.length + 1) emptyResponse
  rw [hfor, hrecords] at hfold
  obtain rfl := Except.ok.inj hfold
  have hmessage : messageRecords data = records := by
    rw [messageRecords, hrecords]
    rfl
  rw [processResponse, Nts.processResponse, hmessage]
  dsimp only
  rw [hfor]
  dsimp only [bind, Except.bind]
  split
  · rfl
  · rfl

end Chrony.Nts
