import Mathlib.Logic.Relation
import Chrony.Candm.Cmdmon

/-!
# Sessions of `chronyc` and `chronyd`

The requests of `chronyc` are submitted one after another by `submit_request` of `client.c`, each
in several attempts. The network between `chronyc` and `chronyd` loses, duplicates and reorders the
messages, also those of earlier requests. Meanwhile the daemon processes messages of other clients,
and changes by itself.

The only assumption is that the random sequence number of an attempt was not used in a previous
one.

## Main results

* `accepted_of_reachable`: an accepted reply has the result of the command with the data of the
  request, which was processed by the daemon after the last attempt was sent.
-/

namespace Chrony.Candm

open Lib.Bytes ClientLog

/-! ### The client -/

/-- The command and the data of a `CMD_Request` in `chronyc`. The command is supported, as
`submit_request` asserts. -/
structure Request where
  command : Command
  data : ℕ → Byte
  supported : (requestLengths command).1 ≠ 0

/-- The fields of the header of an attempt. -/
def headerBytes (version command attempt : ℕ) (sequence : BitVec 32) : List Byte :=
  [BitVec.ofNat 8 version, 1, 0, 0] ++ encode16 command ++ encode16 attempt ++
    encode32 sequence.toNat ++ encode32 0 ++ encode32 0

/-- The message of an attempt. The padding is filled with zeros. -/
def Request.message (request : Request) (version attempt : ℕ) (sequence : BitVec 32) :
    List Byte :=
  let commandLength := commandLength version request.command.code
  let paddingLength := commandPaddingLength version request.command.code
  headerBytes version request.command.code attempt sequence ++
    (List.range (commandLength - paddingLength - endOffset requestHeader)).map request.data ++
    List.replicate paddingLength 0

/-- The variables of `submit_request`. -/
structure Submission (ρ : Type) where
  request : Request
  protoVersion : ℕ
  nAttempts : ℕ
  newAttempt : Bool
  attempt : ℕ
  sequence : BitVec 32
  reply : Option (ReplyMessage ρ)

variable {δ ρ : Type}

/-- The start of `submit_request`. The version is kept from the last request. -/
def Submission.start (request : Request) (protoVersion : ℕ) : Submission ρ :=
  ⟨request, protoVersion, 0, true, 0, 0, none⟩

/-- A new attempt, if there can be one. -/
def Submission.send (c : Submission ρ) (sequence : BitVec 32) : Submission ρ :=
  { c with newAttempt := false, attempt := c.nAttempts, sequence := sequence,
           nAttempts := c.nAttempts + 1 }

/-- The message of the last attempt. -/
def Submission.message (c : Submission ρ) : List Byte :=
  c.request.message c.protoVersion c.attempt c.sequence

/-- `PROTO_VERSION_MISMATCH_COMPAT_CLIENT`. -/
def protoVersionMismatchCompatClient : ℕ := 4

/-- The header of a reply is valid. -/
def Submission.isValid (c : Submission ρ) (readLength : ℕ) (r : ReplyMessage ρ) : Bool :=
  endOffset replyHeader ≤ readLength ∧
    (r.version = c.protoVersion ∨
      r.version ≥ protoVersionMismatchCompatClient ∧ r.reply.status = .badPktVersion) ∧
    r.pktType = pktTypeCmdReply ∧ r.res1 = 0 ∧ r.res2 = 0 ∧
    r.command = c.request.command.code ∧ r.sequence = c.sequence

/-- The processing of a reply in `submit_request`. -/
def Submission.receive (c : Submission ρ) (readLength : ℕ) (r : ReplyMessage ρ) : Submission ρ :=
  if !c.isValid readLength r then c
  else if c.protoVersion = protoVersionNumber ∧ r.version = protoVersionNumber - 1 then
    { c with protoVersion := protoVersionNumber - 1, nAttempts := c.nAttempts - 1,
             newAttempt := true }
  else if readLength < replyLengths r.reply.reply then { c with newAttempt := true }
  else { c with reply := some r }

/-! ### The system -/

/-- A message which was processed by the daemon. -/
structure Execution (δ ρ : Type) where
  env : Conditions δ ρ
  msg : Message
  before : State δ
  out : Option (ReplyMessage ρ)

/-- The client, the daemon and the messages between them. The client has an address. A message
which was sent can be delivered at any time and any number of times. -/
structure World (δ ρ : Type) where
  client : Submission ρ
  daemon : State δ
  requests : List (List Byte)
  replies : List (ReplyMessage ρ)
  history : List (Execution δ ρ)
  /-- The number of the messages which were processed before the last attempt. -/
  mark : ℕ

/-- `chronyc` starts to submit its first request. -/
def World.initial (request : Request) (daemon : State δ) : World δ ρ where
  client := .start request protoVersionNumber
  daemon := daemon
  requests := []
  replies := []
  history := []
  mark := 0

/-- The sequence number in a message. -/
def sequenceOf (data : List Byte) : BitVec 32 := (rxMessage data fun _ => 0).sequence

/-- A sequence number which was not used. -/
def World.Fresh (w : World δ ρ) (sequence : BitVec 32) : Prop :=
  ∀ data ∈ w.requests, sequenceOf data ≠ sequence

/-- The steps of the system. The client has the socket and the address of its messages. -/
inductive World.Step (seed : BitVec 32) (maxRetries : ℕ) (sockFd : Socket) (addr : Address) :
    World δ ρ → World δ ρ → Prop
  /-- The client starts to submit another request. -/
  | submit (w : World δ ρ) (request : Request) :
      Step seed maxRetries sockFd addr w
        { w with client := .start request w.client.protoVersion }
  /-- The client sends a new attempt. -/
  | attempt (w : World δ ρ) (sequence : BitVec 32) (hnew : w.client.newAttempt)
      (hretries : w.client.nAttempts ≤ maxRetries) (hwait : w.client.reply = none)
      (hfresh : w.Fresh sequence) :
      Step seed maxRetries sockFd addr w
        { w with client := w.client.send sequence,
                 requests := w.requests ++ [(w.client.send sequence).message],
                 mark := w.history.length }
  /-- The timeout of an attempt. -/
  | timeout (w : World δ ρ) (hwait : w.client.reply = none) :
      Step seed maxRetries sockFd addr w { w with client := { w.client with newAttempt := true } }
  /-- A message of the client is delivered to the daemon. -/
  | deliver (w : World δ ρ) (data : List Byte) (hsent : data ∈ w.requests)
      (env : Conditions δ ρ) (out : Option (ReplyMessage ρ)) (daemon : State δ)
      (h : readFromCmdSocket seed env ⟨sockFd, addr, data⟩ w.daemon = .ok (out, daemon)) :
      Step seed maxRetries sockFd addr w
        { w with daemon := daemon, replies := w.replies ++ out.toList,
                 history := w.history ++ [⟨env, ⟨sockFd, addr, data⟩, w.daemon, out⟩] }
  /-- The daemon processes a message from another address. -/
  | foreign (w : World δ ρ) (msg : Message) (hother : msg.remoteAddr ≠ addr)
      (env : Conditions δ ρ) (out : Option (ReplyMessage ρ)) (daemon : State δ)
      (h : readFromCmdSocket seed env msg w.daemon = .ok (out, daemon)) :
      Step seed maxRetries sockFd addr w
        { w with daemon := daemon, history := w.history ++ [⟨env, msg, w.daemon, out⟩] }
  /-- The daemon changes by itself. -/
  | internal (w : World δ ρ) (daemon : State δ) :
      Step seed maxRetries sockFd addr w { w with daemon := daemon }
  /-- A reply is delivered to the client, which waits for it. -/
  | receive (w : World δ ρ) (r : ReplyMessage ρ) (hsent : r ∈ w.replies)
      (hwait : w.client.newAttempt = false) (hnone : w.client.reply = none) :
      Step seed maxRetries sockFd addr w { w with client := w.client.receive r.length r }

/-! ### The message of an attempt -/

section

variable (request : Request) (attempt : ℕ) (sequence : BitVec 32) (memory : Memory)

theorem message_header :
    let rx := rxMessage (request.message protoVersionNumber attempt sequence) memory
    rx.version = protoVersionNumber ∧ rx.command = request.command.code ∧
      rx.sequence = sequence := by
  refine ⟨rfl, ?_, ?_⟩
  · have hcode : request.command.code < 65536 := lt_trans request.command.code_lt (by decide)
    have h := decode16_encode16_of_lt hcode []
    rwa [List.append_nil] at h
  · have h := decode32_encode32 sequence.isLt []
    rw [List.append_nil] at h
    change BitVec.ofNat 32 (decode32 (encode32 sequence.toNat)) = sequence
    rw [h, BitVec.ofNat_toNat, BitVec.setWidth_eq]

theorem requestLengths_ge {command : Command} (h : (requestLengths command).1 ≠ 0) :
    endOffset requestHeader ≤ (requestLengths command).1 := by
  cases command
  case null | logon | localRef | addServer | addPeer | doffset | subnetsAccessed | clientAccesses |
      clientAccessesByIndex | clientAccessesByIndex2 | local2 | addServer2 | addPeer2 | addServer3 |
      addPeer3 => exact absurd rfl h
  all_goals
    simp only [requestLengths, reqLengthEntry, offsetOfEor]
    exact Nat.le_add_right _ _

theorem commandLength_code {command : Command} (h : (requestLengths command).1 ≠ 0)
    (version : ℕ) : commandLength version command.code =
      (requestLengths command).1 + commandPaddingLength version command.code := by
  rw [commandLength, command.ofCode_code]
  exact if_neg h

theorem length_message : (request.message protoVersionNumber attempt sequence).length =
    commandLength protoVersionNumber request.command.code := by
  have hlength := commandLength_code request.supported protoVersionNumber
  have hge := requestLengths_ge request.supported
  have hheader : (headerBytes protoVersionNumber request.command.code attempt sequence).length =
      endOffset requestHeader := rfl
  rw [Request.message]
  rw [List.length_append, List.length_append, List.length_map, List.length_range,
    List.length_replicate, hheader]
  omega

/-- The data of the request are in the message. -/
theorem message_data {k : ℕ}
    (hk : endOffset requestHeader + k < (requestLengths request.command).1) :
    rxMessage (request.message protoVersionNumber attempt sequence) memory
      (endOffset requestHeader + k) = request.data k := by
  have hlength := commandLength_code request.supported protoVersionNumber
  have hheader : (headerBytes protoVersionNumber request.command.code attempt sequence).length =
      endOffset requestHeader := rfl
  have hrange : k < (List.range (commandLength protoVersionNumber request.command.code -
      commandPaddingLength protoVersionNumber request.command.code -
        endOffset requestHeader)).length := by
    rw [List.length_range]
    omega
  rw [rxMessage, Request.message]
  rw [List.append_assoc, ← hheader, List.getD_append_right _ _ _ _ (Nat.le_add_right _ _),
    Nat.add_sub_cancel_left, List.getD_append _ _ _ _ (by rwa [List.length_map]),
    List.getD_eq_getElem _ _ (by rwa [List.length_map]), List.getElem_map, List.getElem_range]

/-- **The daemon processes an attempt** with its handler. -/
theorem processRequest_message (B : Backend δ ρ) (now : Timespec) (fullAccess : Bool)
    (s : State δ) :
    let data := request.message protoVersionNumber attempt sequence
    let r := handleCommand B (rxMessage data memory) s now fullAccess request.command
    processRequest B now fullAccess data.length (rxMessage data memory) s =
      (transmitReply data.length (rxMessage data memory) r.1, r.2) := by
  obtain ⟨hversion, hcommand, -⟩ := message_header request attempt sequence memory
  have hge : endOffset requestHeader ≤ commandLength protoVersionNumber request.command.code := by
    rw [commandLength_code request.supported]
    exact (requestLengths_ge request.supported).trans (Nat.le_add_right _ _)
  dsimp only
  rw [processRequest, hversion, hcommand, if_neg (not_not.mpr rfl), request.command.ofCode_code]
  dsimp only
  rw [if_neg (not_lt.mpr hge), if_neg (not_lt.mpr (length_message request attempt sequence).ge)]

end

/-! ### The invariant -/

variable {seed : BitVec 32} {maxRetries : ℕ} {sockFd : Socket} {addr : Address}
  {w w' : World δ ρ}

/-- A reply is the output of the daemon for the last attempt, which was processed after the attempt
was sent. -/
def World.Answered (seed : BitVec 32) (sockFd : Socket) (addr : Address) (w : World δ ρ)
    (r : ReplyMessage ρ) : Prop :=
  ∃ i e s', w.mark ≤ i ∧ w.history[i]? = some e ∧ e.msg = ⟨sockFd, addr, w.client.message⟩ ∧
    e.out = some r ∧ readFromCmdSocket seed e.env e.msg e.before = .ok (some r, s')

/-- **What holds while requests are submitted.** -/
structure World.Inv (seed : BitVec 32) (sockFd : Socket) (addr : Address) (w : World δ ρ) :
    Prop where
  version : w.client.protoVersion = protoVersionNumber
  /-- Only the last attempt has its sequence number. -/
  unique : w.client.newAttempt = false →
    ∀ data ∈ w.requests, sequenceOf data = w.client.sequence → data = w.client.message
  mark : w.mark ≤ w.history.length
  /-- The daemon processed the messages. -/
  processed : ∀ e ∈ w.history,
    (∃ s', readFromCmdSocket seed e.env e.msg e.before = .ok (e.out, s')) ∧
      (e.msg.remoteAddr = addr → e.msg.sockFd = sockFd ∧ e.msg.data ∈ w.requests)
  /-- What was processed before the last attempt has another sequence number. -/
  before : w.client.newAttempt = false → ∀ i < w.mark, ∀ e, w.history[i]? = some e →
    e.msg.remoteAddr = addr → sequenceOf e.msg.data ≠ w.client.sequence
  /-- A reply to the client comes from the daemon. -/
  replies : ∀ r ∈ w.replies, ∃ e ∈ w.history, e.msg.remoteAddr = addr ∧ e.out = some r
  accepted : ∀ r, w.client.reply = some r → w.Answered seed sockFd addr r

theorem World.initial_inv (request : Request) (daemon : State δ) :
    (World.initial request daemon : World δ ρ).Inv seed sockFd addr where
  version := rfl
  unique := by simp [World.initial]
  mark := Nat.le_refl 0
  processed := by simp [World.initial]
  before := fun _ i hi => absurd hi (Nat.not_lt_zero i)
  replies := by simp [World.initial]
  accepted := by simp [World.initial, Submission.start]

/-- A reply has the sequence number of the message. -/
theorem sequence_eq_of_reply {env : Conditions δ ρ} {msg : Message} {s s' : State δ}
    {r : ReplyMessage ρ} (h : readFromCmdSocket seed env msg s = .ok (some r, s')) :
    r.sequence = sequenceOf msg.data := by
  obtain ⟨hiff, hreply⟩ := isSome_iff_accepted h
  obtain ⟨remoteIp, localhost, fullAccess, log, hadmitted, -⟩ := hiff.mp rfl
  have hheaders : endOffset requestHeader ≤ endOffset replyHeader := by decide
  rw [(hreply r rfl).sequence, sequenceOf]
  refine (Memory.header_congr (hheaders.trans hadmitted.min) fun i hi => ?_).2.2.2.2.2
  rw [rxMessage, rxMessage, List.getD_eq_getElem _ _ hi, List.getD_eq_getElem _ _ hi]

theorem reply_of_transmitReply {readLength : ℕ} {rx : Memory} {reply : Reply ρ}
    {r : ReplyMessage ρ} (h : transmitReply readLength rx reply = some r) : r.reply = reply := by
  rw [transmitReply] at h
  split at h
  · cases h
  · obtain rfl := Option.some.inj h
    rfl

/-- The answer is still there after more messages. -/
theorem World.Answered.mono {r : ReplyMessage ρ} (h : w.Answered seed sockFd addr r)
    (hmark : w'.mark = w.mark) (hclient : w'.client.message = w.client.message)
    {l : List (Execution δ ρ)} (hhistory : w'.history = w.history ++ l) :
    w'.Answered seed sockFd addr r := by
  obtain ⟨i, e, s', hi, hget, hmsg, hout, hread⟩ := h
  refine ⟨i, e, s', by rwa [hmark], ?_, by rwa [hclient], hout, hread⟩
  rw [hhistory, List.getElem?_append_left]
  · exact hget
  · exact (List.getElem?_eq_some_iff.mp hget).1

/-- More messages are processed by the daemon. -/
theorem World.Inv.process (hinv : w.Inv seed sockFd addr) {env : Conditions δ ρ}
    {msg : Message} {out : Option (ReplyMessage ρ)} {daemon : State δ}
    (h : readFromCmdSocket seed env msg w.daemon = .ok (out, daemon))
    (hmsg : msg.remoteAddr = addr → msg.sockFd = sockFd ∧ msg.data ∈ w.requests)
    {replies : List (ReplyMessage ρ)}
    (hreplies : ∀ r ∈ replies, msg.remoteAddr = addr ∧ out = some r) :
    ({ w with daemon := daemon, replies := w.replies ++ replies,
              history := w.history ++ [⟨env, msg, w.daemon, out⟩] } : World δ ρ).Inv
      seed sockFd addr where
  version := hinv.version
  unique := hinv.unique
  mark := hinv.mark.trans (by simp)
  processed := by
    rintro e he
    rcases List.mem_append.mp he with he | he
    · exact hinv.processed e he
    · obtain rfl := List.mem_singleton.mp he
      exact ⟨⟨daemon, h⟩, hmsg⟩
  before := by
    rintro hsent i hi e hget
    rw [List.getElem?_append_left (lt_of_lt_of_le hi hinv.mark)] at hget
    exact hinv.before hsent i hi e hget
  replies := by
    rintro r hr
    rcases List.mem_append.mp hr with hr | hr
    · obtain ⟨e, he, hout⟩ := hinv.replies r hr
      exact ⟨e, List.mem_append_left _ he, hout⟩
    · exact ⟨_, List.mem_append_right _ (List.mem_singleton_self _), hreplies r hr⟩
  accepted := fun r hr => (hinv.accepted r hr).mono rfl rfl rfl

theorem World.Inv.attempt (hinv : w.Inv seed sockFd addr) {sequence : BitVec 32}
    (hwait : w.client.reply = none) (hfresh : w.Fresh sequence) :
    ({ w with client := w.client.send sequence,
              requests := w.requests ++ [(w.client.send sequence).message],
              mark := w.history.length } : World δ ρ).Inv seed sockFd addr where
  version := hinv.version
  unique := by
    rintro - data hdata hsequence
    rcases List.mem_append.mp hdata with hdata | hdata
    · exact absurd hsequence (hfresh data hdata)
    · exact List.mem_singleton.mp hdata
  mark := Nat.le_refl _
  processed := by
    rintro e he
    obtain ⟨hread, hown⟩ := hinv.processed e he
    exact ⟨hread, fun haddr => ⟨(hown haddr).1, List.mem_append_left _ (hown haddr).2⟩⟩
  before := by
    rintro - i - e hget haddr
    have he : e ∈ w.history := List.mem_of_getElem? hget
    exact hfresh _ ((hinv.processed e he).2 haddr).2
  replies := hinv.replies
  accepted := fun r hr => absurd hr (by simp [Submission.send, hwait])

/-- The client accepts only a reply to the last attempt. -/
theorem World.Inv.answered (hinv : w.Inv seed sockFd addr) (hsent : w.client.newAttempt = false)
    {r : ReplyMessage ρ} (hr : r ∈ w.replies) (hvalid : w.client.isValid r.length r) :
    w.Answered seed sockFd addr r ∧ r.version = protoVersionNumber ∧
      r.length = replyLengths r.reply.reply := by
  obtain ⟨e, he, haddr, hout⟩ := hinv.replies r hr
  obtain ⟨⟨s', hread⟩, hown⟩ := hinv.processed e he
  obtain ⟨hsock, hdata⟩ := hown haddr
  rw [hout] at hread
  have hto := (isSome_iff_accepted hread).2 r rfl
  have hsequence : sequenceOf e.msg.data = w.client.sequence := by
    rw [Submission.isValid, decide_eq_true_eq] at hvalid
    exact (sequence_eq_of_reply hread).symm.trans hvalid.2.2.2.2.2.2
  obtain ⟨i, hget⟩ := List.mem_iff_getElem?.mp he
  refine ⟨⟨i, e, s', ?_, hget, ?_, hout, hread⟩, hto.version, hto.length⟩
  · by_contra hlt
    exact hinv.before hsent i (not_le.mp hlt) e hget haddr hsequence
  · rw [← hinv.unique hsent _ hdata hsequence, ← hsock, ← haddr]

theorem World.Inv.receive (hinv : w.Inv seed sockFd addr) (hsent : w.client.newAttempt = false)
    {r : ReplyMessage ρ} (hr : r ∈ w.replies) :
    ({ w with client := w.client.receive r.length r } : World δ ρ).Inv seed sockFd addr := by
  rw [Submission.receive]
  split
  · exact hinv
  next hvalid =>
      obtain ⟨hanswered, hversion, hlength⟩ := hinv.answered hsent hr (by simpa using hvalid)
      rw [if_neg fun hold => absurd (hversion.symm.trans hold.2) (by decide),
        if_neg (not_lt.mpr hlength.ge)]
      exact { hinv with
        accepted := fun r' hr' => by
          obtain rfl := Option.some.inj hr'
          exact hanswered.mono rfl rfl (List.append_nil _).symm }

theorem World.Step.inv (hinv : w.Inv seed sockFd addr)
    (h : World.Step seed maxRetries sockFd addr w w') : w'.Inv seed sockFd addr := by
  cases h with
  | submit request =>
      exact { hinv with
        unique := fun hsent => absurd hsent (by simp [Submission.start])
        before := fun hsent => absurd hsent (by simp [Submission.start])
        accepted := fun r hr => absurd hr (by simp [Submission.start]) }
  | attempt sequence hnew hretries hwait hfresh => exact hinv.attempt hwait hfresh
  | timeout hwait =>
      exact { hinv with
        unique := fun hsent => absurd hsent (by simp)
        before := fun hsent => absurd hsent (by simp) }
  | deliver data hsent env out daemon h =>
      refine hinv.process h (fun _ => ⟨rfl, hsent⟩) fun r hr => ⟨rfl, ?_⟩
      exact Option.mem_toList.mp hr
  | foreign msg hother env out daemon h =>
      have hnone : ∀ r ∈ ([] : List (ReplyMessage ρ)), msg.remoteAddr = addr ∧ out = some r :=
        fun r hr => absurd hr (List.not_mem_nil)
      have hprocess := hinv.process h (fun haddr => absurd haddr hother) hnone
      rwa [List.append_nil] at hprocess
  | internal daemon => exact { hinv with }
  | receive r hsent hwait hnone => exact hinv.receive hwait hsent

theorem World.inv_of_reachable {request : Request} {daemon : State δ}
    (h : Relation.ReflTransGen (World.Step seed maxRetries sockFd addr)
      (World.initial request daemon : World δ ρ) w) : w.Inv seed sockFd addr := by
  induction h with
  | refl => exact World.initial_inv request daemon
  | tail _ hstep ih => exact hstep.inv ih

/-- A reply is what the daemon sent for the request, and it has the result of its handler. -/
structure Handled (seed : BitVec 32) (request : Request) (sockFd : Socket) (addr : Address)
    (e : Execution δ ρ) (r : ReplyMessage ρ) : Prop where
  out : e.out = some r
  handler : ∃ remoteIp localhost fullAccess log,
    checkAddress e.before.accessAuthTable sockFd addr = some (remoteIp, localhost, fullAccess) ∧
      e.env.limit seed e.before remoteIp localhost = .ok (true, log) ∧
      r.reply = (handleCommand e.env.backend (rxMessage e.msg.data e.env.memory)
        { e.before with clientLog := log } (e.env.backend.schGetLastEventTime e.before.daemon).1
        fullAccess request.command).1
  data : ∀ k, endOffset requestHeader + k < (requestLengths request.command).1 →
    rxMessage e.msg.data e.env.memory (endOffset requestHeader + k) = request.data k
  answers : r.reply.Answers (dataReply request.command)

theorem World.Inv.handled (hinv : w.Inv seed sockFd addr) {r : ReplyMessage ρ}
    {e : Execution δ ρ} {s' : State δ} (hmsg : e.msg = ⟨sockFd, addr, w.client.message⟩)
    (hsent : e.out = some r)
    (hread : readFromCmdSocket seed e.env e.msg e.before = .ok (some r, s')) :
    Handled seed w.client.request sockFd addr e r := by
  have hdata : e.msg.data =
      w.client.request.message protoVersionNumber w.client.attempt w.client.sequence := by
    rw [hmsg, ← hinv.version]
    rfl
  rcases readFromCmdSocket_cases hread with ⟨⟨hnone, -⟩, -⟩ |
    ⟨remoteIp, localhost, fullAccess, passed, log, hadmitted, hlimit, hout⟩
  · cases hnone
  · cases passed with
    | false => cases (Prod.mk.inj hout).1
    | true =>
        rw [if_pos rfl, hdata, processRequest_message, ← hdata] at hout
        have hreply := reply_of_transmitReply (Prod.mk.inj hout).1.symm
        have haddress := hadmitted.address
        rw [hmsg] at haddress
        refine ⟨hsent, ⟨remoteIp, localhost, fullAccess, log, haddress, hlimit, hreply⟩,
          fun k hk => ?_, ?_⟩
        · rw [hdata]
          exact message_data w.client.request _ _ _ hk
        · rw [hreply]
          exact handleCommand_answers _ _ _ _ _ _

/-- **An accepted reply is the answer to the request.** Whatever the network does with the messages
of this and the earlier requests, and whatever else is processed by the daemon, the reply which is
accepted by `chronyc` is the result of the command with the data of the request, in a state of the
daemon after the last attempt was sent. -/
theorem accepted_of_reachable {request : Request} {daemon : State δ}
    (h : Relation.ReflTransGen (World.Step seed maxRetries sockFd addr)
      (World.initial request daemon : World δ ρ) w) {r : ReplyMessage ρ}
    (hr : w.client.reply = some r) :
    ∃ i e, w.mark ≤ i ∧ w.history[i]? = some e ∧
      e.msg = ⟨sockFd, addr, w.client.message⟩ ∧
      Handled seed w.client.request sockFd addr e r := by
  have hinv := World.inv_of_reachable h
  obtain ⟨i, e, s', hi, hget, hmsg, hout, hread⟩ := hinv.accepted r hr
  exact ⟨i, e, hi, hget, hmsg, hinv.handled hmsg hout hread⟩

/-- A request for the number of sources. -/
def sampleRequest : Request := ⟨.nSources, fun _ => 0, by decide⟩

/-- A request for the activity of the sources. -/
def sampleRequest' : Request := ⟨.activity, fun _ => 0, by decide⟩

set_option maxRecDepth 4000 in
theorem accepted_of_reachable_sample : ∃ (w : World Unit Unit) (r : ReplyMessage Unit),
    w.client.reply = some r ∧ w.requests.length = 2 ∧ w.history.length = 3 ∧
      ∃ i e, w.mark ≤ i ∧ w.history[i]? = some e ∧
        e.msg = ⟨.sockFdu, .unix [], w.client.message⟩ ∧
        Handled 0 w.client.request .sockFdu (.unix []) e r := by
  have hfirst : Relation.ReflTransGen (World.Step 0 2 .sockFdu (.unix []))
      (World.initial sampleRequest sampleState : World Unit Unit) _ :=
    ((Relation.ReflTransGen.refl.tail
      (.attempt _ 7 rfl (Nat.zero_le _) rfl fun data hdata => absurd hdata List.not_mem_nil)).tail
      (.deliver _ _ (List.mem_singleton_self _) sampleConditions _ _ rfl)).tail
      (.receive _ _ (List.mem_singleton_self _) rfl rfl)
  -- the first request is delivered once more after the second one was sent
  have hrun := ((((hfirst.tail (.submit _ sampleRequest')).tail
    (.attempt _ 8 rfl (Nat.zero_le _) rfl fun data hdata => by
      obtain rfl := List.mem_singleton.mp hdata
      decide)).tail
    (.deliver _ _ (List.mem_cons_self ..) sampleConditions _ _ rfl)).tail
    (.deliver _ _ (List.mem_cons_of_mem _ (List.mem_singleton_self _)) sampleConditions _ _
      rfl)).tail
    (.receive _ _ (List.mem_cons_of_mem _ (List.mem_cons_of_mem _ (List.mem_singleton_self _)))
      rfl rfl)
  exact ⟨_, _, rfl, rfl, rfl, accepted_of_reachable hrun rfl⟩

end Chrony.Candm
