import Chrony.Addressing
import Chrony.Lib.Bytes
import Chrony.Lib.RingBuffer
import Chrony.Lib.Run
import Chrony.Ntp.Ext

/-!
# Packets Signed by Another Process

`ntp_signd.c`: packets are signed by a process on the other side of a stream socket. The packets
which wait for it are in a queue. The requests are written one after another, each after the
response to the previous one was received.

A response which is received before its request is completely written is accepted too. The queue
can then be empty with the output still enabled.

## Main results

* `run_signd`: the queue in every run without such responses.
* `early_response`: a run with an early response.
-/

namespace Chrony.Signd

open Lib Bytes Ntp

/-- `MAX_QUEUE_LENGTH`. -/
def maxQueueLength : ℕ := 16

/-- `NEXT_QUEUE_INDEX`. -/
def nextQueueIndex (index : ℕ) : ℕ := (index + 1) % maxQueueLength

/-- `offsetof(SigndRequest, packet_to_sign)`. -/
def requestHeaderLength : ℕ := 20

/-- `offsetof(SigndResponse, signed_packet)`. -/
def responseHeaderLength : ℕ := 16

/-- `sizeof(SigndResponse)`. -/
def sizeofResponse : ℕ := responseHeaderLength + maxPacketLength

/-- `SIGND_VERSION`. -/
def signdVersion : ℕ := 0

/-- `SIGN_TO_CLIENT`. -/
def signToClient : ℕ := 0

/-- `SIGNING_SUCCESS`. -/
def signingSuccess : ℕ := 3

/-- `NTP_Local_Address`. -/
structure LocalAddress where
  ipAddr : IPAddr
  ifIndex : ℤ
  sockFd : ℤ
  deriving DecidableEq

/-- A request with the addresses of the client. -/
structure Request where
  remoteAddr : RemoteAddress
  localAddr : LocalAddress
  bytes : List Byte
  deriving DecidableEq

/-- `SignInstance`. The number of received bytes is the length of the response. -/
structure SignInstance where
  request : Request
  sent : ℕ
  response : List Byte

/-- `request_length`. -/
def SignInstance.requestLength (inst : SignInstance) : ℕ := inst.request.bytes.length

/-- The assertions of `read_write_socket`. -/
inductive Assertion
  | queueNotEmpty
  | requestNotSent
  | responseNotFull
  deriving DecidableEq

/-- The variables of the module, and whether the output of the socket is enabled. -/
structure State where
  enabled : Bool
  queue : ℕ → SignInstance
  queueHead : ℕ
  queueTail : ℕ
  sockOpen : Bool
  output : Bool
  loggedConnectionError : Bool

/-- `NSD_Initialise`. -/
def State.init (enabled : Bool) : State :=
  ⟨enabled, fun _ => ⟨⟨⟨.unspec, 0⟩, ⟨.unspec, 0, 0⟩, []⟩, 0, []⟩, 0, 0, false, false, false⟩

/-- `IS_QUEUE_EMPTY`. -/
def State.IsQueueEmpty (s : State) : Prop := s.queueHead = s.queueTail

instance (s : State) : Decidable s.IsQueueEmpty := inferInstanceAs (Decidable (_ = _))

/-- `close_socket`. -/
def State.closeSocket (s : State) : State :=
  { s with sockOpen := false, output := false, queueHead := 0, queueTail := 0 }

/-- `open_socket`, with the result of `SCK_OpenUnixStreamSocket`. -/
def State.openSocket (s : State) (opened : Bool) : State × Bool :=
  if s.sockOpen then (s, true)
  else if !opened then ({ s with loggedConnectionError := true }, false)
  else ({ s with sockOpen := true, output := false }, true)

/-- The bytes of a request. The packet is a function of the offset. -/
def requestBytes (keyId packetId : ℕ) (packet : ℕ → Byte) (length : ℕ) : List Byte :=
  encode32 (requestHeaderLength + length - 4) ++ encode32 signdVersion ++ encode32 signToClient ++
    encode16 packetId ++ encode16 0 ++ encode32 keyId ++ (List.range length).map packet

/-- `NSD_SignAndSendPacket`. -/
def State.signAndSendPacket (s : State) (keyId : ℕ) (packet : ℕ → Byte) (length : ℕ)
    (remoteAddr : RemoteAddress) (localAddr : LocalAddress) (opened : Bool) : State × Bool :=
  if !s.enabled then (s, false)
  else if s.queueHead = nextQueueIndex s.queueTail then (s, false)
  else if length ≠ ntpHeaderLength then (s, false)
  else
    let r := s.openSocket opened
    if !r.2 then (r.1, false)
    else
      let s := r.1
      let request : Request := ⟨remoteAddr, localAddr, requestBytes keyId s.queueTail packet length⟩
      ({ s with
          queue := Function.update s.queue s.queueTail ⟨request, 0, []⟩
          output := if s.IsQueueEmpty then true else s.output
          queueTail := nextQueueIndex s.queueTail }, true)

/-- A packet which is sent to a client. -/
structure SentPacket where
  remoteAddr : RemoteAddress
  localAddr : LocalAddress
  packet : List Byte
  deriving DecidableEq

/-- The length of a response, from its first field. -/
def responseLength (response : List Byte) : ℕ := (decode32 response + 4) % 2 ^ 32

/-- `process_response`, with the result of `NIO_IsServerSocket`. It returns the packet which is
sent, and whether signing succeeded. -/
def processResponse (packetId : ℕ) (inst : SignInstance) (serverSocket : Bool) :
    Option SentPacket × Bool :=
  if packetId ≠ decode32 (inst.response.drop 12) then (none, false)
  else if decode32 (inst.response.drop 8) ≠ signingSuccess then (none, false)
  else if !serverSocket then (none, true)
  else
    (some ⟨inst.request.remoteAddr, inst.request.localAddr,
      slice inst.response responseHeaderLength
        (responseLength inst.response - responseHeaderLength)⟩, true)

/-- `read_write_socket` for an output event, with the result of `SCK_Send`. -/
def State.writeSocket (s : State) (result : Option ℕ) : Except Assertion State :=
  let inst := s.queue s.queueHead
  if s.IsQueueEmpty then .error .queueNotEmpty
  else if ¬inst.sent < inst.requestLength then .error .requestNotSent
  else
    match result with
    | none => .ok s.closeSocket
    | some n =>
        let inst := { inst with sent := inst.sent + n }
        let s := { s with queue := Function.update s.queue s.queueHead inst }
        if inst.sent < inst.requestLength then .ok s else .ok { s with output := false }

/-- The end of an input event. -/
inductive InputResult
  | closed (s : State)
  | waits (s : State)
  | completed (s : State) (sent : Option SentPacket)

/-- The packet identifier of a request. -/
def SignInstance.packetId (inst : SignInstance) : ℕ := decode16 (inst.request.bytes.drop 12)

/-- The part of `read_write_socket` after data was received for the first request. -/
def State.receive (s : State) (inst : SignInstance) (serverSocket : Bool) : InputResult :=
  let s := { s with queue := Function.update s.queue s.queueHead inst }
  if inst.response.length < 4 then .waits s
  else
    let length := responseLength inst.response
    if length < responseHeaderLength ∨ length > sizeofResponse then .closed s.closeSocket
    else if inst.response.length < length then .waits s
    else
      let r := processResponse inst.packetId inst serverSocket
      let s := { s with
        loggedConnectionError := if r.2 then false else s.loggedConnectionError
        queueHead := nextQueueIndex s.queueHead }
      .completed { s with output := if s.IsQueueEmpty then s.output else true } r.1

/-- `read_write_socket` for an input event, with the result of `SCK_Receive` if it is called. -/
def State.readSocket (s : State) (result : Option (List Byte)) (serverSocket : Bool) :
    Except Assertion InputResult :=
  let inst := s.queue s.queueHead
  if s.IsQueueEmpty then .ok (.closed s.closeSocket)
  else if ¬inst.response.length < sizeofResponse then .error .responseNotFull
  else
    match result with
    | none => .ok (.closed s.closeSocket)
    | some [] => .ok (.closed s.closeSocket)
    | some (b :: data) =>
        .ok (s.receive { inst with response := inst.response ++ b :: data } serverSocket)

/-! ### The queue -/

/-- The number of requests in the queue. -/
def State.size (s : State) : ℕ := (s.queueTail + maxQueueLength - s.queueHead) % maxQueueLength

/-- **The requests in the queue**, in their order. -/
def State.pending (s : State) : List SignInstance :=
  RingBuffer.view s.queue s.queueHead maxQueueLength s.size

variable {s : State}

theorem isQueueEmpty_iff (hhead : s.queueHead < maxQueueLength)
    (htail : s.queueTail < maxQueueLength) : s.IsQueueEmpty ↔ s.pending = [] := by
  rw [← List.length_eq_zero_iff, State.pending, RingBuffer.length_view, State.size,
    State.IsQueueEmpty]
  simp only [maxQueueLength] at hhead htail ⊢
  omega

theorem pending_of_isQueueEmpty (h : s.IsQueueEmpty) : s.pending = [] := by
  have hsize : s.size = 0 := by
    rw [State.size, h, Nat.add_sub_cancel_left, Nat.mod_self]
  rw [State.pending, hsize]
  rfl

/-- The first request is at the head. -/
theorem head?_pending (hhead : s.queueHead < maxQueueLength)
    (htail : s.queueTail < maxQueueLength) (hne : ¬s.IsQueueEmpty) :
    s.pending.head? = some (s.queue s.queueHead) := by
  have hsize : s.pending ≠ [] := fun h => hne ((isQueueEmpty_iff hhead htail).mpr h)
  have hpos : 0 < s.pending.length := List.length_pos_iff.mpr hsize
  rw [List.head?_eq_getElem?, List.getElem?_eq_getElem hpos]
  simp only [State.pending, RingBuffer.getElem_view, RingBuffer.pos, Nat.add_zero,
    Nat.mod_eq_of_lt hhead]

/-- A request is added at the end. -/
theorem pending_push (hhead : s.queueHead < maxQueueLength) (htail : s.queueTail < maxQueueLength)
    (hfull : s.queueHead ≠ nextQueueIndex s.queueTail) (inst : SignInstance) {s' : State}
    (hqueue : s'.queue = Function.update s.queue s.queueTail inst)
    (hhead' : s'.queueHead = s.queueHead) (htail' : s'.queueTail = nextQueueIndex s.queueTail) :
    s'.pending = s.pending ++ [inst] ∧ s.pending.length < maxQueueLength - 1 := by
  have hsize : s'.size = s.size + 1 ∧ s.size < maxQueueLength - 1 ∧
      s.queueTail = RingBuffer.pos s.queueHead maxQueueLength s.size := by
    rw [State.size, State.size, RingBuffer.pos, hhead', htail']
    simp only [nextQueueIndex, maxQueueLength] at hhead htail hfull ⊢
    omega
  obtain ⟨hsize, hlt, hpos⟩ := hsize
  refine ⟨?_, by rwa [State.pending, RingBuffer.length_view]⟩
  rw [State.pending, State.pending, hqueue, hhead', hsize, hpos,
    RingBuffer.view_push s.queue inst (by omega)]

/-- The first request is changed. -/
theorem pending_update (hhead : s.queueHead < maxQueueLength) (inst : SignInstance) {s' : State}
    (hqueue : s'.queue = Function.update s.queue s.queueHead inst)
    (hhead' : s'.queueHead = s.queueHead) (htail' : s'.queueTail = s.queueTail) :
    s'.pending = s.pending.set 0 inst := by
  have hpos : s.queueHead = RingBuffer.pos s.queueHead maxQueueLength 0 := by
    rw [RingBuffer.pos, Nat.add_zero, Nat.mod_eq_of_lt hhead]
  have hsize : s'.size = s.size := by rw [State.size, State.size, hhead', htail']
  have hview : RingBuffer.view (Function.update s.queue
      (RingBuffer.pos s.queueHead maxQueueLength 0) inst) s.queueHead maxQueueLength s.size = _ :=
    RingBuffer.view_update s.queue inst (by decide) (Nat.le_of_lt (Nat.mod_lt _ (by decide)))
  rw [← hpos] at hview
  rw [State.pending, State.pending, hqueue, hhead', hsize]
  exact hview

/-- The first request is removed. -/
theorem pending_pop (hhead : s.queueHead < maxQueueLength) (htail : s.queueTail < maxQueueLength)
    (hne : ¬s.IsQueueEmpty) {s' : State} (hqueue : s'.queue = s.queue)
    (hhead' : s'.queueHead = nextQueueIndex s.queueHead) (htail' : s'.queueTail = s.queueTail) :
    s'.pending = s.pending.tail := by
  have hsize : s.size = s'.size + 1 := by
    rw [State.size, State.size, hhead', htail']
    simp only [State.IsQueueEmpty, nextQueueIndex, maxQueueLength] at hhead htail hne ⊢
    omega
  rw [State.pending, State.pending, hqueue, hhead', hsize, nextQueueIndex,
    RingBuffer.view_advance]

/-- **The invariant of the queue.** Only the first request is written, and the output is enabled
until it is completely written. -/
structure State.Valid (s : State) : Prop where
  head : s.queueHead < maxQueueLength
  tail : s.queueTail < maxQueueLength
  output : s.output = true ↔ ∃ inst ∈ s.pending.head?, inst.sent < inst.requestLength
  first : ∀ inst ∈ s.pending.head?, inst.sent ≤ inst.requestLength ∧
    inst.response.length < sizeofResponse
  rest : ∀ inst ∈ s.pending.tail, inst.sent = 0 ∧ inst.response = []
  requests : ∀ inst ∈ s.pending, 0 < inst.requestLength
  closed : s.sockOpen = false → s.pending = []

theorem valid_of_empty (hhead : s.queueHead < maxQueueLength) (htail : s.queueTail < maxQueueLength)
    (hpending : s.pending = []) (houtput : s.output = false) : s.Valid := by
  refine ⟨hhead, htail, ?_, ?_, ?_, ?_, fun _ => hpending⟩
  · rw [hpending, houtput]
    simp
  all_goals
    rw [hpending]
    nofun

theorem exists_first (h : s.Valid) (hne : ¬s.IsQueueEmpty) : ∃ inst rest,
    s.queue s.queueHead = inst ∧ s.pending = inst :: rest ∧ inst.sent ≤ inst.requestLength ∧
      inst.response.length < sizeofResponse ∧ 0 < inst.requestLength ∧
      (s.output = true ↔ inst.sent < inst.requestLength) ∧
      (∀ inst' ∈ rest, inst'.sent = 0 ∧ inst'.response = [] ∧ 0 < inst'.requestLength) := by
  have hhead := head?_pending h.head h.tail hne
  obtain ⟨rest, hpending⟩ : ∃ rest, s.pending = s.queue s.queueHead :: rest :=
    ⟨_, List.eq_cons_of_mem_head? hhead⟩
  obtain ⟨hsent, hresponse⟩ := h.first _ hhead
  refine ⟨_, rest, rfl, hpending, hsent, hresponse, h.requests _ (by rw [hpending]; simp), ?_, ?_⟩
  · rw [h.output, hhead]
    simp
  · intro inst' hmem
    obtain ⟨hsent', hresponse'⟩ := h.rest inst' (by rw [hpending]; exact hmem)
    exact ⟨hsent', hresponse', h.requests inst'
      (by rw [hpending]; exact List.mem_cons_of_mem _ hmem)⟩

/-- The queue with an enabled output is not empty. -/
theorem not_isQueueEmpty (h : s.Valid) (houtput : s.output = true) : ¬s.IsQueueEmpty := by
  intro hempty
  obtain ⟨inst, hinst, -⟩ := h.output.mp houtput
  rw [(isQueueEmpty_iff h.head h.tail).mp hempty] at hinst
  cases hinst

/-- The invariant with a first request. -/
theorem valid_cons {inst : SignInstance} {rest : List SignInstance}
    (hhead : s.queueHead < maxQueueLength) (htail : s.queueTail < maxQueueLength)
    (hpending : s.pending = inst :: rest) (hsent : inst.sent ≤ inst.requestLength)
    (hresponse : inst.response.length < sizeofResponse) (hpos : 0 < inst.requestLength)
    (houtput : s.output = true ↔ inst.sent < inst.requestLength)
    (hrest : ∀ inst' ∈ rest, inst'.sent = 0 ∧ inst'.response = [] ∧ 0 < inst'.requestLength)
    (hopen : s.sockOpen = true) : s.Valid := by
  refine ⟨hhead, htail, ?_, ?_, ?_, ?_, ?_⟩
  · rw [hpending, houtput]
    simp
  · rw [hpending]
    intro inst' hinst'
    obtain rfl : inst = inst' := by simpa using hinst'
    exact ⟨hsent, hresponse⟩
  · rw [hpending]
    exact fun inst' hmem => ⟨(hrest inst' hmem).1, (hrest inst' hmem).2.1⟩
  · rw [hpending]
    intro inst' hmem
    rcases List.mem_cons.mp hmem with rfl | hmem
    · exact hpos
    · exact (hrest inst' hmem).2.2
  · rw [hopen]
    nofun

/-- **An output event.** -/
theorem writeSocket_spec (h : s.Valid) (hopen : s.sockOpen = true) (houtput : s.output = true)
    {n : ℕ} (hn : n ≤ (s.queue s.queueHead).requestLength - (s.queue s.queueHead).sent) :
    s.writeSocket none = .ok s.closeSocket ∧ ∃ inst rest s', s.queue s.queueHead = inst ∧
      s.pending = inst :: rest ∧ s.writeSocket (some n) = .ok s' ∧ s'.Valid ∧
      s'.pending = { inst with sent := inst.sent + n } :: rest := by
  have hne := not_isQueueEmpty h houtput
  obtain ⟨inst, rest, hqueue, hpending, hsent, hresponse, hpos, hiff, hrest⟩ := exists_first h hne
  have hlt := hiff.mp houtput
  rw [hqueue] at hn
  have hlength : ({ inst with sent := inst.sent + n } : SignInstance).requestLength =
      inst.requestLength := rfl
  constructor
  · rw [State.writeSocket, if_neg hne, hqueue, if_neg (not_not.mpr hlt)]
  · rw [State.writeSocket, if_neg hne, hqueue, if_neg (not_not.mpr hlt)]
    dsimp only
    have hset : ∀ s' : State, s'.queue = Function.update s.queue s.queueHead
        { inst with sent := inst.sent + n } → s'.queueHead = s.queueHead →
        s'.queueTail = s.queueTail →
        s'.pending = { inst with sent := inst.sent + n } :: rest := by
      intro s' hq hh ht
      rw [pending_update h.head _ hq hh ht, hpending]
      rfl
    split
    next hmore =>
        refine ⟨inst, rest, _, rfl, hpending, rfl, ?_, hset _ rfl rfl rfl⟩
        refine valid_cons h.head h.tail (hset _ rfl rfl rfl) ?_ hresponse hpos ?_ hrest hopen
        · exact Nat.le_of_lt hmore
        · exact iff_of_true houtput hmore
    next hdone =>
        refine ⟨inst, rest, _, rfl, hpending, rfl, ?_, hset _ rfl rfl rfl⟩
        refine valid_cons h.head h.tail (hset _ rfl rfl rfl) ?_ hresponse hpos ?_ hrest hopen
        · dsimp only
          rw [hlength]
          omega
        · exact iff_of_false nofun hdone

/-- **A response is complete.** -/
def IsComplete (response : List Byte) : Prop :=
  4 ≤ response.length ∧ responseHeaderLength ≤ responseLength response ∧
    responseLength response ≤ sizeofResponse ∧ responseLength response ≤ response.length

instance (response : List Byte) : Decidable (IsComplete response) :=
  inferInstanceAs (Decidable (_ ∧ _ ∧ _ ∧ _))

/-- A packet is sent to the client of the request. -/
def SentPacket.IsFor (packet : SentPacket) (request : Request) : Prop :=
  packet.remoteAddr = request.remoteAddr ∧ packet.localAddr = request.localAddr

theorem processResponse_isFor (packetId : ℕ) (inst : SignInstance) (serverSocket : Bool) :
    ∀ packet ∈ (processResponse packetId inst serverSocket).1, packet.IsFor inst.request := by
  intro packet hpacket
  rw [processResponse] at hpacket
  split at hpacket
  · cases hpacket
  · split at hpacket
    · cases hpacket
    · split at hpacket
      · cases hpacket
      · obtain rfl := Option.some.inj hpacket
        exact ⟨rfl, rfl⟩

/-- **The end of an input event.** The socket is closed, more data is needed, or the first request
is completed. -/
inductive InputSpec (inst : SignInstance) (rest : List SignInstance) : InputResult → Prop
  | closed {s : State} (hvalid : s.Valid) (hpending : s.pending = []) :
      InputSpec inst rest (.closed s)
  | waits {s : State} {response : List Byte} (hvalid : s.Valid)
      (hpending : s.pending = { inst with response } :: rest) : InputSpec inst rest (.waits s)
  | completed {s : State} {sent : Option SentPacket} (hvalid : s.Valid)
      (hpending : s.pending = rest) (hsent : inst.sent = inst.requestLength)
      (hfor : ∀ packet ∈ sent, packet.IsFor inst.request) :
      InputSpec inst rest (.completed s sent)

theorem closeSocket_spec (s : State) : s.closeSocket.Valid ∧ s.closeSocket.pending = [] :=
  ⟨valid_of_empty (by decide : 0 < maxQueueLength) (by decide : 0 < maxQueueLength)
    (pending_of_isQueueEmpty rfl) rfl, pending_of_isQueueEmpty rfl⟩

/-- The first request is removed from the queue after it was completely written. -/
theorem pop_valid (h : s.Valid) (hopen : s.sockOpen = true) (hne : ¬s.IsQueueEmpty)
    {rest : List SignInstance} {s' : State}
    (hpending : (State.pending { s with queue := s'.queue }).tail = rest)
    (hdisabled : s.output = false)
    (hrest : ∀ inst' ∈ rest, inst'.sent = 0 ∧ inst'.response = [] ∧ 0 < inst'.requestLength)
    (hhead : s'.queueHead = nextQueueIndex s.queueHead) (htail : s'.queueTail = s.queueTail)
    (hopen' : s'.sockOpen = s.sockOpen)
    (houtput : s'.output = if s'.IsQueueEmpty then s.output else true) :
    s'.Valid ∧ s'.pending = rest := by
  have hpop : s'.pending = rest := by
    have heq : s'.pending = (State.pending { s with queue := s'.queue }).tail := by
      refine pending_pop ?_ ?_ ?_ rfl hhead htail
      · exact h.head
      · exact h.tail
      · exact hne
    rw [heq, hpending]
  have hhead' : s'.queueHead < maxQueueLength := by
    rw [hhead]
    exact Nat.mod_lt _ (by decide)
  have htail' : s'.queueTail < maxQueueLength := htail.trans_lt h.tail
  refine ⟨?_, hpop⟩
  have hiff := isQueueEmpty_iff hhead' htail'
  cases rest with
  | nil =>
      rw [if_pos (hiff.mpr hpop), hdisabled] at houtput
      exact valid_of_empty hhead' htail' hpop houtput
  | cons inst' rest =>
      rw [if_neg (fun hempty => by rw [hiff.mp hempty] at hpop; cases hpop)] at houtput
      obtain ⟨hsent, hresponse, hpos⟩ := hrest inst' List.mem_cons_self
      refine valid_cons hhead' htail' hpop ?_ ?_ hpos ?_
        (fun inst'' hmem => hrest inst'' (List.mem_cons_of_mem _ hmem)) (hopen'.trans hopen)
      · omega
      · rw [hresponse]
        decide
      · rw [hsent]
        exact iff_of_true houtput hpos

theorem receive_spec (h : s.Valid) (hopen : s.sockOpen = true) (hne : ¬s.IsQueueEmpty)
    {inst : SignInstance} {rest : List SignInstance} (hqueue : s.queue s.queueHead = inst)
    (hpending : s.pending = inst :: rest) {response : List Byte}
    (hresponse : response.length ≤ sizeofResponse)
    (hearly : IsComplete response → inst.sent = inst.requestLength) (serverSocket : Bool) :
    InputSpec inst rest (s.receive { inst with response } serverSocket) := by
  obtain ⟨_, _, hqueue', hpending', hsent, -, hpos, hiff, hrest⟩ := exists_first h hne
  obtain rfl := hqueue.symm.trans hqueue'
  obtain rfl := List.tail_eq_of_cons_eq (hpending.symm.trans hpending')
  have hset : ∀ s' : State, s'.queue = Function.update s.queue s.queueHead { inst with response } →
      s'.queueHead = s.queueHead → s'.queueTail = s.queueTail →
      s'.pending = { inst with response } :: rest := by
    intro s' hq hh ht
    rw [pending_update h.head _ hq hh ht, hpending]
    rfl
  have hwaits : response.length < sizeofResponse → ∀ s' : State,
      s' = { s with queue := Function.update s.queue s.queueHead { inst with response } } →
      InputSpec inst rest (.waits s') := by
    rintro hlt s' rfl
    refine .waits (valid_cons h.head h.tail (hset _ rfl rfl rfl) hsent hlt hpos hiff hrest hopen)
      (hset _ rfl rfl rfl)
  rw [State.receive]
  dsimp only
  split
  next hshort =>
      refine hwaits ?_ _ rfl
      have hlarge : 4 ≤ sizeofResponse := by decide
      omega
  next hlong =>
      split
      next hinvalid =>
          obtain ⟨hvalid, hempty⟩ := closeSocket_spec
            { s with queue := Function.update s.queue s.queueHead { inst with response } }
          exact .closed hvalid hempty
      next hlength =>
          split
          next hmore => exact hwaits (by omega) _ rfl
          next hcomplete =>
              have hdone := hearly ⟨by omega, by omega, by omega, by omega⟩
              have hdisabled : s.output = false := by
                rw [← Bool.not_eq_true, hiff, hdone]
                exact lt_irrefl _
              have hupdated := hset { s with
                queue := Function.update s.queue s.queueHead { inst with response } } rfl rfl rfl
              refine .completed ?_ ?_ hdone (processResponse_isFor _ { inst with response } _)
              · refine (pop_valid h hopen hne ?_ hdisabled hrest ?_ ?_ ?_ ?_).1
                · exact congrArg List.tail hupdated
                all_goals rfl
              · refine (pop_valid h hopen hne ?_ hdisabled hrest ?_ ?_ ?_ ?_).2
                · exact congrArg List.tail hupdated
                all_goals rfl

/-- **An input event.** -/
theorem readSocket_spec (h : s.Valid) (hopen : s.sockOpen = true) {result : Option (List Byte)}
    (hresult : ∀ data ∈ result,
      data.length ≤ sizeofResponse - (s.queue s.queueHead).response.length)
    (hearly : ¬s.IsQueueEmpty → ∀ data ∈ result,
      IsComplete ((s.queue s.queueHead).response ++ data) →
        (s.queue s.queueHead).sent = (s.queue s.queueHead).requestLength) (serverSocket : Bool) :
    s.readSocket result serverSocket = .ok (.closed s.closeSocket) ∨
      ∃ inst rest r, s.pending = inst :: rest ∧ s.readSocket result serverSocket = .ok r ∧
        InputSpec inst rest r := by
  by_cases hne : s.IsQueueEmpty
  · refine .inl ?_
    rw [State.readSocket.eq_def, if_pos hne]
  · obtain ⟨inst, rest, hqueue, hpending, -, hresponse, -⟩ := exists_first h hne
    rw [hqueue] at hresult hearly
    rw [State.readSocket.eq_def, if_neg hne, hqueue, if_neg (not_not.mpr hresponse)]
    rcases result with _ | _ | ⟨b, data⟩
    · exact .inl rfl
    · exact .inl rfl
    · have hlength := hresult _ rfl
      refine .inr ⟨inst, rest, _, hpending, rfl, ?_⟩
      refine receive_spec h hopen hne hqueue hpending ?_ (hearly hne _ rfl) serverSocket
      rw [List.length_append]
      omega

theorem openSocket_spec (h : s.Valid) (opened : Bool) :
    (s.openSocket opened).1.Valid ∧ (s.openSocket opened).1.pending = s.pending ∧
      (s.openSocket opened).1.queueTail = s.queueTail ∧
      (s.openSocket opened).1.queueHead = s.queueHead ∧
      ((s.openSocket opened).2 = true → (s.openSocket opened).1.sockOpen = true) := by
  rw [State.openSocket]
  split
  next hopen => exact ⟨h, rfl, rfl, rfl, fun _ => hopen⟩
  next hclosed =>
      have hempty := h.closed (by simpa using hclosed)
      split
      · exact ⟨⟨h.head, h.tail, h.output, h.first, h.rest, h.requests, h.closed⟩, rfl, rfl, rfl,
          nofun⟩
      · refine ⟨?_, rfl, rfl, rfl, fun _ => rfl⟩
        exact valid_of_empty h.head h.tail hempty rfl

/-- A request is added to the queue. -/
theorem push_valid (h : s.Valid) (hfull : s.queueHead ≠ nextQueueIndex s.queueTail)
    (hopen : s.sockOpen = true) (remoteAddr : RemoteAddress) (localAddr : LocalAddress)
    {bytes : List Byte} (hbytes : 0 < bytes.length) :
    let s' : State := { s with
      queue := Function.update s.queue s.queueTail ⟨⟨remoteAddr, localAddr, bytes⟩, 0, []⟩
      output := if s.IsQueueEmpty then true else s.output
      queueTail := nextQueueIndex s.queueTail }
    s'.Valid ∧ s'.pending = s.pending ++ [⟨⟨remoteAddr, localAddr, bytes⟩, 0, []⟩] ∧
      s.pending.length < maxQueueLength - 1 := by
  intro s'
  obtain ⟨hpending, hlt⟩ : s'.pending = s.pending ++ [⟨⟨remoteAddr, localAddr, bytes⟩, 0, []⟩] ∧
      s.pending.length < maxQueueLength - 1 :=
    pending_push h.head h.tail hfull _ rfl rfl rfl
  have htail : s'.queueTail < maxQueueLength := Nat.mod_lt _ (by decide)
  refine ⟨?_, hpending, hlt⟩
  by_cases hempty : s.IsQueueEmpty
  · rw [(isQueueEmpty_iff h.head h.tail).mp hempty] at hpending
    refine valid_cons h.head htail hpending (Nat.zero_le _)
      (show 0 < sizeofResponse by decide) hbytes ?_ nofun hopen
    exact iff_of_true (if_pos hempty) hbytes
  · obtain ⟨inst, rest, -, hfirst, hsent, hresponse, hpos, hiff, hrest⟩ := exists_first h hempty
    rw [hfirst] at hpending
    refine valid_cons h.head htail hpending hsent hresponse hpos ?_ ?_ hopen
    · rw [← hiff]
      show (if s.IsQueueEmpty then true else s.output) = true ↔ _
      rw [if_neg hempty]
    · intro inst' hmem
      rcases List.mem_append.mp hmem with hmem | hmem
      · exact hrest inst' hmem
      · rw [List.mem_singleton.mp hmem]
        exact ⟨rfl, rfl, hbytes⟩

/-- **A new request.** -/
theorem signAndSendPacket_spec (h : s.Valid) (keyId : ℕ) (packet : ℕ → Byte) (length : ℕ)
    (remoteAddr : RemoteAddress) (localAddr : LocalAddress) (opened : Bool) :
    let r := s.signAndSendPacket keyId packet length remoteAddr localAddr opened
    r.1.Valid ∧ (r.2 = false → r.1.pending = s.pending) ∧
      (r.2 = true → s.pending.length < maxQueueLength - 1 ∧ ∃ bytes,
        (r.1.queue s.queueTail).request = ⟨remoteAddr, localAddr, bytes⟩ ∧
        r.1.pending = s.pending ++ [⟨⟨remoteAddr, localAddr, bytes⟩, 0, []⟩]) := by
  rw [State.signAndSendPacket]
  split
  · exact ⟨h, fun _ => rfl, fun h => by cases h⟩
  · split
    · exact ⟨h, fun _ => rfl, fun h => by cases h⟩
    next hfull =>
        split
        · exact ⟨h, fun _ => rfl, fun h => by cases h⟩
        next hlength =>
            dsimp only
            obtain ⟨hvalid, hpending, htail, hhead, hopen⟩ := openSocket_spec h opened
            generalize s.openSocket opened = r at hvalid hpending htail hhead hopen ⊢
            split
            · exact ⟨hvalid, fun _ => hpending, fun h => by cases h⟩
            next hopened =>
                rw [← hhead, ← htail] at hfull
                obtain ⟨hvalid', hpending', hlt⟩ := push_valid hvalid hfull
                  (hopen (by simpa using hopened)) remoteAddr localAddr
                  (show 0 < (requestBytes keyId r.1.queueTail packet length).length by
                    simp [requestBytes, encode32, encode16])
                refine ⟨hvalid', (fun h => by cases h), fun _ => ⟨by rwa [← hpending],
                  requestBytes keyId r.1.queueTail packet length, ?_, ?_⟩⟩
                · dsimp only
                  rw [← htail, Function.update_self]
                · rw [← hpending]
                  exact hpending'

/-! ### Runs -/

/-- The end of a request with a response. -/
structure Completion where
  index : ℕ
  /-- The packet which was sent to the client. -/
  sent : Option SentPacket
  /-- What was written to the socket before. -/
  wire : List Byte

/-- **The module with its history**: all accepted requests, the number of those which are not in
the queue any more, and what was written to the socket since it was opened. -/
structure Run where
  state : State
  requests : List Request
  removed : ℕ
  connected : ℕ
  wire : List Byte
  completions : List Completion

/-- Calls and events. -/
inductive Action
  | sign (keyId : ℕ) (packet : ℕ → Byte) (length : ℕ) (remoteAddr : RemoteAddress)
      (localAddr : LocalAddress) (opened : Bool)
  | output (result : Option ℕ)
  | input (result : Option (List Byte)) (serverSocket : Bool)

/-- The start of the program. -/
def Run.init (enabled : Bool) : Run := ⟨.init enabled, [], 0, 0, [], []⟩

/-- The socket was closed. -/
def Run.disconnect (c : Run) (s : State) : Run :=
  { c with state := s, removed := c.requests.length, connected := c.requests.length, wire := [] }

/-- **One step.** -/
def Run.step (c : Run) : Action → Except Assertion Run
  | .sign keyId packet length remoteAddr localAddr opened =>
      let r := c.state.signAndSendPacket keyId packet length remoteAddr localAddr opened
      if r.2 then
        .ok { c with
          state := r.1
          requests := c.requests ++ [(r.1.queue c.state.queueTail).request] }
      else .ok { c with state := r.1 }
  | .output result => do
      let inst := c.state.queue c.state.queueHead
      let s ← c.state.writeSocket result
      match result with
      | none => .ok (c.disconnect s)
      | some n =>
          .ok { c with
            state := s
            wire := c.wire ++ (inst.request.bytes.drop inst.sent).take n }
  | .input result serverSocket => do
      match ← c.state.readSocket result serverSocket with
      | .closed s => .ok (c.disconnect s)
      | .waits s => .ok { c with state := s }
      | .completed s sent =>
          .ok { c with
            state := s
            removed := c.removed + 1
            completions := c.completions ++ [⟨c.removed, sent, c.wire⟩] }

/-- **The events which can happen.** There is no output event if the output is not enabled, and
not more bytes are sent or received than requested. -/
def Run.Possible (c : Run) : Action → Prop
  | .sign .. => True
  | .output result => c.state.sockOpen = true ∧ c.state.output = true ∧ ∀ n ∈ result,
      n ≤ (c.state.queue c.state.queueHead).requestLength - (c.state.queue c.state.queueHead).sent
  | .input result _ => c.state.sockOpen = true ∧ ∀ data ∈ result,
      data.length ≤ sizeofResponse - (c.state.queue c.state.queueHead).response.length

/-- **No response is complete before its request.** -/
def Run.NotEarly (c : Run) : Action → Prop
  | .input result _ => ¬c.state.IsQueueEmpty → ∀ data ∈ result,
      IsComplete ((c.state.queue c.state.queueHead).response ++ data) →
        (c.state.queue c.state.queueHead).sent = (c.state.queue c.state.queueHead).requestLength
  | _ => True

instance (c : Run) : DecidablePred c.Possible := fun action =>
  match action with
  | .sign .. => .isTrue trivial
  | .output _ => inferInstanceAs (Decidable (_ ∧ _ ∧ ∀ n ∈ (_ : Option ℕ), _))
  | .input _ _ => inferInstanceAs (Decidable (_ ∧ ∀ data ∈ (_ : Option (List Byte)), _))

instance (c : Run) : DecidablePred c.NotEarly := fun action =>
  match action with
  | .input _ _ => inferInstanceAs (Decidable (_ → ∀ data ∈ (_ : Option (List Byte)), _ → _))
  | .sign .. | .output _ => .isTrue trivial

/-- The states which are reached without early responses. -/
inductive Run.Reachable : Run → Prop
  | init (enabled : Bool) : Reachable (.init enabled)
  | step {c c' : Run} {action : Action} (h : Reachable c) (hpossible : c.Possible action)
      (hearly : c.NotEarly action) (hstep : c.step action = .ok c') : Reachable c'

variable {c c' : Run}

/-- The part of the first request which was written. -/
def State.written (s : State) : List Byte :=
  (s.pending.head?.map fun inst => inst.request.bytes.take inst.sent).getD []

/-- The request of a completion was completely written before, and a packet was sent only to its
client. -/
def Completion.IsFor (x : Completion) (requests : List Request) : Prop :=
  ∃ request, requests[x.index]? = some request ∧ (∀ packet ∈ x.sent, packet.IsFor request) ∧
    ∃ before, x.wire = before ++ request.bytes

/-- **The invariant of a run.** -/
structure Run.Valid (c : Run) : Prop where
  state : c.state.Valid
  /-- The queue has the requests which were not removed. -/
  pending : c.state.pending.map SignInstance.request = c.requests.drop c.removed
  connected : c.connected ≤ c.removed
  removed : c.removed ≤ c.requests.length
  /-- The requests are written one after another. -/
  wire : c.wire = ((c.requests.take c.removed).drop c.connected).flatMap Request.bytes ++
    c.state.written
  order : c.completions.Pairwise fun x y => x.index < y.index
  completions : ∀ x ∈ c.completions, x.index < c.removed ∧ x.IsFor c.requests

theorem Completion.IsFor.append {x : Completion} {requests : List Request}
    (h : x.IsFor requests) (more : List Request) : x.IsFor (requests ++ more) := by
  obtain ⟨request, hget, hrest⟩ := h
  refine ⟨request, ?_, hrest⟩
  rw [List.getElem?_append_left (List.getElem?_eq_some_iff.mp hget).1]
  exact hget

theorem run_init_valid (enabled : Bool) : (Run.init enabled).Valid := by
  have hempty : (State.init enabled).pending = [] := pending_of_isQueueEmpty rfl
  refine ⟨valid_of_empty (show 0 < maxQueueLength by decide) (show 0 < maxQueueLength by decide)
    hempty rfl, ?_, le_rfl, le_rfl, ?_, List.Pairwise.nil, nofun⟩
  · rw [Run.init, hempty]
    rfl
  · rw [Run.init, State.written, hempty]
    rfl

theorem disconnect_valid (h : c.Valid) {s : State} (hvalid : s.Valid) (hempty : s.pending = []) :
    (c.disconnect s).Valid := by
  refine ⟨hvalid, ?_, le_rfl, le_rfl, ?_, h.order, fun x hx => ?_⟩
  · rw [Run.disconnect, hempty, List.drop_length]
    rfl
  · rw [Run.disconnect, State.written, hempty, List.take_length, List.drop_length]
    rfl
  · obtain ⟨hlt, hfor⟩ := h.completions x hx
    exact ⟨hlt.trans_le h.removed, hfor⟩

/-- Nothing was written of the other requests. -/
theorem written_of_rest {s' : State} (hpending : s'.pending = s.pending.tail)
    (hrest : ∀ inst ∈ s.pending.tail, inst.sent = 0 ∧ inst.response = []) : s'.written = [] := by
  rw [State.written, hpending]
  cases htail : s.pending.tail with
  | nil => rfl
  | cons inst rest =>
      show inst.request.bytes.take inst.sent = []
      rw [(hrest inst (by rw [htail]; exact List.mem_cons_self)).1, List.take_zero]

theorem step_sign (h : c.Valid) {keyId length : ℕ} {packet : ℕ → Byte} {remoteAddr : RemoteAddress}
    {localAddr : LocalAddress} {opened : Bool} :
    ∃ c', c.step (.sign keyId packet length remoteAddr localAddr opened) = .ok c' ∧ c'.Valid := by
  obtain ⟨hvalid, hfailed, hadded⟩ := signAndSendPacket_spec h.state keyId packet length remoteAddr
    localAddr opened
  rw [Run.step]
  generalize c.state.signAndSendPacket keyId packet length remoteAddr localAddr opened = r
    at hvalid hfailed hadded ⊢
  split
  next htrue =>
      obtain ⟨-, bytes, hrequest, hpending⟩ := hadded htrue
      refine ⟨_, rfl, hvalid, ?_, h.connected, ?_, ?_, h.order, fun x hx => ?_⟩
      · dsimp only
        rw [hpending, hrequest, List.map_append, h.pending, List.drop_append_of_le_length h.removed]
        rfl
      · dsimp only
        rw [List.length_append]
        exact h.removed.trans (Nat.le_add_right _ _)
      · dsimp only
        rw [List.take_append_of_le_length h.removed, h.wire]
        congr 1
        rw [State.written, State.written, hpending]
        cases c.state.pending with
        | nil => rfl
        | cons inst rest => rfl
      · obtain ⟨hlt, hfor⟩ := h.completions x hx
        exact ⟨hlt, hfor.append _⟩
  next hfalse =>
      have hsame := hfailed (by simpa using hfalse)
      refine ⟨_, rfl, hvalid, ?_, h.connected, h.removed, ?_, h.order, h.completions⟩
      · dsimp only
        rw [hsame, h.pending]
      · dsimp only
        rw [h.wire, State.written, State.written, hsame]

theorem step_output (h : c.Valid) {result : Option ℕ} (hpossible : c.Possible (.output result)) :
    ∃ c', c.step (.output result) = .ok c' ∧ c'.Valid := by
  obtain ⟨hopen, houtput, hn⟩ := hpossible
  rw [Run.step]
  cases result with
  | none =>
      obtain ⟨hclose, -⟩ := writeSocket_spec h.state hopen houtput (Nat.zero_le _)
      rw [hclose]
      obtain ⟨hvalid, hempty⟩ := closeSocket_spec c.state
      exact ⟨_, rfl, disconnect_valid h hvalid hempty⟩
  | some n =>
      obtain ⟨-, inst, rest, s', hqueue, hpending, hwrite, hvalid, hpending'⟩ :=
        writeSocket_spec h.state hopen houtput (hn n rfl)
      rw [hwrite]
      refine ⟨_, rfl, hvalid, ?_, h.connected, h.removed, ?_, h.order, h.completions⟩
      · dsimp only
        rw [← h.pending, hpending', hpending]
        rfl
      · have hwritten : s'.written = c.state.written ++
            (inst.request.bytes.drop inst.sent).take n := by
          rw [State.written, State.written, hpending', hpending]
          exact List.take_add
        dsimp only
        rw [hqueue, hwritten, h.wire, List.append_assoc]

theorem step_input (h : c.Valid) {result : Option (List Byte)} {serverSocket : Bool}
    (hpossible : c.Possible (.input result serverSocket))
    (hearly : c.NotEarly (.input result serverSocket)) :
    ∃ c', c.step (.input result serverSocket) = .ok c' ∧ c'.Valid := by
  obtain ⟨hopen, hresult⟩ := hpossible
  rw [Run.step]
  rcases readSocket_spec h.state hopen hresult hearly serverSocket with
    hclose | ⟨inst, rest, r, hpending, hread, hspec⟩
  · rw [hclose]
    obtain ⟨hvalid, hempty⟩ := closeSocket_spec c.state
    exact ⟨_, rfl, disconnect_valid h hvalid hempty⟩
  · rw [hread]
    have hdrop := h.pending
    rw [hpending, List.map_cons] at hdrop
    cases hspec with
    | closed hvalid hempty => exact ⟨_, rfl, disconnect_valid h hvalid hempty⟩
    | waits hvalid hpending' =>
        refine ⟨_, rfl, hvalid, ?_, h.connected, h.removed, ?_, h.order, h.completions⟩
        · dsimp only
          rw [← hdrop, hpending']
          rfl
        · dsimp only
          rw [h.wire, State.written, State.written, hpending', hpending]
          rfl
    | completed hvalid hpending' hsent hfor =>
        have hget : c.requests[c.removed]? = some inst.request := by
          rw [← List.head?_drop, ← hdrop]
          rfl
        have hlt : c.removed < c.requests.length := (List.getElem?_eq_some_iff.mp hget).1
        have hconnected := h.connected
        have htake : (c.requests.take (c.removed + 1)).drop c.connected =
            (c.requests.take c.removed).drop c.connected ++ [inst.request] := by
          rw [List.take_add_one, hget, List.drop_append_of_le_length]
          · rfl
          · rw [List.length_take]
            omega
        have hwire : c.wire =
            ((c.requests.take c.removed).drop c.connected).flatMap Request.bytes ++
              inst.request.bytes := by
          rw [h.wire, State.written, hpending]
          refine congrArg (_ ++ ·) ?_
          show inst.request.bytes.take inst.sent = _
          rw [hsent]
          exact List.take_length
        have hwritten : State.written _ = [] :=
          written_of_rest (hpending'.trans (by rw [hpending]; rfl)) h.state.rest
        refine ⟨_, rfl, hvalid, ?_, by dsimp only; omega, hlt, ?_, ?_, fun x hx => ?_⟩
        · dsimp only
          rw [hpending', ← List.tail_drop, ← hdrop]
          rfl
        · dsimp only
          rw [htake, hwritten, hwire, List.flatMap_append]
          simp
        · refine List.pairwise_append.mpr ⟨h.order, List.pairwise_singleton _ _, ?_⟩
          intro x hx y hy
          rw [List.mem_singleton.mp hy]
          exact (h.completions x hx).1
        · rcases List.mem_append.mp hx with hx | hx
          · obtain ⟨hlt', hfor'⟩ := h.completions x hx
            exact ⟨hlt'.trans (Nat.lt_succ_self _), hfor'⟩
          · rw [List.mem_singleton.mp hx]
            exact ⟨Nat.lt_succ_self _, inst.request, hget, hfor, _, hwire⟩

theorem step_valid (h : c.Valid) {action : Action} (hpossible : c.Possible action)
    (hearly : c.NotEarly action) : ∃ c', c.step action = .ok c' ∧ c'.Valid := by
  cases action with
  | sign keyId packet length remoteAddr localAddr opened => exact step_sign h
  | output result => exact step_output h hpossible
  | input result serverSocket => exact step_input h hpossible hearly

theorem reachable_valid (h : Run.Reachable c) : c.Valid := by
  induction h with
  | init enabled => exact run_init_valid enabled
  | step _ hpossible hearly hstep ih =>
      obtain ⟨c', hstep', hvalid⟩ := step_valid ih hpossible hearly
      obtain rfl := Except.ok.inj (hstep.symm.trans hstep')
      exact hvalid

/-- No assertion fails, even with an early response. -/
theorem step_ok (h : c.Valid) {action : Action} (hpossible : c.Possible action) :
    ∃ c', c.step action = .ok c' := by
  cases action with
  | sign keyId packet length remoteAddr localAddr opened =>
      obtain ⟨c', hstep, -⟩ := step_sign h
      exact ⟨c', hstep⟩
  | output result =>
      obtain ⟨c', hstep, -⟩ := step_output h hpossible
      exact ⟨c', hstep⟩
  | input result serverSocket =>
      obtain ⟨r, hr⟩ : ∃ r, c.state.readSocket result serverSocket = .ok r := by
        rw [State.readSocket.eq_def]
        split
        · exact ⟨_, rfl⟩
        next hne =>
            obtain ⟨inst, rest, hqueue, -, -, hresponse, -⟩ := exists_first h.state hne
            rw [hqueue, if_neg (not_not.mpr hresponse)]
            rcases result with _ | _ | ⟨b, data⟩
            · exact ⟨_, rfl⟩
            · exact ⟨_, rfl⟩
            · exact ⟨_, rfl⟩
      rw [Run.step, hr]
      cases r with
      | closed s => exact ⟨_, rfl⟩
      | waits s => exact ⟨_, rfl⟩
      | completed s sent => exact ⟨_, rfl⟩

/-- **The queue in every run without early responses.** No assertion fails, the output is enabled
until the first request is written, and the requests are completed in their order, each after it
was completely written and with at most one packet for its client. -/
theorem run_signd (h : Run.Reachable c) :
    (∀ action, c.Possible action → ∃ c', c.step action = .ok c') ∧
    (c.state.output = true ↔ ∃ inst ∈ c.state.pending.head?, inst.sent < inst.requestLength) ∧
    c.state.pending.length ≤ 15 ∧
    c.state.pending.map SignInstance.request = c.requests.drop c.removed ∧
    c.completions.Pairwise (fun x y => x.index < y.index) ∧
    ∀ x ∈ c.completions, x.IsFor c.requests := by
  have hvalid := reachable_valid h
  refine ⟨fun action => step_ok hvalid, hvalid.state.output, ?_, hvalid.pending, hvalid.order,
    fun x hx => (hvalid.completions x hx).2⟩
  rw [State.pending, RingBuffer.length_view]
  exact Nat.le_of_lt_succ (Nat.mod_lt _ (by decide))

/-- A request of a client. -/
def sampleSign : Action :=
  .sign 1 (fun _ => 0) 48 ⟨.inet4 1, 123⟩ ⟨.inet4 2, 0, 5⟩ true

/-- A response without a packet. -/
def sampleResponse : List Byte := encode32 12 ++ encode32 0 ++ encode32 3 ++ encode32 0

/-- A request of another client. -/
def otherSign : Action :=
  .sign 2 (fun _ => 0) 48 ⟨.inet4 3, 123⟩ ⟨.inet4 2, 0, 5⟩ true

/-- A response with a signed packet. -/
def signedResponse : List Byte :=
  encode32 14 ++ encode32 0 ++ encode32 3 ++ encode32 0 ++ [7, 8]

/-- The events of a list can happen one after another, without early responses. -/
def Run.allowed (c : Run) : List Action → Bool
  | [] => true
  | action :: actions =>
      decide (c.Possible action ∧ c.NotEarly action) &&
        match c.step action with
        | .ok c' => c'.allowed actions
        | .error _ => false

theorem Run.Reachable.run {actions : List Action} (h : Reachable c)
    (hallowed : c.allowed actions = true) (hrun : actions.foldlM Run.step c = .ok c') :
    Reachable c' := by
  induction actions generalizing c with
  | nil =>
      obtain rfl := Except.ok.inj hrun
      exact h
  | cons action actions ih =>
      rw [List.foldlM_cons] at hrun
      obtain ⟨c₁, hstep, hrun⟩ := bind_eq_ok_iff.mp hrun
      rw [allowed, hstep, Bool.and_eq_true, decide_eq_true_iff] at hallowed
      exact ih (.step h hallowed.1.1 hallowed.1.2 hstep) hallowed.2 hrun

/-- Two requests, of which the first one gets its response after it was written in two parts. -/
def sampleActions : List Action :=
  [sampleSign, .output (some 40), otherSign, .output (some 28), .input (some signedResponse) true]

theorem run_signd_sampleActions : ∃ c, Run.Reachable c ∧
    c.completions.map (fun x => (x.index, x.sent)) =
      [(0, some ⟨⟨.inet4 1, 123⟩, ⟨.inet4 2, 0, 5⟩, [7, 8]⟩)] ∧
    (∀ x ∈ c.completions, x.IsFor c.requests) ∧
    c.state.output = true ∧ c.requests.length = 2 ∧
    c.state.pending.map SignInstance.request = c.requests.drop 1 := by
  obtain ⟨c, hrun, hc⟩ := exists_ok_of_map_toOption (show
    (sampleActions.foldlM Run.step (.init true)).toOption.map
      (fun c => (c.completions.map fun x => (x.index, x.sent),
        (c.state.output, c.requests.length, c.removed))) =
      some ([(0, some ⟨⟨.inet4 1, 123⟩, ⟨.inet4 2, 0, 5⟩, [7, 8]⟩)], (true, 2, 1)) by
        decide +kernel)
  simp only [Prod.mk.injEq] at hc
  obtain ⟨hcompletions, houtput, hrequests, hremoved⟩ := hc
  have hreachable : c.Reachable := Run.Reachable.run (.init true) (by decide +kernel) hrun
  obtain ⟨-, -, -, hpending, -, hfor⟩ := run_signd hreachable
  exact ⟨c, hreachable, hcompletions, hfor, houtput, hrequests, hremoved ▸ hpending⟩

/-- **A packet can be sent before its request is written**, and an assertion then fails. -/
theorem early_response : ∃ c, [sampleSign, .input (some sampleResponse) true].foldlM Run.step
      (.init true) = .ok c ∧
    (∃ x ∈ c.completions, x.sent = some ⟨⟨.inet4 1, 123⟩, ⟨.inet4 2, 0, 5⟩, []⟩ ∧ x.wire = []) ∧
    c.Possible (.output (some 0)) ∧ c.step (.output (some 0)) = .error .queueNotEmpty := by
  obtain ⟨c, hrun, hc⟩ := exists_ok_of_map_toOption (show
    ([sampleSign, .input (some sampleResponse) true].foldlM Run.step (.init true)).toOption.map
      (fun c => (c.completions.map fun x => (x.sent, x.wire),
        (c.state.sockOpen, c.state.output, decide c.state.IsQueueEmpty))) =
      some ([(some ⟨⟨.inet4 1, 123⟩, ⟨.inet4 2, 0, 5⟩, []⟩, [])], true, true, true) by
        decide +kernel)
  simp only [Prod.mk.injEq, decide_eq_true_eq] at hc
  obtain ⟨hcompletions, hopen, houtput, hempty⟩ := hc
  refine ⟨c, hrun, ?_, ⟨hopen, houtput, ?_⟩, ?_⟩
  · obtain ⟨x, hx, hsent⟩ := List.mem_map.mp (hcompletions ▸ List.mem_singleton.mpr rfl)
    obtain ⟨hsent, hwire⟩ := Prod.mk.inj hsent
    exact ⟨x, hx, hsent, hwire⟩
  · intro n hn
    obtain rfl := Option.some.inj hn
    exact Nat.zero_le _
  · rw [Run.step, State.writeSocket, if_pos hempty]
    rfl

end Chrony.Signd
