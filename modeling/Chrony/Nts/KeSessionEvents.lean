import Chrony.Nts.KeSessions

/-!
# Events of NTS-KE Sessions

What an event, the timeout and a start do with one session. A session which is not stopped has all
of its resources, and a stopped one has none (`Instance.Valid`), and the environment has the
resources of all sessions (`Resources`). A message which is sent was completely prepared: by the
client before it waited for the connection, and by the server in the handler of the request
(`Instance.Ready`).

## Main results

* `Resources.close`, `Resources.addHandler`: the resources of one session are released or acquired.
* `Instance.readWriteSocket_ends`: an event of the descriptor, with the handler of the message.
* `Instance.startSession_ends`, `nkcStart_ends`: the start of a session.
-/

namespace Chrony.Nts.Nksn

open Lib Bytes Lib.Program

/-! ### Resources -/

/-- The aborts which are possible. All of the identifiers of timeouts are used, or a client gets a
descriptor which cannot be used with `select`. -/
def Allowed (e : KeAbort) : Prop := e = .tooManyDescriptors ∨ e = .sched .noFreeId

/-- The sessions which have the timeouts. -/
def sessionOwner : TimeoutHandler → ℕ → Option ℕ
  | .sessionTimeout, arg => some arg
  | .other, _ => none

/-- **The resources of all sessions**, by their numbers. A descriptor which is open without a
session can be there during a start. -/
structure Resources (env : KeEnv) (fds : ℕ → Option ℕ) (ids : ℕ → ℕ) (extra : Option ℕ) :
    Prop where
  timers : Sched.Owners sessionOwner env.sched ids
  handlers : ∀ fd i, (∃ ptr, env.fileHandlers fd = some ptr ∧ ptr.arg = i) ↔ fds i = some fd
  sockets : ∀ fd, fd ∈ env.sockets ↔ (∃ i, fds i = some fd) ∨ extra = some fd
  extra : ∀ fd, extra = some fd → ∀ i, fds i ≠ some fd

namespace Resources

variable {env : KeEnv} {fds : ℕ → Option ℕ} {ids : ℕ → ℕ} {extra : Option ℕ} {i fd : ℕ}

/-- A descriptor has one session. -/
theorem eq_of_fds_eq (h : Resources env fds ids extra) {j : ℕ} (hi : fds i = some fd)
    (hj : fds j = some fd) : i = j := by
  obtain ⟨ptr, hptr, rfl⟩ := (h.handlers fd i).mpr hi
  obtain ⟨ptr', hptr', rfl⟩ := (h.handlers fd j).mpr hj
  rw [Option.some.inj (hptr.symm.trans hptr')]

/-- The events which are waited for do not matter. -/
theorem setEvents (h : Resources env fds ids extra) (fd : ℕ)
    {f : FileHandlerEntry → FileHandlerEntry} (hf : ∀ ptr, (f ptr).arg = ptr.arg) :
    Resources { env with
      fileHandlers := Function.update env.fileHandlers fd ((env.fileHandlers fd).map f) }
      fds ids extra where
  timers := h.timers
  handlers fd' i := by
    rw [← h.handlers fd' i]
    dsimp only
    by_cases hfd : fd' = fd
    · subst hfd
      rw [Function.update_self]
      constructor
      · rintro ⟨ptr, hptr, rfl⟩
        obtain ⟨ptr', hptr', rfl⟩ := Option.map_eq_some_iff.mp hptr
        exact ⟨ptr', hptr', (hf ptr').symm⟩
      · rintro ⟨ptr, hptr, rfl⟩
        exact ⟨f ptr, by rw [hptr, Option.map_some], hf ptr⟩
    · rw [Function.update_of_ne hfd]
  sockets := h.sockets
  extra := h.extra

/-- **The resources of a session are released.** -/
theorem close (h : Resources env fds ids extra) (hi : fds i = some fd) :
    env.fileHandlers fd ≠ none ∧ ∃ sched, Sched.removeTimeout env.sched (ids i) = .ok sched ∧
      Resources ⟨Function.update env.fileHandlers fd none, env.sockets.erase fd, sched⟩
        (Function.update fds i none) (Function.update ids i 0) extra := by
  obtain ⟨ptr, hptr, harg⟩ := (h.handlers fd i).mpr hi
  obtain ⟨sched, hsched, htimers⟩ := h.timers.remove i
  -- the other sessions have other descriptors
  have hother : ∀ fd' j, Function.update fds i none j = some fd' ↔ fds j = some fd' ∧ fd' ≠ fd := by
    intro fd' j
    by_cases hj : j = i
    · subst hj
      rw [Function.update_self, hi]
      exact iff_of_false (Option.some_ne_none _).symm
        fun ⟨heq, hne⟩ => hne (Option.some.inj heq).symm
    · rw [Function.update_of_ne hj]
      refine ⟨fun hfd => ⟨hfd, ?_⟩, And.left⟩
      rintro rfl
      exact hj (h.eq_of_fds_eq hfd hi)
  refine ⟨hptr ▸ Option.some_ne_none ptr, sched, hsched, htimers, fun fd' j => ?_, fun fd' => ?_,
    fun fd' he j hj => ?_⟩
  · dsimp only
    rw [hother, ← h.handlers fd' j]
    by_cases hfd : fd' = fd
    · subst hfd
      rw [Function.update_self]
      exact iff_of_false (fun ⟨_, hnone, _⟩ => Option.some_ne_none _ hnone.symm)
        fun hne => hne.2 rfl
    · rw [Function.update_of_ne hfd]
      exact (and_iff_left hfd).symm
  · dsimp only
    rw [Finset.mem_erase, h.sockets fd']
    simp only [hother]
    constructor
    · rintro ⟨hne, ⟨j, hj⟩ | he⟩
      · exact .inl ⟨j, hj, hne⟩
      · exact .inr he
    · rintro (⟨j, hj, hne⟩ | he)
      · exact ⟨hne, .inl ⟨j, hj⟩⟩
      · refine ⟨?_, .inr he⟩
        rintro rfl
        exact h.extra fd' he i hi
  · exact h.extra fd' he j ((hother fd' j).mp hj).1

/-- A new descriptor is open, and does not have a session yet. -/
theorem openSocket (h : Resources env fds ids none) (hfd : fd ∉ env.sockets) :
    Resources { env with sockets := insert fd env.sockets } fds ids (some fd) where
  timers := h.timers
  handlers := h.handlers
  sockets fd' := by
    dsimp only
    rw [Finset.mem_insert, h.sockets fd', or_iff_left (Option.some_ne_none _).symm, or_comm,
      Option.some.injEq, eq_comm (a := fd)]
  extra fd' he j hj := hfd ((h.sockets fd).mpr (.inl ⟨j, Option.some.inj he ▸ hj⟩))

/-- A descriptor without a session is closed. -/
theorem closeSocket (h : Resources env fds ids (some fd)) :
    Resources { env with sockets := env.sockets.erase fd } fds ids none where
  timers := h.timers
  handlers := h.handlers
  sockets fd' := by
    dsimp only
    rw [Finset.mem_erase, h.sockets fd', or_iff_left (Option.some_ne_none _).symm]
    constructor
    · rintro ⟨hne, hj | he⟩
      · exact hj
      · exact absurd (Option.some.inj he).symm hne
    · rintro ⟨j, hj⟩
      refine ⟨?_, .inl ⟨j, hj⟩⟩
      rintro rfl
      exact h.extra fd' rfl j hj
  extra _ he := absurd he (Option.some_ne_none _).symm

/-- **A descriptor gets the handler of a session.** -/
theorem addHandler (h : Resources env fds ids (some fd)) (hi : fds i = none) (input output : Bool) :
    env.fileHandlers fd = none ∧ Resources
      { env with fileHandlers := Function.update env.fileHandlers fd (some ⟨i, input, output⟩) }
      (Function.update fds i (some fd)) ids none := by
  have hnone : env.fileHandlers fd = none := by
    cases hptr : env.fileHandlers fd with
    | none => rfl
    | some ptr => exact absurd ((h.handlers fd ptr.arg).mp ⟨ptr, hptr, rfl⟩) (h.extra fd rfl _)
  have hfds : ∀ fd' j, Function.update fds i (some fd) j = some fd' ↔
      fds j = some fd' ∨ j = i ∧ fd' = fd := by
    intro fd' j
    by_cases hj : j = i
    · subst hj
      rw [Function.update_self, hi, Option.some.injEq, eq_comm (a := fd)]
      exact ⟨fun heq => .inr ⟨rfl, heq⟩, fun hor => hor.elim (fun h => by cases h) And.right⟩
    · rw [Function.update_of_ne hj]
      exact ⟨.inl, fun hor => hor.resolve_right fun heq => hj heq.1⟩
  refine ⟨hnone, h.timers, fun fd' j => ?_, fun fd' => ?_, fun _ he =>
    absurd he (Option.some_ne_none _).symm⟩
  · dsimp only
    rw [hfds, ← h.handlers fd' j]
    by_cases hfd : fd' = fd
    · subst hfd
      rw [Function.update_self, hnone]
      constructor
      · rintro ⟨ptr, hptr, rfl⟩
        obtain rfl := Option.some.inj hptr
        exact .inr ⟨rfl, rfl⟩
      · rintro (⟨ptr, hptr, -⟩ | ⟨rfl, -⟩)
        · cases hptr
        · exact ⟨_, rfl, rfl⟩
    · rw [Function.update_of_ne hfd]
      exact (or_iff_left fun heq => hfd heq.2).symm
  · dsimp only
    rw [h.sockets fd', or_iff_left (Option.some_ne_none _).symm]
    simp only [hfds, exists_or, exists_eq_left, Option.some.injEq, eq_comm (a := fd)]

/-- A change of the scheduler. -/
theorem setSched {ids' : ℕ → ℕ} {sched : Sched.State TimeoutHandler ℕ}
    (h : Resources env fds ids extra) (hsched : Sched.Owners sessionOwner sched ids') :
    Resources { env with sched } fds ids' extra :=
  ⟨hsched, h.handlers, h.sockets, h.extra⟩

end Resources

/-! ### Records of sessions -/

namespace Instance

/-- The resources which a stopped session does not have. -/
structure Released (inst : Instance) : Prop where
  sockFd : inst.sockFd = none
  label : inst.label = none
  tlsSession : inst.tlsSession = false
  timeoutId : inst.timeoutId = 0

/-- The resources which other sessions have. -/
structure Acquired (inst : Instance) : Prop where
  sockFd : inst.sockFd ≠ none
  label : inst.label ≠ none
  tlsSession : inst.tlsSession = true
  timeoutId : inst.timeoutId ≠ 0

end Instance

/-- The lengths of a message are in the buffer. -/
structure KeMessage.Bounded (message : KeMessage) : Prop where
  length : message.session.message.data.length ≤ nkeMaxMessageLength
  sent : message.sent ≤ message.session.message.data.length
  parsed : message.session.message.parsed ≤ message.session.message.data.length

/-- A message which can be sent. -/
structure KeMessage.Sendable (message : KeMessage) : Prop where
  newMessage : message.session.newMessage = true
  complete : message.session.message.complete = true
  sent : message.sent < message.session.message.data.length

namespace Instance

/-- **The message in each state.** The client has its request before it is connected, and no
message was handled before the state in which a message is expected is left. -/
def Ready (inst : Instance) (message : KeMessage) : Prop :=
  match inst.state with
  | .waitConnect | .handshake =>
      (if inst.server then message.sent = 0 else message.Sendable) ∧ inst.handled = []
  | .send => message.Sendable ∧ (inst.server = false → inst.handled = [])
  | .receive => message.sent = 0 ∧ inst.handled = []
  | .shutdown | .stopped => True

/-- **What holds for a session** between events. -/
structure Valid (inst : Instance) : Prop where
  linked : (inst.state = .stopped ∧ inst.Released) ∨ (inst.state ≠ .stopped ∧ inst.Acquired)
  ready : inst.state ≠ .stopped → ∃ message, inst.message = some message ∧ inst.Ready message
  bounded : ∀ message, inst.message = some message → message.Bounded
  handled : inst.handled.length ≤ 1 ∧ ∀ data ∈ inst.handled, IsComplete data

theorem Valid.released {inst : Instance} (h : inst.Valid) (hstate : inst.state = .stopped) :
    inst.Released :=
  h.linked.elim And.right fun hne => absurd hstate hne.1

theorem Valid.acquired {inst : Instance} (h : inst.Valid) (hstate : inst.state ≠ .stopped) :
    inst.Acquired :=
  h.linked.elim (fun heq => absurd heq.1 hstate) And.right

/-- A stopped session has no resources, and its messages do not matter. -/
theorem stopped_valid {inst : Instance}
    (hbounded : ∀ message, inst.message = some message → message.Bounded)
    (hhandled : inst.handled.length ≤ 1 ∧ ∀ data ∈ inst.handled, IsComplete data) :
    inst.stopped.Valid where
  linked := .inl ⟨rfl, rfl, rfl, rfl, rfl⟩
  ready hne := absurd rfl hne
  bounded := hbounded
  handled := hhandled

theorem Released.stopped_eq {inst : Instance} (h : inst.Released)
    (hstate : inst.state = .stopped) : inst.stopped = inst := by
  obtain ⟨server, state, sockFd, label, tlsSession, timeoutId, retryFactor, message, handled⟩ :=
    inst
  obtain ⟨rfl, rfl, rfl, rfl⟩ := h
  obtain rfl := hstate
  rfl

end Instance

/-- **The resources when a session has those of its record**, and the other sessions have theirs. -/
def Held (fds : ℕ → Option ℕ) (ids : ℕ → ℕ) (i : ℕ) (extra : Option ℕ) (inst : Instance)
    (env : KeEnv) : Prop :=
  Resources env (Function.update fds i inst.sockFd) (Function.update ids i inst.timeoutId) extra

/-! ### The environment -/

theorem removeFileHandler_eq {env : KeEnv} {fd : ℕ} (h : env.fileHandlers fd ≠ none) :
    removeFileHandler (some fd) env =
      .ok ((), { env with fileHandlers := Function.update env.fileHandlers fd none }) := by
  change (assert KeAbort.fileHandler (env.fileHandlers fd ≠ none) >>= fun _ => modify fun env =>
    { env with fileHandlers := Function.update env.fileHandlers fd none }) env = _
  rw [assert, if_pos h]
  rfl

theorem addFileHandler_eq {env : KeEnv} {fd : ℕ} (arg : ℕ) (h : env.fileHandlers fd = none)
    (hfd : fd < fdSetSize) : addFileHandler fd arg env =
      .ok ((), { env with
        fileHandlers := Function.update env.fileHandlers fd (some ⟨arg, true, false⟩) }) := by
  change (assert KeAbort.tooManyDescriptors (fd < fdSetSize) >>= fun _ =>
    assert KeAbort.fileHandler (env.fileHandlers fd = none) >>= _) env = _
  rw [assert, if_pos hfd, assert, if_pos h]
  rfl

theorem removeTimeout_eq {env : KeEnv} {id : ℕ} {sched : Sched.State TimeoutHandler ℕ}
    (h : Sched.removeTimeout env.sched id = .ok sched) :
    removeTimeout id env = .ok ((), { env with sched }) := by
  rw [removeTimeout, callSched, h]
  rfl

namespace Instance

variable {fds : ℕ → Option ℕ} {ids : ℕ → ℕ} {i : ℕ} {extra : Option ℕ} {inst : Instance}
  {env : KeEnv}

/-- **A session is stopped.** -/
theorem stopSession_ends (h : Held fds ids i extra inst env)
    (hreleased : inst.state = .stopped → inst.Released)
    (hacquired : inst.state ≠ .stopped → inst.sockFd ≠ none) :
    Ends Allowed inst.stopSession env fun inst' env' =>
      inst' = inst.stopped ∧ Held fds ids i extra inst' env' := by
  rw [stopSession]
  split
  next hstate =>
      have heq := (hreleased hstate).stopped_eq hstate
      exact ⟨heq.symm, h⟩
  next hstate =>
      obtain ⟨fd, hfd⟩ := Option.ne_none_iff_exists'.mp (hacquired hstate)
      have hfds : Function.update fds i inst.sockFd i = some fd := by
        rw [Function.update_self, hfd]
      obtain ⟨hptr, sched, hsched, hres⟩ := Resources.close h hfds
      rw [Function.update_self] at hsched
      rw [Function.update_idem, Function.update_idem] at hres
      rw [hfd]
      refine Ends.step (removeFileHandler_eq hptr) ?_
      refine Ends.step rfl ?_
      refine Ends.step (removeTimeout_eq hsched) ?_
      exact Ends.pure ⟨rfl, hres⟩

/-- The events of a descriptor are set. -/
theorem setInputOutput_ends (h : Held fds ids i extra inst env) (hfd : inst.sockFd ≠ none)
    (output : Bool) : Ends Allowed (inst.setInputOutput output) env fun _ env' =>
      Held fds ids i extra inst env' := by
  obtain ⟨fd, hfd⟩ := Option.ne_none_iff_exists'.mp hfd
  rw [setInputOutput, hfd]
  exact Resources.setEvents h fd fun _ => rfl

/-- **The state is changed.** -/
theorem changeState_ends (h : Held fds ids i extra inst env) (hfd : inst.sockFd ≠ none)
    {state : KeState} (hstate : state ≠ .stopped) :
    Ends Allowed (inst.changeState state) env fun inst' env' =>
      inst' = { inst with state } ∧ Held fds ids i extra inst' env' := by
  have houtput : inst.waitsForOutput state ≠ none := by
    cases state with
    | stopped => exact absurd rfl hstate
    | _ => exact Option.some_ne_none _
  obtain ⟨output, houtput⟩ := Option.ne_none_iff_exists'.mp houtput
  rw [changeState, houtput]
  exact (setInputOutput_ends h hfd output).bind fun _ env' henv' => ⟨rfl, henv'⟩

theorem getMessage_eq {message : KeMessage} (h : inst.message = some message) (env : KeEnv) :
    inst.getMessage env = .ok (message, env) := by
  rw [getMessage, h]
  rfl

end Instance

/-! ### Receiving of messages -/

theorem scan_le {data : List Byte} {bufferLength p q : ℕ} {l : List Record}
    (h : Scan (readRecord data bufferLength) p l q) (hp : p ≤ data.length) : q ≤ data.length := by
  induction h with
  | nil => exact hp
  | cons ha _ ih => exact ih (readRecord_bounds ha).2

/-- **The format of a message is checked** inside of the message. -/
theorem checkMessageFormat_bounds (message : Message) (eof : Bool) :
    (checkMessageFormat message eof).1.data = message.data ∧
      (checkMessageFormat message eof).1.parsed ≤ message.data.length := by
  obtain ⟨l, q, hscan, hq⟩ := Scan.exists_maximal (readRecord message.data 0)
    (fun p a n h => readRecord_bounds h) 0
  have hle := scan_le hscan (Nat.zero_le _)
  obtain ⟨hnot, hwait, hends⟩ := checkMessageFormat_eq hscan hq rfl eof
  by_cases hvalid : endsValid 0 l
  · by_cases hor : q < message.data.length ∨
      l.getLast?.map Record.type ≠ some nkeRecordEndOfMessage
    · rw [hwait hvalid hor]
      exact ⟨rfl, hle⟩
    · rw [not_or, not_not] at hor
      rw [hends hvalid (by omega) hor.2]
      exact ⟨rfl, hle⟩
  · rw [hnot hvalid]
    exact ⟨rfl, Nat.zero_le _⟩

/-- The parts of the data fit in the buffer. -/
theorem receiveChunks_bounds {message message' : Message} {chunks : List (List Byte)}
    (hlength : message.data.length ≤ nkeMaxMessageLength)
    (hparsed : message.parsed ≤ message.data.length)
    (h : receiveChunks message (fitChunks (nkeMaxMessageLength - message.data.length) chunks) =
      some message') :
    message'.data.length ≤ nkeMaxMessageLength ∧ message'.parsed ≤ message'.data.length := by
  induction chunks generalizing message with
  | nil =>
      obtain rfl := Option.some.inj h
      exact ⟨hlength, hparsed⟩
  | cons chunk chunks ih =>
      rw [fitChunks, receiveChunks] at h
      split at h
      · cases h
      · have hroom := List.length_take_le (nkeMaxMessageLength - message.data.length) chunk
        have happend : (message.data ++
            chunk.take (nkeMaxMessageLength - message.data.length)).length = message.data.length +
              (chunk.take (nkeMaxMessageLength - message.data.length)).length := List.length_append
        rw [Nat.sub_sub, ← happend] at h
        refine ih ?_ ?_ h
        · dsimp only
          omega
        · dsimp only
          omega

/-- **What is received** stays in the buffer, and a message is processed when it is complete. -/
theorem handleReceive_bounds {message : Message}
    (hlength : message.data.length ≤ nkeMaxMessageLength)
    (hparsed : message.parsed ≤ message.data.length) (input : Input) :
    let r := Nts.handleReceive message (fitInput message input)
    r.1.data.length ≤ nkeMaxMessageLength ∧ r.1.parsed ≤ r.1.data.length ∧
      (r.2 = .message → r.1.complete = true ∧ IsComplete r.1.data) := by
  dsimp only
  rw [Nts.handleReceive]
  cases hchunks : receiveChunks message (fitInput message input).chunks with
  | none => exact ⟨hlength, hparsed, fun h => by cases h⟩
  | some message' =>
      obtain ⟨hlength', hparsed'⟩ := receiveChunks_bounds hlength hparsed hchunks
      dsimp only
      split
      · refine ⟨hlength', hparsed', fun h => ?_⟩
        dsimp only at h
        split at h <;> cases h
      · exact ⟨hlength', hparsed', fun h => by cases h⟩
      · generalize decide ((fitInput message input).chunks.getLastD [] = []) = eof
        obtain ⟨hdata, hle⟩ := checkMessageFormat_bounds message' eof
        rw [← hdata] at hle
        split
        · exact ⟨hdata ▸ hlength', hle, fun h => by cases h⟩
        · split
          · exact ⟨hdata ▸ hlength', hle, fun h => by cases h⟩
          next hcomplete =>
              rw [Bool.not_eq_true, Bool.not_eq_false'] at hcomplete
              refine ⟨hdata ▸ hlength', hle, fun _ => ⟨hcomplete, ?_⟩⟩
              dsimp only
              rw [hdata]
              exact (complete_iff message' eof).mp hcomplete

/-! ### Events of a session -/

theorem KeMessage.reset_bounded : KeMessage.reset.Bounded :=
  ⟨Nat.zero_le _, le_rfl, le_rfl⟩

/-- **What an event keeps** of a session. -/
structure Kept (fds : ℕ → Option ℕ) (ids : ℕ → ℕ) (i : ℕ) (inst inst' : Instance) (env' : KeEnv) :
    Prop where
  server : inst'.server = inst.server
  valid : inst'.Valid
  held : Held fds ids i none inst' env'

namespace Instance

variable {fds : ℕ → Option ℕ} {ids : ℕ → ℕ} {i : ℕ} {inst : Instance} {env : KeEnv}
  {message : KeMessage}

/-- A session which is not stopped. -/
theorem Acquired.valid (h : inst.Acquired) (hstate : inst.state ≠ .stopped)
    (hmessage : inst.message = some message) (hready : inst.Ready message)
    (hbounded : message.Bounded)
    (hhandled : inst.handled.length ≤ 1 ∧ ∀ data ∈ inst.handled, IsComplete data) :
    inst.Valid where
  linked := .inr ⟨hstate, h⟩
  ready _ := ⟨message, hmessage, hready⟩
  bounded _ hmessage' := Option.some.inj (hmessage.symm.trans hmessage') ▸ hbounded
  handled := hhandled

/-- **An event which stops the session.** -/
theorem stopSession_kept (h : Held fds ids i none inst env) (hstate : inst.state ≠ .stopped)
    (hfd : inst.sockFd ≠ none)
    (hbounded : ∀ message, inst.message = some message → message.Bounded)
    (hhandled : inst.handled.length ≤ 1 ∧ ∀ data ∈ inst.handled, IsComplete data) :
    Ends Allowed inst.stopSession env (Kept fds ids i inst) := by
  refine (stopSession_ends h (fun heq => absurd heq hstate) fun _ => hfd).mono ?_
  rintro inst' env' ⟨rfl, henv'⟩
  exact ⟨rfl, stopped_valid hbounded hhandled, henv'⟩

variable (answers : EventAnswers)

theorem handleConnect_ends (h : Held fds ids i none inst env) (hv : inst.Valid)
    (hstate : inst.state = .waitConnect) (event : FileEvent) :
    Ends Allowed (inst.handleConnect answers event) env (Kept fds ids i inst) := by
  have hne : inst.state ≠ .stopped := hstate ▸ nofun
  have hacq := hv.acquired hne
  obtain ⟨message, hmessage, hready⟩ := hv.ready hne
  rw [Ready, hstate] at hready
  rw [handleConnect]
  split
  · exact ⟨rfl, hv, h⟩
  · split
    · exact stopSession_kept h hne hacq.sockFd hv.bounded hv.handled
    · refine (changeState_ends h hacq.sockFd (show KeState.handshake ≠ .stopped by decide)).mono ?_
      rintro inst' env' ⟨rfl, henv'⟩
      have hacq' : { inst with state := .handshake }.Acquired :=
        ⟨hacq.sockFd, hacq.label, hacq.tlsSession, hacq.timeoutId⟩
      exact ⟨rfl, hacq'.valid nofun hmessage hready (hv.bounded _ hmessage) hv.handled, henv'⟩

/-- A call of TLS which is made again later. -/
theorem setInputOutput_kept (h : Held fds ids i none inst env) (hv : inst.Valid)
    (hfd : inst.sockFd ≠ none) (output : Bool) :
    Ends Allowed (inst.setInputOutput output >>= fun _ => pure inst) env (Kept fds ids i inst) :=
  (setInputOutput_ends h hfd output).bind fun _ _ henv' => ⟨rfl, hv, henv'⟩

theorem handleHandshake_ends (h : Held fds ids i none inst env) (hv : inst.Valid)
    (hstate : inst.state = .handshake) :
    Ends Allowed (inst.handleHandshake answers) env (Kept fds ids i inst) := by
  have hne : inst.state ≠ .stopped := hstate ▸ nofun
  have hacq := hv.acquired hne
  obtain ⟨message, hmessage, hready⟩ := hv.ready hne
  rw [Ready, hstate] at hready
  obtain ⟨hsent, hhandled⟩ := hready
  rw [handleHandshake]
  split
  · have h' : Held fds ids i none { inst with retryFactor := retryFactorTls } env := h
    refine (changeState_ends h' hacq.sockFd ?_).mono ?_
    · split <;> exact nofun
    · rintro inst' env' ⟨rfl, henv'⟩
      refine ⟨rfl, Acquired.valid ?_ ?_ hmessage ?_ (hv.bounded _ hmessage) hv.handled, henv'⟩
      · exact ⟨hacq.sockFd, hacq.label, hacq.tlsSession, hacq.timeoutId⟩
      · dsimp only
        split <;> exact nofun
      · rw [Ready]
        dsimp only
        cases hserver : inst.server with
        | true =>
            rw [hserver, if_pos rfl] at hsent
            exact ⟨hsent, hhandled⟩
        | false =>
            rw [hserver, if_neg Bool.false_ne_true] at hsent
            exact ⟨hsent, fun _ => hhandled⟩
  · exact setInputOutput_kept h hv hacq.sockFd false
  · exact setInputOutput_kept h hv hacq.sockFd true
  · exact stopSession_kept h hne hacq.sockFd hv.bounded hv.handled
  · refine (stopSession_ends h (fun heq => absurd heq hne) fun _ => hacq.sockFd).bind ?_
    rintro inst' env' ⟨rfl, henv'⟩
    exact ⟨rfl, @stopped_valid { inst with retryFactor := retryFactorTls } hv.bounded hv.handled,
      henv'⟩

/-- **A part of the message is sent.** -/
theorem handleSend_ends (h : Held fds ids i none inst env) (hv : inst.Valid)
    (hstate : inst.state = .send) :
    Ends Allowed (inst.handleSend answers) env (Kept fds ids i inst) := by
  have hne : inst.state ≠ .stopped := hstate ▸ nofun
  have hacq := hv.acquired hne
  obtain ⟨message, hmessage, hready⟩ := hv.ready hne
  have hbounded := hv.bounded _ hmessage
  rw [Ready, hstate] at hready
  obtain ⟨hsendable, hhandled⟩ := hready
  rw [handleSend]
  refine Ends.step (getMessage_eq hmessage env) ?_
  refine Ends.assert ⟨hsendable.newMessage, hsendable.complete⟩ ?_
  refine Ends.assert ⟨hbounded.length, hsendable.sent⟩ ?_
  split
  · dsimp only
    split
    next hlt =>
        refine ⟨rfl, Acquired.valid ?_ hne rfl ?_ ⟨hbounded.length, hlt.le, hbounded.parsed⟩
          hv.handled, h⟩
        · exact ⟨hacq.sockFd, hacq.label, hacq.tlsSession, hacq.timeoutId⟩
        · rw [Ready]
          dsimp only
          rw [hstate]
          exact ⟨⟨hsendable.newMessage, hsendable.complete, hlt⟩, hhandled⟩
    next hge =>
        have hnext : (if inst.server then KeState.shutdown else .receive) ≠ .stopped := by
          split <;> exact nofun
        refine (changeState_ends h hacq.sockFd hnext).bind ?_
        rintro inst' env' ⟨rfl, henv'⟩
        refine ⟨rfl, Acquired.valid ?_ hnext rfl ?_ KeMessage.reset_bounded hv.handled, henv'⟩
        · exact ⟨hacq.sockFd, hacq.label, hacq.tlsSession, hacq.timeoutId⟩
        · rw [Ready]
          dsimp only
          cases hserver : inst.server with
          | true => exact True.intro
          | false => exact ⟨rfl, hhandled hserver⟩
  · exact ⟨rfl, hv, h⟩
  · exact stopSession_kept h hne hacq.sockFd hv.bounded hv.handled

theorem handleShutdown_ends (h : Held fds ids i none inst env) (hv : inst.Valid)
    (hstate : inst.state = .shutdown) :
    Ends Allowed (inst.handleShutdown answers) env (Kept fds ids i inst) := by
  have hne : inst.state ≠ .stopped := hstate ▸ nofun
  have hfd := (hv.acquired hne).sockFd
  rw [handleShutdown]
  split
  · exact setInputOutput_kept h hv hfd false
  · exact setInputOutput_kept h hv hfd true
  · exact stopSession_kept h hne hfd hv.bounded hv.handled

/-- A session which received a message that was not handled yet. -/
structure Received (inst : Instance) (message : KeMessage) : Prop where
  state : inst.state = if inst.server then .send else .shutdown
  acquired : inst.Acquired
  handled : inst.handled = []
  stored : inst.message = some message
  bounded : message.Bounded
  sent : message.sent = 0
  complete : message.session.message.complete = true ∧ IsComplete message.session.message.data

/-- **What holds after `handle_event`**, which returns whether a message is complete. -/
structure AfterEvent (fds : ℕ → Option ℕ) (ids : ℕ → ℕ) (i : ℕ) (inst : Instance)
    (r : Instance × Bool) (env' : KeEnv) : Prop where
  kept : r.2 = false → Kept fds ids i inst r.1 env'
  received : r.2 = true → r.1.server = inst.server ∧ Held fds ids i none r.1 env' ∧
    ∃ message, r.1.Received message

theorem AfterEvent.of_kept {inst' : Instance} {env' : KeEnv} (h : Kept fds ids i inst inst' env') :
    AfterEvent fds ids i inst (inst', false) env' :=
  ⟨fun _ => h, nofun⟩

/-- **A part of a message is received.** -/
theorem handleReceive_ends (h : Held fds ids i none inst env) (hv : inst.Valid)
    (hstate : inst.state = .receive) :
    Ends Allowed (inst.handleReceive answers) env (AfterEvent fds ids i inst) := by
  have hne : inst.state ≠ .stopped := hstate ▸ nofun
  have hacq := hv.acquired hne
  obtain ⟨message, hmessage, hready⟩ := hv.ready hne
  have hbounded := hv.bounded _ hmessage
  rw [Ready, hstate] at hready
  obtain ⟨hsent, hhandled⟩ := hready
  obtain ⟨hlength, hparsed, hcomplete⟩ :=
    handleReceive_bounds hbounded.length hbounded.parsed answers.received
  rw [handleReceive]
  refine Ends.step (getMessage_eq hmessage env) ?_
  generalize Nts.handleReceive message.session.message
    (fitInput message.session.message answers.received) = r at *
  dsimp only
  -- the message with the received data
  obtain ⟨message', hmessage'⟩ : ∃ message' : KeMessage,
    message' = { message with session := { message.session with message := r.1 } } := ⟨_, rfl⟩
  rw [← hmessage']
  have hbounded' : message'.Bounded :=
    hmessage' ▸ ⟨hlength, hsent.trans_le (Nat.zero_le _), hparsed⟩
  have hsent' : message'.sent = 0 := hmessage' ▸ hsent
  have hcomplete' : r.2 = .message → message'.session.message.complete = true ∧
      IsComplete message'.session.message.data := hmessage' ▸ hcomplete
  have h' : Held fds ids i none { inst with message := some message' } env := h
  have hacq' : { inst with message := some message' }.Acquired :=
    ⟨hacq.sockFd, hacq.label, hacq.tlsSession, hacq.timeoutId⟩
  split
  · refine AfterEvent.of_kept ⟨rfl, hacq'.valid hne rfl ?_ hbounded' hv.handled, h'⟩
    rw [Ready]
    dsimp only
    rw [hstate]
    exact ⟨hsent', hhandled⟩
  · refine (stopSession_kept h' hne hacq.sockFd
      (fun _ hm => Option.some.inj hm ▸ hbounded') hv.handled).bind fun inst' env' hkept => ?_
    exact AfterEvent.of_kept ⟨hkept.server, hkept.valid, hkept.held⟩
  next hr =>
      refine (changeState_ends h' hacq.sockFd ?_).bind ?_
      · split <;> exact nofun
      · rintro inst' env' ⟨rfl, henv'⟩
        exact ⟨nofun, fun _ => ⟨rfl, henv', message', rfl,
          ⟨hacq.sockFd, hacq.label, hacq.tlsSession, hacq.timeoutId⟩, hhandled, rfl, hbounded',
          hsent', hcomplete' hr⟩⟩

/-- **An event of the descriptor.** -/
theorem handleEvent_ends (h : Held fds ids i none inst env) (hv : inst.Valid)
    (hstate : inst.state ≠ .stopped) (event : FileEvent) :
    Ends Allowed (inst.handleEvent answers event) env (AfterEvent fds ids i inst) := by
  rw [handleEvent]
  split
  next hconnect =>
      exact ((handleConnect_ends answers h hv hconnect event).mono
        fun _ _ hkept => .of_kept hkept).map
  next hhandshake =>
      exact ((handleHandshake_ends answers h hv hhandshake).mono
        fun _ _ hkept => .of_kept hkept).map
  next hsend =>
      exact ((handleSend_ends answers h hv hsend).mono fun _ _ hkept => .of_kept hkept).map
  next hreceive => exact handleReceive_ends answers h hv hreceive
  next hshutdown =>
      exact ((handleShutdown_ends answers h hv hshutdown).mono
        fun _ _ hkept => .of_kept hkept).map
  next hstopped => exact absurd hstopped hstate

end Instance

/-! ### Handlers of messages -/

/-- The functions which add or get records do not use the environment. -/
theorem callRecords_ends {α : Type} {x : Except SessionAbort α} {P : α → Prop}
    (h : Returns (fun _ => False) x P) (env : KeEnv) :
    Ends Allowed (callRecords x) env fun a env' => P a ∧ env' = env := by
  unfold Ends
  cases x with
  | error e => exact h.elim
  | ok a => exact ⟨h, rfl⟩

theorem KeMessage.Bounded.of_prepared {session : Session} {prepared : Bool}
    (h : session.Prepared prepared) : KeMessage.Bounded ⟨session, 0⟩ :=
  ⟨h.length, Nat.zero_le _, h.parsed.trans_le (Nat.zero_le _)⟩

theorem KeMessage.Sendable.of_prepared {message : KeMessage}
    (h : message.session.Prepared true) (hsent : message.sent = 0) : message.Sendable :=
  ⟨h.newMessage, (h.complete rfl).1, hsent ▸ (h.complete rfl).2⟩

/-- **The message after its handler** was called: the response of the server, or the message which
was read by the client. -/
def AfterHandler (server : Bool) (message message' : KeMessage) (handled : Bool) : Prop :=
  if server then message'.session.Prepared handled ∧ message'.sent = 0
  else message'.sent = message.sent ∧ ∃ parsed, parsed ≤ message.session.message.data.length ∧
    message'.session =
      { message.session with message := { message.session.message with parsed } }

theorem AfterHandler.bounded {server handled : Bool} {message message' : KeMessage}
    (h : AfterHandler server message message' handled) (hbounded : message.Bounded) :
    message'.Bounded := by
  obtain ⟨session', sent'⟩ := message'
  rw [AfterHandler] at h
  split at h
  · obtain ⟨hprepared, rfl⟩ := h
    exact .of_prepared hprepared
  · obtain ⟨rfl, parsed, hle, rfl⟩ := h
    exact ⟨hbounded.length, hbounded.sent, hle⟩

/-- **The handler of a message**. An instance of the client stays as long as it has a session. -/
theorem callHandler_ends (config : ClientConfig) (answers : EventAnswers) {server : Bool}
    {nkc : Option NkcInstance} (hnkc : server = false → nkc ≠ none) {message : KeMessage}
    (hcomplete : message.session.message.complete = true)
    (hparsed : message.session.message.parsed ≤ message.session.message.data.length)
    (env : KeEnv) :
    Ends Allowed (callHandler config answers server nkc message) env fun r env' =>
      AfterHandler server message r.1 r.2.2 ∧
        r.2.1.map NkcInstance.destroying = nkc.map NkcInstance.destroying ∧ env' = env := by
  cases server with
  | true =>
      rw [callHandler.eq_def, if_pos rfl]
      refine (callRecords_ends (HandlerAnswers.processRequest_returns hcomplete hparsed
        answers.handler answers.server) env).bind ?_
      rintro r env' ⟨hr, rfl⟩
      exact ⟨⟨hr, rfl⟩, rfl, rfl⟩
  | false =>
      obtain ⟨nkc, rfl⟩ := Option.ne_none_iff_exists'.mp (hnkc rfl)
      rw [callHandler.eq_def, if_neg Bool.false_ne_true]
      refine (callRecords_ends (nkc.handleMessage_returns hcomplete hparsed config.siv
        config.aeads answers.handler) env).bind ?_
      rintro r env' ⟨⟨hdestroying, parsed, hle, hr⟩, rfl⟩
      exact ⟨⟨rfl, parsed, hle, hr⟩, congrArg some hdestroying, rfl⟩

namespace Instance

variable {fds : ℕ → Option ℕ} {ids : ℕ → ℕ} {i : ℕ} {inst : Instance} {env : KeEnv}

/-- **An event of a session**, with the handler of its message. -/
theorem readWriteSocket_ends (config : ClientConfig) (answers : EventAnswers) (event : FileEvent)
    {nkc : Option NkcInstance} (hnkc : inst.server = false → nkc ≠ none)
    (h : Held fds ids i none inst env) (hv : inst.Valid) (hstate : inst.state ≠ .stopped) :
    Ends Allowed (inst.readWriteSocket config answers event nkc) env fun r env' =>
      Kept fds ids i inst r.1 env' ∧
        r.2.map NkcInstance.destroying = nkc.map NkcInstance.destroying := by
  rw [readWriteSocket]
  refine (handleEvent_ends answers h hv hstate event).bind ?_
  rintro ⟨inst', received⟩ env' hafter
  dsimp only
  cases received with
  | false => exact ⟨hafter.kept rfl, rfl⟩
  | true =>
      obtain ⟨hserver, hheld, message, hreceived⟩ := hafter.received rfl
      dsimp only at hserver hheld hreceived
      obtain ⟨hcomplete, hdata⟩ := hreceived.complete
      refine Ends.step (getMessage_eq hreceived.stored env') ?_
      have hcall := @callHandler_ends config answers inst'.server nkc (hserver ▸ hnkc)
        ⟨⟨resetMessageParsing message.session.message, message.session.newMessage⟩, message.sent⟩
        hcomplete (Nat.zero_le _) env'
      refine hcall.bind ?_
      rintro ⟨message', nkc', handled⟩ env'' ⟨hmessage', hnkc', rfl⟩
      have hbounded' : message'.Bounded :=
        hmessage'.bounded ⟨hreceived.bounded.length, hreceived.bounded.sent, Nat.zero_le _⟩
      have hhandled : (inst'.handled ++ [message.session.message.data]).length ≤ 1 ∧
          ∀ data ∈ inst'.handled ++ [message.session.message.data], IsComplete data := by
        rw [hreceived.handled, List.nil_append]
        exact ⟨le_rfl, fun data hmem => List.mem_singleton.mp hmem ▸ hdata⟩
      have hne : inst'.state ≠ .stopped := by
        rw [hreceived.state]
        split <;> exact nofun
      have hacquired := hreceived.acquired
      have hheld' : Held fds ids i none { inst' with
        message := some message'
        handled := inst'.handled ++ [message.session.message.data] } env'' := hheld
      cases handled with
      | true =>
          refine ⟨⟨hserver, Acquired.valid ?_ hne rfl ?_ hbounded' hhandled, hheld'⟩, hnkc'⟩
          · exact ⟨hacquired.sockFd, hacquired.label, hacquired.tlsSession, hacquired.timeoutId⟩
          · rw [Ready]
            dsimp only
            rw [hreceived.state]
            cases hs : inst'.server with
            | true =>
                rw [hs, AfterHandler, if_pos rfl] at hmessage'
                exact ⟨.of_prepared hmessage'.1 hmessage'.2, nofun⟩
            | false => exact True.intro
      | false =>
          refine (stopSession_kept hheld' hne hacquired.sockFd
            (fun _ hm => Option.some.inj hm ▸ hbounded') hhandled).bind fun inst'' env₂ hkept => ?_
          exact ⟨⟨hkept.server.trans hserver, hkept.valid, hkept.held⟩, hnkc'⟩

/-- **The timeout of a session**, which was removed from the queue. -/
theorem sessionTimeout_ends (h : Held fds ids i none { inst with timeoutId := 0 } env)
    (hv : inst.Valid) (hstate : inst.state ≠ .stopped) :
    Ends Allowed inst.sessionTimeout env (Kept fds ids i inst) := by
  refine (stopSession_kept h hstate (hv.acquired hstate).sockFd hv.bounded hv.handled).mono ?_
  intro inst' env' hkept
  exact ⟨hkept.server, hkept.valid, hkept.held⟩

end Instance

/-! ### Starts of a session -/

theorem addFileHandler_ends {env : KeEnv} {fds : ℕ → Option ℕ} {ids : ℕ → ℕ} {i fd : ℕ}
    (h : Resources env fds ids (some fd)) (hi : fds i = none) :
    Ends Allowed (addFileHandler fd i) env fun _ env' =>
      Resources env' (Function.update fds i (some fd)) ids none := by
  obtain ⟨hnone, hadd⟩ := h.addHandler hi true false
  by_cases hfd : fd < fdSetSize
  · unfold Ends
    rw [addFileHandler_eq i hnone hfd]
    exact hadd
  · unfold Ends
    have herror : addFileHandler fd i env = .error .tooManyDescriptors := by
      change (assert KeAbort.tooManyDescriptors (fd < fdSetSize) >>= fun _ =>
        assert KeAbort.fileHandler (env.fileHandlers fd = none) >>= _) env = _
      rw [assert, if_neg hfd]
      rfl
    rw [herror]
    exact .inl rfl

/-- A call of the scheduler of timeouts, which can fail only if there is no free identifier. -/
theorem callSched_ends {α : Type} {env : KeEnv} {f : Sched.State TimeoutHandler ℕ →
    Except Sched.Abort (Sched.State TimeoutHandler ℕ × α)}
    {P : Sched.State TimeoutHandler ℕ × α → Prop} (h : Returns (· = .noFreeId) (f env.sched) P) :
    Ends Allowed (callSched f) env fun a env' => ∃ sched, env' = { env with sched } ∧
      P (sched, a) := by
  unfold Ends
  rw [callSched]
  cases hf : f env.sched with
  | error e => exact .inr (congrArg KeAbort.sched (h.error hf))
  | ok r => exact ⟨r.1, rfl, h.value hf⟩

theorem addTimeoutByDelay_ends {env : KeEnv} {fds : ℕ → Option ℕ} {ids : ℕ → ℕ} {i : ℕ}
    {extra : Option ℕ} (h : Resources env fds ids extra) (hi : ids i = 0) (now : ℚ) {delay : ℚ}
    (hdelay : 0 ≤ delay) :
    Ends Allowed (addTimeoutByDelay now delay .sessionTimeout i) env fun id env' =>
      id ≠ 0 ∧ Resources env' fds (Function.update ids i id) extra := by
  have hadd : Returns (· = .noFreeId)
      ((Sched.addTimeoutByDelay env.sched now delay TimeoutHandler.sessionTimeout i).map
        fun r => (r.1, r.2.id))
      fun r => r.2 ≠ 0 ∧ Sched.Owners sessionOwner r.1 (Function.update ids i r.2) :=
    (h.timers.addTimeoutByDelay hi now hdelay rfl).map
  refine (callSched_ends hadd).mono ?_
  rintro id env' ⟨sched, rfl, hid, htimers⟩
  exact ⟨hid, h.setSched htimers⟩

/-- **A session which was started**, when its message is not prepared yet. -/
structure Started (fds : ℕ → Option ℕ) (ids : ℕ → ℕ) (i : ℕ) (inst inst' : Instance)
    (env' : KeEnv) : Prop where
  server : inst'.server = inst.server
  held : Held fds ids i none inst' env'
  state : inst'.state = if inst.server then .handshake else .waitConnect
  acquired : inst'.Acquired
  stored : inst'.message = some .reset
  handled : inst'.handled = []

namespace Instance

variable {fds : ℕ → Option ℕ} {ids : ℕ → ℕ} {i fd : ℕ} {inst : Instance} {env : KeEnv}

/-- **A stopped session is started** with a new descriptor. -/
theorem startSession_ends (h : Held fds ids i (some fd) inst env) (hv : inst.Valid)
    (hstate : inst.state = .stopped) (label : String) (created : Bool) (now : ℚ) {timeout : ℚ}
    (htimeout : 0 ≤ timeout) :
    Ends Allowed (inst.startSession i fd label created now timeout) env fun r env' =>
      (r.2 = false → r.1 = inst ∧ Held fds ids i (some fd) inst env') ∧
      (r.2 = true → Started fds ids i inst r.1 env') := by
  have hreleased := hv.released hstate
  rw [startSession]
  refine Ends.assert hstate ?_
  split
  · refine ⟨fun _ => ⟨?_, h⟩, nofun⟩
    rw [← hreleased.tlsSession]
  · refine (addFileHandler_ends h (by rw [Function.update_self, hreleased.sockFd])).bind ?_
    intro _ env₁ h₁
    rw [Function.update_idem] at h₁
    refine (addTimeoutByDelay_ends h₁ (by rw [Function.update_self, hreleased.timeoutId]) now
      htimeout).bind ?_
    rintro id env₂ ⟨hid, h₂⟩
    rw [Function.update_idem] at h₂
    have h' : Held fds ids i none { inst with
        tlsSession := true
        sockFd := some fd
        label := some label
        timeoutId := id
        retryFactor := retryFactorConnect
        message := some .reset
        handled := [] } env₂ := h₂
    have hnext : (if inst.server then KeState.handshake else .waitConnect) ≠ .stopped := by
      split <;> exact nofun
    refine (changeState_ends h' (Option.some_ne_none fd) hnext).bind ?_
    rintro inst' env' ⟨rfl, henv'⟩
    refine ⟨nofun, fun _ => ⟨rfl, henv', rfl, ?_, rfl, rfl⟩⟩
    exact ⟨Option.some_ne_none fd, Option.some_ne_none label, rfl, hid⟩

end Instance

namespace Started

variable {fds : ℕ → Option ℕ} {ids : ℕ → ℕ} {i : ℕ} {inst inst' : Instance} {env : KeEnv}

/-- A session with a message for its first state. -/
theorem valid (h : Started fds ids i inst inst' env) {message : KeMessage}
    (hmessage : if inst.server then message.sent = 0 else message.Sendable)
    (hbounded : message.Bounded) : { inst' with message := some message }.Valid := by
  have hacquired := h.acquired
  refine Instance.Acquired.valid ?_ ?_ rfl ?_ hbounded ?_
  · exact ⟨hacquired.sockFd, hacquired.label, hacquired.tlsSession, hacquired.timeoutId⟩
  · dsimp only
    rw [h.state]
    split <;> exact nofun
  · rw [Instance.Ready]
    dsimp only
    rw [h.state, h.server, h.handled]
    cases hserver : inst.server with
    | true | false =>
        rw [hserver] at hmessage
        exact ⟨hmessage, rfl⟩
  · dsimp only
    rw [h.handled]
    exact ⟨Nat.zero_le _, nofun⟩

/-- **The server** waits for a request. -/
theorem kept (h : Started fds ids i inst inst' env) (hserver : inst.server = true) :
    Kept fds ids i inst inst' env := by
  refine ⟨h.server, ?_, h.held⟩
  have hvalid : { inst' with message := some .reset }.Valid :=
    h.valid (by rw [hserver]; rfl) KeMessage.reset_bounded
  rwa [← h.stored] at hvalid

end Started

theorem openSocket_ends {env : KeEnv} {fds : ℕ → Option ℕ} {ids : ℕ → ℕ}
    (h : Resources env fds ids none) (fd : Option ℕ) :
    Ends Allowed (openSocket fd) env fun r env' =>
      (r = none → env' = env) ∧ ∀ fd', r = some fd' → Resources env' fds ids (some fd') := by
  rw [openSocket]
  refine Ends.get ?_
  cases hfd : fd.filter (· ∉ env.sockets) with
  | none => exact ⟨fun _ => rfl, nofun⟩
  | some fd' =>
      obtain ⟨-, hfd'⟩ := Option.filter_eq_some_iff.mp hfd
      refine ⟨nofun, fun fd'' heq => ?_⟩
      obtain rfl := Option.some.inj heq
      exact h.openSocket (of_decide_eq_true hfd')

/-- **A session of a client is started** with its request. -/
theorem nkcStart_ends (config : ClientConfig) (answers : StartAnswers) (nkc : NkcInstance)
    {env : KeEnv} {fds : ℕ → Option ℕ} {ids : ℕ → ℕ} {i : ℕ} {inst : Instance}
    (h : Held fds ids i none inst env) (hv : inst.Valid) (hserver : inst.server = false)
    (hactive : inst.state = .stopped ∧ nkc.resolvingName = false) :
    Ends Allowed (nkcStart config answers i nkc inst) env fun r env' =>
      Kept fds ids i inst r.1 env' ∧ r.2.destroying = nkc.destroying := by
  rw [nkcStart]
  refine Ends.assert ⟨hactive.1, by rw [hactive.2]; rfl⟩ ?_
  dsimp only
  split
  · exact ⟨⟨rfl, hv, h⟩, rfl⟩
  · refine (openSocket_ends h answers.sockFd).bind ?_
    rintro fd env₁ ⟨hnone, hsome⟩
    cases fd with
    | none => exact ⟨⟨rfl, hv, hnone rfl ▸ h⟩, rfl⟩
    | some fd =>
        refine (Instance.startSession_ends (hsome fd rfl) hv hactive.1 answers.label
          answers.created answers.now (show 0 ≤ clientTimeout by decide)).bind ?_
        rintro ⟨inst', started⟩ env₂ ⟨hfailed, hstarted⟩
        cases started with
        | false =>
            obtain ⟨heq, hheld⟩ := hfailed rfl
            dsimp only at heq
            obtain rfl := heq
            exact ⟨⟨rfl, hv, Resources.closeSocket hheld⟩, rfl⟩
        | true =>
            have hstarted := hstarted rfl
            dsimp only at hstarted
            refine Ends.step (Instance.getMessage_eq hstarted.stored env₂) ?_
            refine (callRecords_ends (prepareRequest_returns config.siv config.aeads _)
              env₂).bind ?_
            rintro ⟨session, prepared⟩ env₃ ⟨hprepared, rfl⟩
            have hheld : Held fds ids i none { inst' with message := some ⟨session, 0⟩ } env₃ :=
              hstarted.held
            have hbounded := KeMessage.Bounded.of_prepared hprepared
            cases prepared with
            | true =>
                have hmessage : if inst.server then (⟨session, 0⟩ : KeMessage).sent = 0
                    else (⟨session, 0⟩ : KeMessage).Sendable := by
                  rw [hserver]
                  exact .of_prepared hprepared rfl
                exact ⟨⟨hstarted.server, hstarted.valid hmessage hbounded, hheld⟩, rfl⟩
            | false =>
                have hne : inst'.state ≠ .stopped := by
                  rw [hstarted.state]
                  split <;> exact nofun
                refine (Instance.stopSession_kept hheld hne hstarted.acquired.sockFd
                  (fun _ hm => Option.some.inj hm ▸ hbounded) ?_).bind ?_
                · dsimp only
                  rw [hstarted.handled]
                  exact ⟨Nat.zero_le _, nofun⟩
                · intro inst'' env₄ hkept
                  exact ⟨⟨hkept.server.trans hstarted.server, hkept.valid, hkept.held⟩, rfl⟩

end Chrony.Nts.Nksn
