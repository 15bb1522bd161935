import Mathlib.Logic.Relation
import Chrony.Candm.Cmdmon

/-!
# Requests from the Network

What the hosts in the network can do with any sequence of requests to the command sockets.

## Main results

* `network_run`: the configuration of the daemon and of its access control is not changed, only
  allowed hosts have replies, and no host gets more data than it sent.
-/

namespace Chrony.Candm

open ClientLog

variable {δ ρ : Type} {B : Backend δ ρ} {rx : Memory} {seed : BitVec 32}

/-! ### One request -/

/-- The daemon is not changed, or only by a report, of the local reference or of the
authentication of a source. -/
def Kept (B : Backend δ ρ) (d d' : δ) : Prop :=
  d' = d ∨ d' = (B.refGetTrackingReport d).2 ∨ ∃ addr, d' = (B.nsrGetAuthReport addr d).2

/-- The client log is changed by calls of its functions. -/
def Logged (seed : BitVec 32) (log log' : Log) : Prop :=
  ∃ calls : List LogCall, calls.foldlM (Log.step seed) log = .ok log'

theorem Logged.refl (log : Log) : Logged seed log log := ⟨[], rfl⟩

theorem Logged.trans {log log' log'' : Log} (h : Logged seed log log')
    (h' : Logged seed log' log'') : Logged seed log log'' := by
  obtain ⟨calls, hcalls⟩ := h
  obtain ⟨calls', hcalls'⟩ := h'
  refine ⟨calls ++ calls', ?_⟩
  rw [List.foldlM_append, hcalls]
  exact hcalls'

theorem Logged.reset (log : Log) (index : ℕ) : Logged seed log (resetRecord log index) :=
  ⟨[.reset index], rfl⟩

theorem getClientAccessReportByIndex_logged (log : Log) (index : ℕ) (reset : Bool)
    (minHits : BitVec 32) (now : Timespec) :
    Logged seed log (getClientAccessReportByIndex log index reset minHits now).2 := by
  rw [getClientAccessReportByIndex]
  split
  · exact .refl log
  · cases reset with
    | false => exact .refl log
    | true => exact .reset log index

theorem clientAccesses_logged (reset : Bool) (minHits : BitVec 32) (now : Timespec)
    (nIndices i n : ℕ) (log : Log) :
    Logged seed log (clientAccesses reset minHits now nIndices i n log).2.2 := by
  induction i, n, log using clientAccesses.induct reset minHits now nIndices with
  | case1 i n log hlt log' heq ih =>
      rw [clientAccesses, if_pos hlt, heq]
      refine Logged.trans ?_ ih
      have hlog : Logged seed log (getClientAccessReportByIndex log i reset minHits now).2 :=
        getClientAccessReportByIndex_logged log i reset minHits now
      rwa [heq] at hlog
  | case2 i n log hlt client log' heq ih =>
      rw [clientAccesses, if_pos hlt, heq]
      refine Logged.trans ?_ ih
      have hlog : Logged seed log (getClientAccessReportByIndex log i reset minHits now).2 :=
        getClientAccessReportByIndex_logged log i reset minHits now
      rwa [heq] at hlog
  | case3 i n log hge =>
      rw [clientAccesses, if_neg hge]
      exact .refl log

theorem handleClientAccessesByIndex_logged (now : Timespec) (log : Log) :
    Logged seed log (handleClientAccessesByIndex rx now log : Reply ρ × Log).2 := by
  rw [handleClientAccessesByIndex]
  split
  · exact .refl log
  · exact clientAccesses_logged _ _ _ _ _ _ _

theorem limitAccess_logged {remoteIp : IPAddr} {localhost leak kod passed : Bool} {now : Timespec}
    {log log' : Log}
    (h : limitAccess seed remoteIp localhost leak kod now log = .ok (passed, log')) :
    Logged seed log log' := by
  obtain ⟨⟨log₁, index⟩, hlog₁, h⟩ := Lib.bind_eq_ok_iff.mp h
  cases index with
  | none =>
      obtain ⟨-, rfl⟩ := Prod.mk.inj (Except.ok.inj h)
      refine ⟨[.access .cmdmon remoteIp now []], ?_⟩
      rw [List.foldlM_cons, Log.step, hlog₁]
      rfl
  | some index =>
      cases localhost with
      | true =>
          obtain ⟨-, rfl⟩ := Prod.mk.inj (Except.ok.inj h)
          refine ⟨[.access .cmdmon remoteIp now []], ?_⟩
          rw [List.foldlM_cons, Log.step, hlog₁]
          rfl
      | false =>
          obtain ⟨-, rfl⟩ := Prod.mk.inj (Except.ok.inj h)
          refine ⟨[.access .cmdmon remoteIp now [(leak, kod)]], ?_⟩
          rw [List.foldlM_cons, Log.step, hlog₁]
          rfl

/-- What a request without full access does. -/
structure Harmless (seed : BitVec 32) (B : Backend δ ρ) (s s' : State δ) : Prop where
  table : s'.accessAuthTable = s.accessAuthTable
  daemon : Kept B s.daemon s'.daemon
  log : Logged seed s.clientLog s'.clientLog

theorem Harmless.refl (s : State δ) : Harmless seed B s s := ⟨rfl, .inl rfl, .refl _⟩

theorem readonlyReply_harmless (s : State δ) (now : Timespec) (command : Command) :
    ∀ r ∈ readonlyReply B rx s now command, Harmless seed B s r.2 := by
  rintro r hr
  cases command
  case tracking =>
      obtain rfl := Option.some.inj hr
      exact ⟨rfl, .inr (.inl rfl), .refl _⟩
  case authData =>
      obtain rfl := Option.some.inj hr
      exact ⟨rfl, .inr (.inr ⟨_, rfl⟩), .refl _⟩
  case clientAccessesByIndex3 =>
      obtain rfl := Option.some.inj hr
      exact ⟨rfl, .inl rfl, handleClientAccessesByIndex_logged now s.clientLog⟩
  case accheck | activity | cmdaccheck | manualList | ntpData | ntpSourceName |
      nSources | rtcreport | selectData | serverStats | smoothing | sourcestats | sourceData =>
      obtain rfl := Option.some.inj hr
      exact .refl s
  all_goals exact absurd hr (Option.not_mem_none r)

/-- **A command without full access is harmless.** -/
theorem handleCommand_harmless (s : State δ) (now : Timespec) (command : Command) :
    Harmless seed B s (handleCommand B rx s now false command).2 := by
  rw [handleCommand, handleReadonlyCommands, if_neg Bool.false_ne_true, Option.none_or]
  split
  · cases hr : readonlyReply B rx s now command with
    | none => exact .refl s
    | some r => exact readonlyReply_harmless s now command r hr
  · exact .refl s

theorem processRequest_harmless (s : State δ) (now : Timespec) (readLength : ℕ) :
    Harmless seed B s (processRequest B now false readLength rx s).2 := by
  rw [processRequest]
  split
  · split <;> exact .refl s
  · split
    · exact .refl s
    · dsimp only
      split
      · exact .refl s
      · split
        · exact .refl s
        · exact handleCommand_harmless s now _

/-- A message from the network. -/
def Message.fromNetwork (msg : Message) : Bool :=
  match msg.remoteAddr with
  | .ip _ _ => true
  | .unix _ => false

/-- A host which can send requests. -/
def hostAllowed (table : AddrFilt.AuthTable) : Address → Bool
  | .ip ipAddr _ => isLocalhost ipAddr || AddrFilt.isAllowed table ipAddr
  | .unix _ => true

theorem checkAddress_fromNetwork {table : AddrFilt.AuthTable} {msg : Message}
    (hnetwork : msg.fromNetwork) {remoteIp : IPAddr} {localhost fullAccess : Bool}
    (h : checkAddress table msg.sockFd msg.remoteAddr = some (remoteIp, localhost, fullAccess)) :
    fullAccess = false ∧ hostAllowed table msg.remoteAddr := by
  rw [Message.fromNetwork] at hnetwork
  cases haddr : msg.remoteAddr with
  | unix path => simp [haddr] at hnetwork
  | ip ipAddr port =>
      rw [haddr] at h
      simp only [checkAddress] at h
      split at h
      · split at h
        · cases h
        next hallowed =>
            obtain ⟨-, h⟩ := Prod.mk.inj (Option.some.inj h)
            obtain ⟨-, rfl⟩ := Prod.mk.inj h
            refine ⟨rfl, ?_⟩
            rw [hostAllowed, Bool.or_eq_true]
            by_contra hnot
            exact hallowed (by simpa using hnot)
      · cases h

/-- **One message from the network.** -/
theorem readFromCmdSocket_harmless {env : Conditions δ ρ} {msg : Message} {s s' : State δ}
    {out : Option (ReplyMessage ρ)} (hnetwork : msg.fromNetwork)
    (h : readFromCmdSocket seed env msg s = .ok (out, s')) :
    Harmless seed env.backend s s' ∧
      (out.isSome → hostAllowed s.accessAuthTable msg.remoteAddr) := by
  rcases readFromCmdSocket_cases h with ⟨⟨rfl, rfl⟩, -⟩ |
    ⟨remoteIp, localhost, fullAccess, passed, log, hadmitted, hlimit, hout⟩
  · exact ⟨.refl s', fun hsome => absurd hsome Bool.false_ne_true⟩
  · obtain ⟨rfl, hallowed⟩ := checkAddress_fromNetwork hnetwork hadmitted.address
    refine ⟨?_, fun _ => hallowed⟩
    have hlog := limitAccess_logged hlimit
    cases passed with
    | false =>
        obtain ⟨-, rfl⟩ := Prod.mk.inj hout
        exact ⟨rfl, .inl rfl, hlog⟩
    | true =>
        obtain ⟨-, rfl⟩ := Prod.mk.inj hout
        have hprocess := @processRequest_harmless _ _ env.backend (rxMessage msg.data env.memory)
          seed { s with clientLog := log } (env.backend.schGetLastEventTime s.daemon).1
          msg.data.length
        exact ⟨hprocess.table, hprocess.daemon, hlog.trans hprocess.log⟩

/-! ### Runs -/

/-- A message with its conditions. -/
structure Event (δ ρ : Type) where
  env : Conditions δ ρ
  msg : Message

/-- The state of the daemon and the replies which it sent. -/
structure Served (δ ρ : Type) where
  state : State δ
  sent : List (Address × ReplyMessage ρ)

/-- The processing of a message. -/
def Served.step (seed : BitVec 32) (w : Served δ ρ) (e : Event δ ρ) :
    Except LogAbort (Served δ ρ) := do
  let r ← readFromCmdSocket seed e.env e.msg w.state
  pure { state := r.2,
         sent := w.sent ++ (r.1.map fun reply => (e.msg.remoteAddr, reply)).toList }

/-- The bytes which were sent to an address. -/
def bytesTo (addr : Address) (sent : List (Address × ReplyMessage ρ)) : ℕ :=
  (sent.map fun r => if r.1 = addr then r.2.length else 0).sum

/-- The bytes which were received from an address. -/
def bytesFrom (addr : Address) (events : List (Event δ ρ)) : ℕ :=
  (events.map fun e => if e.msg.remoteAddr = addr then e.msg.data.length else 0).sum

theorem bytesTo_append (addr : Address) (sent sent' : List (Address × ReplyMessage ρ)) :
    bytesTo addr (sent ++ sent') = bytesTo addr sent + bytesTo addr sent' := by
  rw [bytesTo, List.map_append, List.sum_append]
  rfl

/-- A reply is not longer than the message. -/
theorem bytesTo_reply_le {env : Conditions δ ρ} {msg : Message} {s s' : State δ}
    {out : Option (ReplyMessage ρ)} (h : readFromCmdSocket seed env msg s = .ok (out, s'))
    (addr : Address) :
    bytesTo addr (out.map fun reply => (msg.remoteAddr, reply)).toList ≤
      bytesFrom addr [⟨env, msg⟩] := by
  have hfrom : bytesFrom addr [⟨env, msg⟩] =
      if msg.remoteAddr = addr then msg.data.length else 0 := Nat.add_zero _
  rw [hfrom]
  cases out with
  | none => exact Nat.zero_le _
  | some r =>
      have hle := ((isSome_iff_accepted h).2 r rfl).length_le
      change (if msg.remoteAddr = addr then r.length else 0) + 0 ≤ _
      split
      · exact hle
      · exact Nat.le_refl 0

/-- What holds after requests from the network. -/
structure Quiet (seed : BitVec 32) (events : List (Event δ ρ)) (w w' : Served δ ρ) : Prop where
  /-- The access control of commands is not changed. -/
  table : w'.state.accessAuthTable = w.state.accessAuthTable
  /-- The other modules are not changed, except by the reports of the local reference and of the
  authentication. -/
  daemon : Relation.ReflTransGen (fun d d' => ∃ e ∈ events, Kept e.env.backend d d')
    w.state.daemon w'.state.daemon
  /-- The client log is changed only by its own functions. -/
  log : Logged seed w.state.clientLog w'.state.clientLog
  /-- Only allowed hosts have replies. -/
  replies : ∃ replies, w'.sent = w.sent ++ replies ∧
    (∀ r ∈ replies, hostAllowed w.state.accessAuthTable r.1) ∧
    ∀ addr, bytesTo addr replies ≤ bytesFrom addr events

theorem Quiet.refl (w : Served δ ρ) : Quiet seed [] w w :=
  ⟨rfl, .refl, .refl _, [], (List.append_nil _).symm, fun r hr => absurd hr (by simp),
    fun addr => Nat.le_refl _⟩

theorem Quiet.trans {events events' : List (Event δ ρ)} {w w' w'' : Served δ ρ}
    (h : Quiet seed events w w') (h' : Quiet seed events' w' w'') :
    Quiet seed (events ++ events') w w'' := by
  obtain ⟨replies, hsent, hallowed, hbytes⟩ := h.replies
  obtain ⟨replies', hsent', hallowed', hbytes'⟩ := h'.replies
  refine ⟨h'.table.trans h.table, ?_, h.log.trans h'.log, replies ++ replies', ?_, ?_, ?_⟩
  · refine .trans (Relation.ReflTransGen.mono ?_ _ _ h.daemon)
      (Relation.ReflTransGen.mono ?_ _ _ h'.daemon)
    · rintro d d' ⟨e, he, hkept⟩
      exact ⟨e, List.mem_append_left _ he, hkept⟩
    · rintro d d' ⟨e, he, hkept⟩
      exact ⟨e, List.mem_append_right _ he, hkept⟩
  · rw [hsent', hsent, List.append_assoc]
  · rintro r hr
    rcases List.mem_append.mp hr with hr | hr
    · exact hallowed r hr
    · rw [← h.table]
      exact hallowed' r hr
  · rintro addr
    have hsum : bytesFrom addr (events ++ events') =
        bytesFrom addr events + bytesFrom addr events' := by
      rw [bytesFrom, List.map_append, List.sum_append]
      rfl
    rw [bytesTo_append, hsum]
    exact Nat.add_le_add (hbytes addr) (hbytes' addr)

theorem Served.step_quiet {w w' : Served δ ρ} {e : Event δ ρ} (hnetwork : e.msg.fromNetwork)
    (h : w.step seed e = .ok w') : Quiet seed [e] w w' := by
  obtain ⟨⟨out, s'⟩, hread, h⟩ := Lib.bind_eq_ok_iff.mp h
  obtain rfl := Except.ok.inj h
  obtain ⟨hharmless, hallowed⟩ := readFromCmdSocket_harmless hnetwork hread
  refine ⟨hharmless.table, .single ⟨e, List.mem_singleton_self e, hharmless.daemon⟩,
    hharmless.log, _, rfl, ?_, bytesTo_reply_le hread⟩
  rintro r hr
  cases out with
  | none => exact absurd hr (by simp)
  | some reply =>
      obtain rfl := List.mem_singleton.mp hr
      exact hallowed rfl

/-- **Requests from the network**, in any order and number: they do not change the access control
or anything else in the daemon but the reported local reference and the client log. Replies are
sent only to allowed hosts, and no address gets more data than it sent. -/
theorem network_run {events : List (Event δ ρ)} {w w' : Served δ ρ}
    (hnetwork : ∀ e ∈ events, e.msg.fromNetwork)
    (h : events.foldlM (Served.step seed) w = .ok w') : Quiet seed events w w' := by
  induction events generalizing w with
  | nil =>
      obtain rfl := Except.ok.inj h
      exact .refl w
  | cons e events ih =>
      rw [List.foldlM_cons, Lib.bind_eq_ok_iff] at h
      obtain ⟨w₁, hstep, h⟩ := h
      exact (w.step_quiet (hnetwork e (List.mem_cons_self ..)) hstep).trans
        (ih (fun e' he' => hnetwork e' (List.mem_cons_of_mem e he')) h)

/-- A daemon which allows commands from one network. -/
def networkState : State Unit where
  __ := sampleState
  accessAuthTable := (AddrFilt.allow AddrFilt.createTable (.inet4 0x0a000000) 8).2

/-- The same request from another host. -/
def hostMessage (host : BitVec 32) : Message :=
  { sampleMessage with remoteAddr := .ip (.inet4 host) 323 }

set_option maxRecDepth 8000 in
theorem network_run_sample :
    let events : List (Event Unit Unit) := [sampleMessage, hostMessage 0x0a010203,
      hostMessage 0xc0a80001, sampleMessage].map fun msg => ⟨sampleConditions, msg⟩
    ∃ w', events.foldlM (Served.step 0) ⟨networkState, []⟩ = .ok w' ∧
      w'.sent.map Prod.fst = [.ip (.inet4 0x7f000001) 323, .ip (.inet4 0x0a010203) 323,
        .ip (.inet4 0x7f000001) 323] ∧ Quiet 0 events ⟨networkState, []⟩ w' :=
  ⟨_, rfl, rfl, network_run (by decide) rfl⟩

end Chrony.Candm
