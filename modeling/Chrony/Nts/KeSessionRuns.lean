import Chrony.Nts.KeSessionEvents

/-!
# Runs of NTS-KE Sessions

What holds in every state of the clients, the server and their sessions, for any order of events,
timeouts, starts and destructions. A client which has a session is not freed, an NTP source has a
client of its own, and the sessions in the array of the server are different (`Linked`). Thus
nothing is used after it was freed.

## Main results

* `step_returns`: the invariant of all instances is kept by each event.
* `sessions_run`: the properties of the sessions in every state.
-/

namespace Chrony.Nts.Nksn

open Lib Bytes Lib.Program

/-! ### Invariant -/

/-- The descriptors of sessions. -/
def sockFds (sessions : ℕ → Option Instance) : ℕ → Option ℕ :=
  (fun inst => inst.bind Instance.sockFd) ∘ sessions

/-- The timeouts of sessions. -/
def timeoutIds (sessions : ℕ → Option Instance) : ℕ → ℕ :=
  (fun inst => inst.elim 0 Instance.timeoutId) ∘ sessions

/-- Whether the sessions which exist are in the server mode. -/
def modes (sessions : ℕ → Option Instance) : ℕ → Option Bool :=
  Option.map Instance.server ∘ sessions

/-- **What holds for the sessions**, when a descriptor might be open without a session. -/
structure Core (w : World) (extra : Option ℕ) : Prop where
  resources : Resources w.env (sockFds w.sessions) (timeoutIds w.sessions) extra
  valid : ∀ i inst, w.sessions i = some inst → inst.Valid
  allocated : ∀ i, w.allocated ≤ i → w.sessions i = none
  clients : ∀ i, modes w.sessions i = some false →
    (w.clients i).map NkcInstance.destroying = some false

/-- **The references to sessions** from the NTP sources and from the array of the server. -/
structure Linked (mode : ℕ → Option Bool) (nke : ℕ → Option ℕ) (nks : Option Nks) : Prop where
  client : ∀ n i, nke n = some i → mode i = some false
  client_inj : ∀ n n' i, nke n = some i → nke n' = some i → n = n'
  server : ∀ s, nks = some s → ∀ i ∈ s.sessions.filterMap id, mode i = some true
  nodup : ∀ s, nks = some s → (s.sessions.filterMap id).Nodup
  credentials : ∀ s, nks = some s → s.helpers = false → s.credentials = true

/-- **The invariant of all instances.** -/
structure Invariant (w : World) : Prop where
  core : Core w none
  linked : Linked (modes w.sessions) w.nke w.nks

theorem modes_apply {sessions : ℕ → Option Instance} {i : ℕ} {inst : Instance}
    (hi : sessions i = some inst) : modes sessions i = some inst.server := by
  rw [modes, Function.comp_apply, hi, Option.map_some]

theorem modes_update (sessions : ℕ → Option Instance) (i : ℕ) (inst : Option Instance) :
    modes (Function.update sessions i inst) =
      Function.update (modes sessions) i (inst.map Instance.server) :=
  Function.comp_update _ _ _ _

/-- The mode of a session is not changed. -/
theorem modes_update_of_server_eq {sessions : ℕ → Option Instance} {i : ℕ}
    {inst inst' : Instance} (hi : sessions i = some inst) (hserver : inst'.server = inst.server) :
    modes (Function.update sessions i (some inst')) = modes sessions := by
  rw [modes_update, Option.map_some, hserver, ← modes_apply hi, Function.update_eq_self]

namespace Core

variable {w : World} {extra extra' : Option ℕ} {i : ℕ} {inst inst' : Instance} {env : KeEnv}

/-- The resources of one session. -/
theorem held (h : Core w extra) (hi : w.sessions i = some inst) :
    Held (sockFds w.sessions) (timeoutIds w.sessions) i extra inst w.env := by
  have hfd : inst.sockFd = sockFds w.sessions i := by
    rw [sockFds, Function.comp_apply, hi, Option.bind_some]
  have hid : inst.timeoutId = timeoutIds w.sessions i := by
    rw [timeoutIds, Function.comp_apply, hi, Option.elim_some]
  rw [Held, hfd, hid, Function.update_eq_self, Function.update_eq_self]
  exact h.resources

/-- **A session is changed**, with its resources. -/
theorem setSession (h : Core w extra) (hi : w.sessions i = some inst)
    (hserver : inst'.server = inst.server) (hvalid : inst'.Valid)
    (hheld : Held (sockFds w.sessions) (timeoutIds w.sessions) i extra' inst' env) :
    Core { w with env, sessions := Function.update w.sessions i (some inst') } extra' where
  resources := by
    dsimp only
    rw [sockFds, timeoutIds, Function.comp_update, Function.comp_update]
    exact hheld
  valid := by
    dsimp only
    rw [Function.forall_update_iff w.sessions fun _ s => ∀ inst'', s = some inst'' → inst''.Valid]
    exact ⟨fun inst'' heq => Option.some.inj heq ▸ hvalid, fun j _ => h.valid j⟩
  allocated j hj := by
    dsimp only
    rw [Function.update_of_ne, h.allocated j hj]
    rintro rfl
    cases hi.symm.trans (h.allocated j hj)
  clients := by
    dsimp only
    rw [modes_update_of_server_eq hi hserver]
    exact h.clients

/-- **A stopped session is freed.** -/
theorem freeSession (h : Core w extra) (hi : w.sessions i = some inst)
    (hstate : inst.state = .stopped) :
    Core { w with sessions := Function.update w.sessions i none } extra where
  resources := by
    have hreleased := (h.valid i inst hi).released hstate
    have hheld := h.held hi
    rw [Held, hreleased.sockFd, hreleased.timeoutId] at hheld
    dsimp only
    rw [sockFds, timeoutIds, Function.comp_update, Function.comp_update]
    exact hheld
  valid := by
    dsimp only
    rw [Function.forall_update_iff w.sessions fun _ s => ∀ inst'', s = some inst'' → inst''.Valid]
    refine ⟨fun inst'' hnone => ?_, fun j _ => h.valid j⟩
    cases hnone
  allocated j hj := by
    dsimp only
    by_cases hji : j = i
    · subst hji
      rw [Function.update_self]
    · rw [Function.update_of_ne hji, h.allocated j hj]
  clients := by
    dsimp only
    rw [modes_update, Function.forall_update_iff (modes w.sessions)
      fun j s => s = some false → (w.clients j).map NkcInstance.destroying = some false]
    exact ⟨nofun, fun j _ => h.clients j⟩

/-- A client is changed, or freed when it has no session anymore. -/
theorem setClient (h : Core w extra) {nkc : Option NkcInstance}
    (hnkc : modes w.sessions i = some false → nkc.map NkcInstance.destroying = some false) :
    Core { w with clients := Function.update w.clients i nkc } extra where
  resources := h.resources
  valid := h.valid
  allocated := h.allocated
  clients := by
    dsimp only
    rw [Function.forall_update_iff w.clients fun j c => modes w.sessions j = some false →
      c.map NkcInstance.destroying = some false]
    exact ⟨hnkc, fun j _ => h.clients j⟩

/-- **A new session** has no resources. -/
theorem addSession (h : Core w extra) (server : Bool) (hclient : server = false →
      (w.clients w.allocated).map NkcInstance.destroying = some false) :
    Core (w.addSession server) extra where
  resources := by
    have hnone := h.allocated w.allocated le_rfl
    have hfd : sockFds w.sessions w.allocated = none := by
      rw [sockFds, Function.comp_apply, hnone, Option.bind_none]
    have hid : timeoutIds w.sessions w.allocated = 0 := by
      rw [timeoutIds, Function.comp_apply, hnone, Option.elim_none]
    have hres := h.resources
    rw [← Function.update_eq_self w.allocated (sockFds w.sessions), hfd,
      ← Function.update_eq_self w.allocated (timeoutIds w.sessions), hid] at hres
    rw [World.addSession]
    dsimp only
    rw [sockFds, timeoutIds, Function.comp_update, Function.comp_update]
    exact hres
  valid := by
    rw [World.addSession]
    dsimp only
    rw [Function.forall_update_iff w.sessions fun _ s => ∀ inst'', s = some inst'' → inst''.Valid]
    refine ⟨fun inst'' heq => ?_, fun j _ => h.valid j⟩
    obtain rfl := Option.some.inj heq
    exact ⟨.inl ⟨rfl, rfl, rfl, rfl, rfl⟩, fun hne => absurd rfl hne, nofun, Nat.zero_le _, nofun⟩
  allocated j hj := by
    rw [World.addSession] at hj ⊢
    dsimp only at hj ⊢
    rw [Function.update_of_ne (by omega), h.allocated j (by omega)]
  clients := by
    rw [World.addSession]
    dsimp only
    rw [modes_update, Function.forall_update_iff (modes w.sessions)
      fun j s => s = some false → (w.clients j).map NkcInstance.destroying = some false]
    exact ⟨fun heq => hclient (Option.some.inj heq), fun j _ => h.clients j⟩

end Core

namespace Linked

variable {mode : ℕ → Option Bool} {nke : ℕ → Option ℕ} {nks : Option Nks} {n i : ℕ}

/-- A session without references is changed. -/
theorem setMode (h : Linked mode nke nks) (server : Option Bool) (hclient : ∀ n, nke n ≠ some i)
    (hserver : ∀ s, nks = some s → i ∉ s.sessions.filterMap id) :
    Linked (Function.update mode i server) nke nks where
  client n j hn := by
    rw [Function.update_of_ne, h.client n j hn]
    rintro rfl
    exact hclient n hn
  client_inj := h.client_inj
  server s hs j hj := by
    rw [Function.update_of_ne, h.server s hs j hj]
    rintro rfl
    exact hserver s hs hj
  nodup := h.nodup
  credentials := h.credentials

/-- A session which does not exist has no references. -/
theorem addMode (h : Linked mode nke nks) (server : Option Bool) (hi : mode i = none) :
    Linked (Function.update mode i server) nke nks := by
  refine h.setMode server (fun n hn => ?_) fun s hs hmem => ?_
  · cases hi.symm.trans (h.client n i hn)
  · cases hi.symm.trans (h.server s hs i hmem)

/-- The client of an NTP source is not used anymore. -/
theorem dropClient (h : Linked mode nke nks) (n : ℕ) :
    Linked mode (Function.update nke n none) nks where
  client n' j hn' := by
    by_cases heq : n' = n
    · rw [heq, Function.update_self] at hn'
      cases hn'
    · rw [Function.update_of_ne heq] at hn'
      exact h.client n' j hn'
  client_inj n₁ n₂ j h₁ h₂ := by
    by_cases heq₁ : n₁ = n
    · rw [heq₁, Function.update_self] at h₁
      cases h₁
    · by_cases heq₂ : n₂ = n
      · rw [heq₂, Function.update_self] at h₂
        cases h₂
      · rw [Function.update_of_ne heq₁] at h₁
        rw [Function.update_of_ne heq₂] at h₂
        exact h.client_inj n₁ n₂ j h₁ h₂
  server := h.server
  nodup := h.nodup
  credentials := h.credentials

/-- **The client of an NTP source is destroyed.** -/
theorem removeClient (h : Linked mode nke nks) (hn : nke n = some i) :
    Linked (Function.update mode i none) (Function.update nke n none) nks := by
  refine (h.dropClient n).setMode none (fun n' hn' => ?_) fun s hs hmem => ?_
  · by_cases heq : n' = n
    · rw [heq, Function.update_self] at hn'
      cases hn'
    · rw [Function.update_of_ne heq] at hn'
      exact heq (h.client_inj n' n i hn' hn)
  · cases (h.client n i hn).symm.trans (h.server s hs i hmem)

/-- **An NTP source gets a new client.** -/
theorem addClient (h : Linked mode nke nks) (hi : mode i = none) (n : ℕ) :
    Linked (Function.update mode i (some false)) (Function.update nke n (some i)) nks where
  client n' j hn' := by
    by_cases heq : n' = n
    · rw [heq, Function.update_self] at hn'
      obtain rfl := Option.some.inj hn'
      exact Function.update_self _ _ _
    · rw [Function.update_of_ne heq] at hn'
      exact (h.addMode (some false) hi).client n' j hn'
  client_inj n₁ n₂ j h₁ h₂ := by
    have hother : ∀ n', nke n' ≠ some i := fun n' hn' => by cases hi.symm.trans (h.client n' i hn')
    by_cases heq₁ : n₁ = n
    · by_cases heq₂ : n₂ = n
      · exact heq₁.trans heq₂.symm
      · rw [heq₁, Function.update_self] at h₁
        rw [Function.update_of_ne heq₂, ← h₁] at h₂
        exact absurd h₂ (hother n₂)
    · rw [Function.update_of_ne heq₁] at h₁
      by_cases heq₂ : n₂ = n
      · rw [heq₂, Function.update_self] at h₂
        rw [← h₂] at h₁
        exact absurd h₁ (hother n₁)
      · rw [Function.update_of_ne heq₂] at h₂
        exact h.client_inj n₁ n₂ j h₁ h₂
  server := (h.addMode (some false) hi).server
  nodup := h.nodup
  credentials := h.credentials

/-- There is no server anymore. -/
theorem dropServer (h : Linked mode nke nks) : Linked mode nke none where
  client := h.client
  client_inj := h.client_inj
  server _ hs := by cases hs
  nodup _ hs := by cases hs
  credentials _ hs := by cases hs

/-- **The server gets a new session** in an empty element of its array. -/
theorem addServer {s : Nks} (h : Linked mode nke (some s)) (hi : mode i = none) {k : ℕ}
    (hk : s.sessions[k]? = some none) :
    Linked (Function.update mode i (some true)) nke
      (some { s with sessions := s.sessions.set k (some i) }) := by
  obtain ⟨hlt, hget⟩ := List.getElem?_eq_some_iff.mp hk
  have hsplit : ∃ l₁ l₂, s.sessions = l₁ ++ s.sessions[k] :: l₂ ∧ l₁.length = k ∧
      s.sessions.set k (some i) = l₁ ++ some i :: l₂ := List.exists_of_set hlt
  obtain ⟨l₁, l₂, heq, -, hset⟩ := hsplit
  have hmem := h.server s rfl
  have hnodup := h.nodup s rfl
  rw [heq, hget, List.filterMap_append, List.filterMap_cons_none rfl] at hmem hnodup
  have hsessions : (s.sessions.set k (some i)).filterMap id =
      l₁.filterMap id ++ i :: l₂.filterMap id := by
    rw [hset, List.filterMap_append]
    rfl
  have hfresh : i ∉ l₁.filterMap id ++ l₂.filterMap id := fun hi' => by
    cases hi.symm.trans (hmem i hi')
  have hclient := h.dropServer.addMode (some true) hi
  refine ⟨hclient.client, h.client_inj, ?_, ?_, ?_⟩
  · rintro _ ⟨⟩ j hj
    rw [hsessions, List.mem_append, List.mem_cons, or_left_comm, ← List.mem_append] at hj
    rcases hj with rfl | hj
    · exact Function.update_self _ _ _
    · rw [Function.update_of_ne, hmem j hj]
      rintro rfl
      exact hfresh hj
  · rintro _ ⟨⟩
    rw [hsessions, List.nodup_middle]
    exact List.nodup_cons.mpr ⟨hfresh, hnodup⟩
  · rintro _ ⟨⟩
    exact h.credentials s rfl

end Linked

/-! ### Operations -/

/-- **A program over a session**, which keeps what holds for the session. -/
theorem onSession_returns {α : Type} {w : World} {i : ℕ} {inst : Instance}
    (hi : w.sessions i = some inst) {m : Instance → Ke (Instance × α)}
    {Q : Instance × α → KeEnv → Prop} (hm : Ends Allowed (m inst) w.env Q) :
    Returns Allowed (w.onSession i m) fun r => ∃ inst' env',
      r.1 = { w with env := env', sessions := Function.update w.sessions i (some inst') } ∧
        Q (inst', r.2) env' := by
  rw [World.onSession, hi]
  exact Returns.bind hm fun r hr => ⟨r.1.1, r.2, rfl, hr⟩

/-- What an event of one session does not change. -/
structure SameLinks (w w' : World) : Prop where
  modes : modes w'.sessions = modes w.sessions
  clients : w'.clients = w.clients
  nke : w'.nke = w.nke
  nks : w'.nks = w.nks

/-- **An event of one session.** -/
theorem onSession_kept {α : Type} {w : World} {extra : Option ℕ} (h : Core w extra) {i : ℕ}
    {inst : Instance} (hi : w.sessions i = some inst) {m : Instance → Ke (Instance × α)}
    {Q : α → Prop} (hm : Ends Allowed (m inst) w.env fun r env' =>
      Kept (sockFds w.sessions) (timeoutIds w.sessions) i inst r.1 env' ∧ Q r.2) :
    Returns Allowed (w.onSession i m) fun r => Core r.1 none ∧ SameLinks w r.1 ∧ Q r.2 := by
  refine (onSession_returns hi hm).mono ?_
  rintro ⟨w', a⟩ ⟨inst', env, hw, hkept, ha⟩
  dsimp only at hw hkept ha
  obtain rfl := hw
  exact ⟨h.setSession hi hkept.server hkept.valid hkept.held,
    ⟨modes_update_of_server_eq hi hkept.server, rfl, rfl, rfl⟩, ha⟩

/-- **A session is destroyed.** -/
theorem destroySession_returns {w : World} (h : Core w none) {i : ℕ} {inst : Instance}
    (hi : w.sessions i = some inst) :
    Returns Allowed (w.destroySession i) fun w' => Core w' none ∧
      ∃ env, w' = { w with env, sessions := Function.update w.sessions i none } := by
  have hvalid := h.valid i inst hi
  have hstop := Instance.stopSession_ends (h.held hi) hvalid.released
    fun hstate => (hvalid.acquired hstate).sockFd
  rw [World.destroySession]
  refine (onSession_returns hi (m := fun inst => (·, ()) <$> inst.stopSession)
    (Q := fun r env' => r.1 = inst.stopped ∧
      Held (sockFds w.sessions) (timeoutIds w.sessions) i none r.1 env') hstop.map).bind ?_
  rintro ⟨w', u⟩ ⟨inst', env, hw, rfl, hheld⟩
  dsimp only at hw hheld
  obtain rfl := hw
  have hserver : inst.stopped.server = inst.server := rfl
  have hcore := h.setSession hi hserver (Instance.stopped_valid hvalid.bounded hvalid.handled) hheld
  have hfree := hcore.freeSession (Function.update_self _ _ _) rfl
  dsimp only at hfree
  rw [Function.update_idem] at hfree
  refine ⟨?_, env, ?_⟩
  · dsimp only
    rw [Function.update_idem]
    exact hfree
  · dsimp only
    rw [Function.update_idem]

/-- **A client is destroyed**, and maybe freed later. -/
theorem nkcDestroyInstance_returns {w : World} (h : Core w none) {i : ℕ}
    (hi : modes w.sessions i = some false) :
    Returns Allowed (w.nkcDestroyInstance i) fun w' => Core w' none ∧
      modes w'.sessions = Function.update (modes w.sessions) i none ∧ w'.nke = w.nke ∧
        w'.nks = w.nks := by
  obtain ⟨nkc, hnkc, -⟩ := Option.map_eq_some_iff.mp (h.clients i hi)
  obtain ⟨inst, hinst, -⟩ := Option.map_eq_some_iff.mp hi
  rw [World.nkcDestroyInstance, hnkc]
  refine (destroySession_returns h hinst).bind ?_
  rintro w' ⟨hcore, env, rfl⟩
  have hmodes := modes_update w.sessions i none
  rw [Option.map_none] at hmodes
  refine ⟨hcore.setClient ?_, hmodes, rfl, rfl⟩
  dsimp only
  rw [hmodes, Function.update_self]
  exact nofun

/-- The client of an NTP source is destroyed. -/
theorem destroyClient_returns {w : World} (h : Invariant w) {n i : ℕ} (hn : w.nke n = some i) :
    Returns Allowed (do
      let w ← w.nkcDestroyInstance i
      .ok { w with nke := Function.update w.nke n none }) Invariant := by
  refine (nkcDestroyInstance_returns h.core (h.linked.client n i hn)).bind ?_
  rintro w' ⟨hcore, hmodes, hnke, hnks⟩
  refine ⟨⟨hcore.resources, hcore.valid, hcore.allocated, hcore.clients⟩, ?_⟩
  dsimp only
  rw [hmodes, hnke, hnks]
  exact h.linked.removeClient hn

theorem resetInstance_returns {w : World} (h : Invariant w) (n : ℕ) :
    Returns Allowed (w.resetInstance n) Invariant := by
  rw [World.resetInstance]
  cases hn : w.nke n with
  | none => exact h
  | some i => exact destroyClient_returns h hn

/-- The client of an NTP source is destroyed if it is not active. -/
theorem destroyInactive_returns {w : World} (h : Invariant w) {n i : ℕ} (hn : w.nke n = some i) :
    Returns Allowed (w.destroyInactive n i) Invariant := by
  have hmode := h.linked.client n i hn
  obtain ⟨nkc, hnkc, -⟩ := Option.map_eq_some_iff.mp (h.core.clients i hmode)
  obtain ⟨inst, hinst, -⟩ := Option.map_eq_some_iff.mp hmode
  have hactive : ∃ active, w.isActive i = .ok active := by
    rw [World.isActive, hinst, hnkc]
    exact ⟨_, rfl⟩
  obtain ⟨active, hactive⟩ := hactive
  rw [World.destroyInactive, hactive]
  cases active with
  | true => exact h
  | false => exact destroyClient_returns h hn

/-- **A client is started**, which was not started before. -/
theorem start_returns {w : World} (h : Invariant w) (config : ClientConfig) {i : ℕ}
    {inst : Instance} (hi : w.sessions i = some inst) (hserver : inst.server = false)
    (hstate : inst.state = .stopped) {nkc : NkcInstance} (hnkc : w.clients i = some nkc)
    (hresolving : nkc.resolvingName = false) (answers : StartAnswers) :
    Returns Allowed (w.start config i answers) fun w' => Invariant w' ∧ w'.nke = w.nke := by
  rw [World.start, hnkc]
  refine (onSession_kept (Q := fun nkc' => nkc'.destroying = nkc.destroying) h.core hi
    (nkcStart_ends config answers nkc (h.core.held hi) (h.core.valid i inst hi) hserver
      ⟨hstate, hresolving⟩)).bind ?_
  rintro ⟨w', nkc'⟩ ⟨hcore, hsame, hdestroying⟩
  dsimp only at hcore hsame hdestroying
  have hclient := h.core.clients i (modes_apply hi ▸ congrArg some hserver)
  refine ⟨⟨hcore.setClient fun _ => ?_, ?_⟩, hsame.nke⟩
  · rw [Option.map_some, hdestroying, ← Option.map_some, ← hnkc, hclient]
  · dsimp only
    rw [hsame.modes, hsame.nke, hsame.nks]
    exact h.linked

theorem getCookies_returns {w : World} (h : Invariant w) (config : ClientConfig) (n : ℕ)
    (attempt credentials : Bool) (answers : StartAnswers) :
    Returns Allowed (w.getCookies config n attempt credentials answers) Invariant := by
  rw [World.getCookies]
  cases hn : w.nke n with
  | none =>
      dsimp only
      split
      · exact h
      · have hnone : modes w.sessions w.allocated = none := by
          rw [modes, Function.comp_apply, h.core.allocated _ le_rfl, Option.map_none]
        have hcore : Core { w with
            clients := Function.update w.clients w.allocated
              (some ⟨credentials, false, false, false⟩) } none := h.core.setClient fun _ => rfl
        have hcore := hcore.addSession false fun _ => by
          dsimp only
          rw [Function.update_self]
          rfl
        have hlinked := h.linked.addClient hnone n
        have hmodes : modes (Function.update w.sessions w.allocated
            (some (createInstance false))) = Function.update (modes w.sessions) w.allocated
            (some false) := modes_update _ _ _
        have hinst : Function.update w.sessions w.allocated (some (createInstance false))
          w.allocated = some (createInstance false) := Function.update_self _ _ _
        rw [← hmodes] at hlinked
        have hinv : Invariant { w.nkcCreateInstance credentials with
            nke := Function.update w.nke n (some w.allocated) } :=
          ⟨⟨hcore.resources, hcore.valid, hcore.allocated, hcore.clients⟩, hlinked⟩
        refine (start_returns hinv config hinst rfl rfl (Function.update_self _ _ _) rfl
          answers).bind ?_
        rintro w' ⟨hinv', hnke⟩
        refine destroyInactive_returns hinv' ?_
        rw [hnke]
        exact Function.update_self _ _ _
  | some i => exact destroyInactive_returns h hn

theorem nameResolveHandler_invariant {w : World} (h : Invariant w) (i : ℕ) (success : Bool) :
    Invariant (w.nameResolveHandler i success) := by
  rw [World.nameResolveHandler]
  cases hnkc : w.clients i with
  | none => exact h
  | some nkc =>
      dsimp only
      split
      · exact h
      · refine ⟨h.core.setClient fun hmode => ?_, h.linked⟩
        have hdestroying : nkc.destroying = false := by
          have hclient := h.core.clients i hmode
          rw [hnkc] at hclient
          exact Option.some.inj hclient
        rw [hdestroying, if_neg Bool.false_ne_true, Option.map_some]

/-! ### Server -/

/-- **The element of the array** which is found has no session, or a stopped one. -/
theorem findSlot_returns {w : World} {slots : List (Option ℕ)}
    (h : ∀ i ∈ slots.filterMap id, ∃ inst, w.sessions i = some inst) (k : ℕ) :
    Returns Allowed (w.findSlot k slots) fun r => ∀ j slot, r = some (j, slot) →
      (∃ m, j = k + m ∧ slots[m]? = some slot) ∧
        ∀ i, slot = some i → ∃ inst, w.sessions i = some inst ∧ inst.state = .stopped := by
  induction slots generalizing k with
  | nil => rintro j slot ⟨⟩
  | cons slot slots ih =>
      cases slot with
      | none =>
          rintro j slot ⟨⟩
          exact ⟨⟨0, rfl, rfl⟩, nofun⟩
      | some i =>
          obtain ⟨inst, hinst⟩ := h i List.mem_cons_self
          have hrest := ih (fun i' hi' => h i' (List.mem_cons_of_mem _ hi')) (k + 1)
          rw [World.findSlot, hinst]
          dsimp only
          split
          next hstate =>
              rintro j slot ⟨⟩
              refine ⟨⟨0, rfl, rfl⟩, fun i' hi' => ⟨inst, ?_, hstate⟩⟩
              obtain rfl := Option.some.inj hi'
              exact hinst
          · refine hrest.mono fun r hr j slot hj => ?_
            obtain ⟨⟨m, rfl, hm⟩, hstopped⟩ := hr j slot hj
            exact ⟨⟨m + 1, by omega, hm⟩, hstopped⟩

/-- **A session of the server is started** with a new descriptor. -/
theorem startServer_returns {w : World} {fd : ℕ} (h : Core w (some fd))
    (hlinked : Linked (modes w.sessions) w.nke w.nks) {i : ℕ} {inst : Instance}
    (hi : w.sessions i = some inst) (hserver : inst.server = true)
    (hstate : inst.state = .stopped) (answers : StartAnswers) :
    Returns Allowed (w.onSession i (Instance.startSession i fd answers.label answers.created
      answers.now serverTimeout)) fun r =>
        Core r.1 (if r.2 then none else some fd) ∧
          Linked (modes r.1.sessions) r.1.nke r.1.nks := by
  have hvalid := h.valid i inst hi
  refine (onSession_returns (Q := fun r env' => r.1.server = inst.server ∧ r.1.Valid ∧
    Held (sockFds w.sessions) (timeoutIds w.sessions) i (if r.2 then none else some fd) r.1 env')
    hi ?_).mono ?_
  · refine (Instance.startSession_ends (h.held hi) hvalid hstate answers.label answers.created
      answers.now (show 0 ≤ serverTimeout by decide)).mono ?_
    rintro ⟨inst', started⟩ env' ⟨hfailed, hstarted⟩
    cases started with
    | false =>
        obtain ⟨heq, hheld⟩ := hfailed rfl
        dsimp only at heq
        obtain rfl := heq
        exact ⟨rfl, hvalid, hheld⟩
    | true =>
        have hkept := (hstarted rfl).kept hserver
        exact ⟨hkept.server, hkept.valid, hkept.held⟩
  · rintro ⟨w', started⟩ ⟨inst', env', hw, hserver', hvalid', hheld⟩
    dsimp only at hw hserver' hvalid' hheld
    obtain rfl := hw
    refine ⟨h.setSession hi hserver' hvalid' hheld, ?_⟩
    dsimp only
    rw [modes_update_of_server_eq hi hserver']
    exact hlinked

theorem handleClient_returns {w : World} {fd : ℕ} (h : Core w (some fd)) {nks : Nks}
    (hlinked : Linked (modes w.sessions) w.nke (some nks)) (hnks : w.nks = some nks)
    (hhelpers : nks.helpers = false) (answers : StartAnswers) :
    Returns Allowed (w.handleClient nks answers fd) fun r =>
      Core r.1 (if r.2 then none else some fd) ∧
        Linked (modes r.1.sessions) r.1.nke r.1.nks := by
  rw [World.handleClient]
  split
  · exact ⟨h, hnks ▸ hlinked⟩
  · have hsessions : ∀ i ∈ nks.sessions.filterMap id, ∃ inst, w.sessions i = some inst := by
      intro i hi
      obtain ⟨inst, hinst, -⟩ := Option.map_eq_some_iff.mp (hlinked.server nks rfl i hi)
      exact ⟨inst, hinst⟩
    refine (findSlot_returns hsessions 0).bind fun slot hslot => ?_
    cases slot with
    | none => exact ⟨h, hnks ▸ hlinked⟩
    | some r =>
        obtain ⟨k, slot⟩ := r
        obtain ⟨⟨m, hk, hm⟩, hstopped⟩ := hslot k slot rfl
        rw [Nat.zero_add] at hk
        obtain rfl := hk
        have hcredentials : ¬(!nks.credentials) = true := by
          rw [hlinked.credentials nks rfl hhelpers]
          exact Bool.false_ne_true
        dsimp only
        rw [if_neg hcredentials]
        cases slot with
        | none =>
            have hnone : modes w.sessions w.allocated = none := by
              rw [modes, Function.comp_apply, h.allocated _ le_rfl, Option.map_none]
            have hcore := h.addSession true nofun
            have hadd := hlinked.addServer hnone hm
            have hmodes : modes (Function.update w.sessions w.allocated
                (some (createInstance true))) = Function.update (modes w.sessions) w.allocated
                (some true) := modes_update _ _ _
            have hinst : Function.update w.sessions w.allocated (some (createInstance true))
              w.allocated = some (createInstance true) := Function.update_self _ _ _
            rw [← hmodes] at hadd
            have hcore : Core { w.addSession true with
                nks := some { nks with
                  sessions := nks.sessions.set k (some w.allocated) } } (some fd) :=
              ⟨hcore.resources, hcore.valid, hcore.allocated, hcore.clients⟩
            exact startServer_returns hcore hadd hinst rfl rfl answers
        | some i =>
            obtain ⟨inst, hinst, hstate⟩ := hstopped i rfl
            have hmode := hlinked.server nks rfl i
              (List.mem_filterMap.mpr ⟨some i, List.mem_of_getElem? hm, rfl⟩)
            rw [modes_apply hinst] at hmode
            rw [← hnks] at hlinked
            exact startServer_returns h hlinked hinst (Option.some.inj hmode) hstate answers

/-- A program over the environment, which changes the resources. -/
theorem onEnv_returns {α : Type} {w : World} {m : Ke α} {Q : α → KeEnv → Prop}
    (hm : Ends Allowed m w.env Q) :
    Returns Allowed (w.onEnv m) fun r => ∃ env, r.1 = { w with env } ∧ Q r.2 env :=
  Returns.bind hm fun r hr => ⟨r.2, rfl, hr⟩

/-- The environment is changed. -/
theorem Core.setEnv {w : World} {extra extra' : Option ℕ} (h : Core w extra) {env : KeEnv}
    (henv : Resources env (sockFds w.sessions) (timeoutIds w.sessions) extra') :
    Core { w with env } extra' :=
  ⟨henv, h.valid, h.allocated, h.clients⟩

theorem acceptConnection_returns {w : World} (h : Invariant w) (permitted : Bool)
    (answers : StartAnswers) :
    Returns Allowed (w.acceptConnection permitted answers) Invariant := by
  rw [World.acceptConnection]
  cases hnks : w.nks with
  | none => exact h
  | some nks =>
      refine (onEnv_returns (openSocket_ends h.core.resources answers.sockFd)).bind ?_
      rintro ⟨w₁, fd⟩ ⟨env, hw, hnone, hsome⟩
      dsimp only at hw hnone hsome
      obtain rfl := hw
      cases fd with
      | none =>
          obtain rfl := hnone rfl
          exact h
      | some fd =>
          have hcore := h.core.setEnv (hsome fd rfl)
          have hlinked := h.linked
          -- the descriptor is closed if it has no session
          have hfinish : ∀ r : World × Bool, Core r.1 (if r.2 then none else some fd) ∧
              Linked (modes r.1.sessions) r.1.nke r.1.nks →
              Returns Allowed (if r.2 then .ok r.1
                else r.1.onEnv (closeSocket (some fd)) >>= fun r => .ok r.1) Invariant := by
            rintro ⟨w₂, handled⟩ ⟨hcore₂, hlinked₂⟩
            cases handled with
            | true => exact ⟨hcore₂, hlinked₂⟩
            | false => exact ⟨hcore₂.setEnv hcore₂.resources.closeSocket, hlinked₂⟩
          dsimp only
          split
          · exact hfinish ({ w with env }, false) ⟨hcore, hlinked⟩
          next hhelpers =>
              rw [hnks] at hlinked
              have hhelpers : nks.helpers = false :=
                Bool.eq_false_iff.mpr fun htrue => hhelpers (.inr htrue)
              exact (handleClient_returns hcore hlinked hnks hhelpers answers).bind hfinish

/-- **The sessions of the server are destroyed.** -/
theorem destroySessions_returns {w : World} {l : List ℕ} (h : Core w none)
    (hlinked : Linked (modes w.sessions) w.nke none)
    (hl : ∀ i ∈ l, modes w.sessions i = some true) (hnodup : l.Nodup) :
    Returns Allowed (l.foldlM World.destroySession w) fun w' =>
      Core w' none ∧ Linked (modes w'.sessions) w'.nke none := by
  induction l generalizing w with
  | nil => exact ⟨h, hlinked⟩
  | cons i l ih =>
      obtain ⟨hi, hl⟩ := List.forall_mem_cons.mp hl
      obtain ⟨hnotMem, hnodup⟩ := List.nodup_cons.mp hnodup
      obtain ⟨inst, hinst, -⟩ := Option.map_eq_some_iff.mp hi
      rw [List.foldlM_cons]
      refine (destroySession_returns h hinst).bind ?_
      rintro w' ⟨hcore, env, rfl⟩
      have hmodes : modes (Function.update w.sessions i none) =
        Function.update (modes w.sessions) i none := modes_update _ _ _
      refine ih hcore ?_ ?_ hnodup
      · dsimp only
        rw [hmodes]
        refine hlinked.setMode none (fun n hn => ?_) nofun
        cases hi.symm.trans (hlinked.client n i hn)
      · dsimp only
        intro j hj
        rw [hmodes, Function.update_of_ne, hl j hj]
        rintro rfl
        exact hnotMem hj

theorem nksFinalise_returns {w : World} (h : Invariant w) :
    Returns Allowed w.nksFinalise Invariant := by
  rw [World.nksFinalise]
  cases hnks : w.nks with
  | none => exact h
  | some nks =>
      have hlinked := h.linked
      rw [hnks] at hlinked
      refine (destroySessions_returns h.core hlinked.dropServer (hlinked.server nks rfl)
        (hlinked.nodup nks rfl)).bind ?_
      rintro w' ⟨hcore, hlinked'⟩
      exact ⟨⟨hcore.resources, hcore.valid, hcore.allocated, hcore.clients⟩, hlinked'⟩

/-! ### Events -/

theorem removeTimeout_ends {env : KeEnv} {id : ℕ} {sched : Sched.State TimeoutHandler ℕ}
    (h : Sched.removeTimeout env.sched id = .ok sched) :
    Ends Allowed (removeTimeout id) env fun _ env' => env' = { env with sched } :=
  Returns.of_ok (removeTimeout_eq h) rfl

/-- **An event of a descriptor** is one of a session which is not stopped. -/
theorem fileEvent_returns {w : World} (h : Invariant w) (config : ClientConfig) (fd : ℕ)
    (event : FileEvent) (answers : EventAnswers) :
    Returns Allowed (w.fileEvent config fd event answers) Invariant := by
  rw [World.fileEvent]
  cases hptr : w.env.fileHandlers fd with
  | none => exact h
  | some ptr =>
      have hfd := (h.core.resources.handlers fd ptr.arg).mp ⟨ptr, hptr, rfl⟩
      obtain ⟨inst, hinst, hsock⟩ := Option.bind_eq_some_iff.mp hfd
      have hvalid := h.core.valid _ _ hinst
      have hstate : inst.state ≠ .stopped := fun hstopped => by
        cases hsock.symm.trans (hvalid.released hstopped).sockFd
      have hnkc : inst.server = false → w.clients ptr.arg ≠ none := fun hserver hnone => by
        have hclient := h.core.clients _ (modes_apply hinst ▸ congrArg some hserver)
        rw [hnone] at hclient
        cases hclient
      refine (onSession_kept (Q := fun nkc => nkc.map NkcInstance.destroying =
          (w.clients ptr.arg).map NkcInstance.destroying) h.core hinst
        (Instance.readWriteSocket_ends config answers event hnkc (h.core.held hinst) hvalid
          hstate)).bind ?_
      rintro ⟨w', nkc⟩ ⟨hcore, hsame, hdestroying⟩
      refine ⟨hcore.setClient fun hmode => ?_, ?_⟩
      · rw [hsame.modes] at hmode
        exact hdestroying.trans (h.core.clients _ hmode)
      · dsimp only
        rw [hsame.modes, hsame.nke, hsame.nks]
        exact h.linked

/-- **The first timeout** is one of a session which is not stopped, or is not one of a session. -/
theorem dispatchTimeout_returns {w : World} (h : Invariant w) (now : ℚ) :
    Returns Allowed (w.dispatchTimeout now) Invariant := by
  rw [World.dispatchTimeout]
  cases hqueue : w.env.sched.timerQueue with
  | nil => exact h
  | cons ptr queue =>
      have hmem : ptr ∈ w.env.sched.timerQueue := hqueue ▸ List.mem_cons_self
      have htimers := h.core.resources.timers.setLastClassDispatch
        (Function.update w.env.sched.lastClassDispatch ptr.cls now)
      dsimp only
      cases hhandler : ptr.handler with
      | other =>
          obtain ⟨sched, hsched, htimers'⟩ := htimers.remove_other hmem (by rw [hhandler]; rfl)
          refine (onEnv_returns (removeTimeout_ends hsched)).bind ?_
          rintro ⟨w', u⟩ ⟨env, hw, rfl⟩
          dsimp only at hw
          obtain rfl := hw
          exact ⟨h.core.setEnv (h.core.resources.setSched htimers'), h.linked⟩
      | sessionTimeout =>
          obtain ⟨hid, heq⟩ := htimers.id_eq hmem (show _ = some ptr.arg by rw [hhandler]; rfl)
          obtain ⟨sched, hsched, htimers'⟩ := htimers.remove ptr.arg
          rw [heq] at hsched
          obtain ⟨inst, hinst⟩ : ∃ inst, w.sessions ptr.arg = some inst := by
            refine Option.ne_none_iff_exists'.mp fun hnone => hid ?_
            rw [← heq, timeoutIds, Function.comp_apply, hnone, Option.elim_none]
          have hvalid := h.core.valid _ _ hinst
          have hstate : inst.state ≠ .stopped := fun hstopped => hid <| by
            rw [← heq, timeoutIds, Function.comp_apply, hinst, Option.elim_some,
              (hvalid.released hstopped).timeoutId]
          refine (onEnv_returns (removeTimeout_ends hsched)).bind ?_
          rintro ⟨w₁, u⟩ ⟨env, hw, rfl⟩
          dsimp only at hw
          obtain rfl := hw
          have hheld : Held (sockFds w.sessions) (timeoutIds w.sessions) ptr.arg none
              { inst with timeoutId := 0 } { w.env with sched } :=
            (h.core.held hinst).setSched htimers'
          have hsession : Ends Allowed ((·, ()) <$> inst.sessionTimeout) { w.env with sched }
              fun r => Kept (sockFds w.sessions) (timeoutIds w.sessions) ptr.arg inst r.1 := by
            refine Ends.map ?_
            exact Instance.sessionTimeout_ends hheld hvalid hstate
          refine (onSession_returns (w := { w with env := { w.env with sched } })
            (m := fun inst => (·, ()) <$> inst.sessionTimeout) hinst hsession).bind ?_
          rintro ⟨w₂, u⟩ ⟨inst', env, hw, hkept⟩
          dsimp only at hw
          obtain rfl := hw
          refine ⟨h.core.setSession hinst hkept.server hkept.valid hkept.held, ?_⟩
          dsimp only
          rw [modes_update_of_server_eq hinst hkept.server]
          exact h.linked

/-- **Each event keeps the invariant.** -/
theorem step_returns {w : World} (h : Invariant w) (config : ClientConfig) (op : Op) :
    Returns Allowed (step config w op) Invariant := by
  cases op with
  | fileEvent fd event answers => exact fileEvent_returns h config fd event answers
  | timeout now => exact dispatchTimeout_returns h now
  | getCookies n attempt credentials answers =>
      exact getCookies_returns h config n attempt credentials answers
  | resetInstance n => exact resetInstance_returns h n
  | nameResolved i success => exact nameResolveHandler_invariant h i success
  | acceptConnection permitted answers => exact acceptConnection_returns h permitted answers
  | nksFinalise => exact nksFinalise_returns h
  | addTimeout ts =>
      have hadd := h.core.resources.timers.addTimeout_other ts
        (show sessionOwner .other 0 = none from rfl)
      refine Returns.map ((onEnv_returns (w := w) (callSched_ends hadd)).mono ?_)
      rintro ⟨w', e⟩ ⟨env, hw, sched, rfl, htimers⟩
      dsimp only at hw ⊢
      obtain rfl := hw
      exact ⟨h.core.setEnv (h.core.resources.setSched htimers), h.linked⟩
  | removeTimeout id =>
      rw [step]
      split
      next hany =>
          obtain ⟨ptr, hmem, hptr⟩ := List.any_eq_true.mp hany
          obtain ⟨rfl, hhandler⟩ := of_decide_eq_true hptr
          obtain ⟨sched, hsched, htimers⟩ := h.core.resources.timers.remove_other hmem
            (by rw [hhandler]; rfl)
          refine Returns.map ((onEnv_returns (removeTimeout_ends hsched)).mono ?_)
          rintro ⟨w', u⟩ ⟨env, hw, rfl⟩
          dsimp only at hw ⊢
          obtain rfl := hw
          exact ⟨h.core.setEnv (h.core.resources.setSched htimers), h.linked⟩
      · exact h
  | slew cooked dfreq doffset changeType =>
      have htimers := h.core.resources.timers.handleSlew cooked dfreq doffset changeType
      exact ⟨h.core.setEnv (h.core.resources.setSched htimers), h.linked⟩

/-! ### Runs -/

theorem init_invariant (now : ℚ) (helpers created : Bool) (connections : ℕ) :
    Invariant (.init now (nksInitialise helpers created connections)) where
  core := by
    refine ⟨⟨⟨(Sched.initialise_good now).invariant, fun id k => ?_⟩, fun fd i => ?_, fun fd => ?_,
      fun _ he => ?_⟩, fun _ _ hinst => ?_, fun _ _ => rfl, fun _ hmode => ?_⟩
    · refine iff_of_false ?_ fun ⟨hne, hid⟩ => hne hid.symm
      rintro ⟨e, he, -⟩
      exact absurd he List.not_mem_nil
    · refine iff_of_false ?_ nofun
      rintro ⟨ptr, hptr, -⟩
      cases hptr
    · refine iff_of_false (Finset.notMem_empty fd) ?_
      rintro (⟨i, hi⟩ | he)
      · cases hi
      · cases he
    · cases he
    · cases hinst
    · cases hmode
  linked := by
    have hempty : (List.replicate connections (none : Option ℕ)).filterMap id = [] :=
      List.filterMap_eq_nil_iff.mpr fun slot hslot => List.eq_of_mem_replicate hslot
    have hnks : ∀ s, nksInitialise helpers created connections = some s →
        s.sessions.filterMap id = [] ∧ (s.helpers = false → s.credentials = true) := by
      intro s hs
      rw [nksInitialise] at hs
      split at hs
      · obtain rfl := Option.some.inj hs
        exact ⟨hempty, nofun⟩
      · split at hs
        · obtain rfl := Option.some.inj hs
          exact ⟨hempty, fun _ => rfl⟩
        · cases hs
    refine ⟨fun _ _ hn => ?_, fun _ _ _ hn => ?_, fun s hs i hi => ?_, fun s hs => ?_,
      fun s hs => (hnks s hs).2⟩
    · cases hn
    · cases hn
    · rw [(hnks s hs).1] at hi
      cases hi
    · rw [(hnks s hs).1]
      exact List.nodup_nil

namespace World

/-- A timeout of a session is in the queue. -/
def HasTimeout (w : World) (i : ℕ) : Prop :=
  ∃ e ∈ w.env.sched.timerQueue, e.handler = .sessionTimeout ∧ e.arg = i

/-- A file handler of a session is registered. -/
def HasFileHandler (w : World) (i : ℕ) : Prop :=
  ∃ fd ptr, w.env.fileHandlers fd = some ptr ∧ ptr.arg = i

end World

/-- **What holds for a session** between events. -/
structure Consistent (w : World) (i : ℕ) (inst : Instance) : Prop where
  stopped_iff : inst.state = .stopped ↔ inst.sockFd = none ∧ inst.label = none ∧
    inst.tlsSession = false ∧ ¬w.HasTimeout i ∧ ¬w.HasFileHandler i
  acquired : inst.state ≠ .stopped → (∃ fd ∈ w.env.sockets, inst.sockFd = some fd) ∧
    inst.label ≠ none ∧ inst.tlsSession = true ∧ w.HasTimeout i ∧ w.HasFileHandler i
  message : ∀ message, inst.message = some message →
    message.session.message.data.length ≤ nkeMaxMessageLength ∧
      message.sent ≤ message.session.message.data.length ∧
        message.session.message.parsed ≤ message.session.message.data.length
  handled : inst.handled.length ≤ 1 ∧ ∀ data ∈ inst.handled, IsComplete data

namespace Invariant

variable {w : World} {i : ℕ}

theorem hasTimeout_iff (h : Invariant w) : w.HasTimeout i ↔ timeoutIds w.sessions i ≠ 0 := by
  constructor
  · rintro ⟨e, he, hhandler, rfl⟩
    obtain ⟨hne, hid⟩ := h.core.resources.timers.id_eq he
      (show _ = some e.arg by rw [hhandler]; rfl)
    exact hid ▸ hne
  · intro hne
    obtain ⟨e, he, howner, -⟩ := h.core.resources.timers.exists_mem hne
    refine ⟨e, he, ?_⟩
    cases hhandler : e.handler with
    | sessionTimeout =>
        rw [hhandler] at howner
        exact ⟨rfl, Option.some.inj howner⟩
    | other =>
        rw [hhandler] at howner
        cases howner

theorem hasFileHandler_iff (h : Invariant w) :
    w.HasFileHandler i ↔ sockFds w.sessions i ≠ none := by
  rw [Option.ne_none_iff_exists']
  exact exists_congr fun fd => h.core.resources.handlers fd i

theorem consistent (h : Invariant w) {inst : Instance} (hi : w.sessions i = some inst) :
    Consistent w i inst := by
  have hvalid := h.core.valid i inst hi
  have hfd : sockFds w.sessions i = inst.sockFd := by
    rw [sockFds, Function.comp_apply, hi, Option.bind_some]
  have hid : timeoutIds w.sessions i = inst.timeoutId := by
    rw [timeoutIds, Function.comp_apply, hi, Option.elim_some]
  have hacquired : inst.state ≠ .stopped → (∃ fd ∈ w.env.sockets, inst.sockFd = some fd) ∧
      inst.label ≠ none ∧ inst.tlsSession = true ∧ w.HasTimeout i ∧ w.HasFileHandler i := by
    intro hstate
    have hacq := hvalid.acquired hstate
    obtain ⟨fd, hsock⟩ := Option.ne_none_iff_exists'.mp hacq.sockFd
    refine ⟨⟨fd, (h.core.resources.sockets fd).mpr (.inl ⟨i, hfd.trans hsock⟩), hsock⟩, hacq.label,
      hacq.tlsSession, ?_, ?_⟩
    · rw [h.hasTimeout_iff, hid]
      exact hacq.timeoutId
    · rw [h.hasFileHandler_iff, hfd]
      exact hacq.sockFd
  refine ⟨⟨fun hstate => ?_, fun hreleased => ?_⟩, hacquired, fun message hmessage => ?_,
    hvalid.handled⟩
  · have hreleased := hvalid.released hstate
    refine ⟨hreleased.sockFd, hreleased.label, hreleased.tlsSession, ?_, ?_⟩
    · rw [h.hasTimeout_iff, hid, not_not]
      exact hreleased.timeoutId
    · rw [h.hasFileHandler_iff, hfd, not_not]
      exact hreleased.sockFd
  · by_contra hstate
    exact (hvalid.acquired hstate).sockFd hreleased.1
  · have hbounded := hvalid.bounded message hmessage
    exact ⟨hbounded.length, hbounded.sent, hbounded.parsed⟩

end Invariant

/-- **Sessions of clients and of the server**, in every state which is reached by any events. No
assertion fails, and nothing is used after it was freed. The process ends only when there are too
many descriptors or timeouts. A session is stopped if and only if its resources are released, and
the open descriptors are those of sessions. The message stays in its buffer, and at most one
message was passed to the handler, which was complete. -/
theorem sessions_run (config : ClientConfig) (now : ℚ) (helpers created : Bool)
    (connections : ℕ) (ops : List Op) :
    Returns Allowed (run config now (nksInitialise helpers created connections) ops) fun w =>
      (∀ i inst, w.sessions i = some inst → Consistent w i inst) ∧
      ∀ fd ∈ w.env.sockets, ∃ i inst, w.sessions i = some inst ∧ inst.sockFd = some fd := by
  have hrun : Returns Allowed (run config now (nksInitialise helpers created connections) ops)
      Invariant :=
    Returns.foldlM (fun _ op hw => step_returns hw config op) ops
      (init_invariant now helpers created connections)
  refine hrun.mono fun w h => ⟨fun i inst hi => h.consistent hi, fun fd hfd => ?_⟩
  rcases (h.core.resources.sockets fd).mp hfd with ⟨i, hi⟩ | he
  · obtain ⟨inst, hinst, hsock⟩ := Option.bind_eq_some_iff.mp hi
    exact ⟨i, inst, hinst, hsock⟩
  · cases he

end Chrony.Nts.Nksn
