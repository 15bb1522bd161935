import Chrony.NtpCore.Polls

/-!
# Saved Responses after a Reset

A response which waits for the hardware timestamp of its request is not among the things which
are cleared when the association is reset. It is cancelled when a client socket is closed, and
otherwise processed later. After the reset no request is known, so the response is not valid.
A client ignores it then, but a peer takes its timestamps from it.

## Main results

* `processSavedResponse_undisturbed`: what a client does with a response after a reset.
* `run_reset_undisturbed`: no earlier response has an effect after the reset of a client.
* `run_reset_peer`: a run of a peer in which one has.
-/

namespace Chrony.NtpCore

open Lib Program

variable {s s' : State} {w w' : World}

/-! ### Responses to no request -/

/-- **No response is valid before a request is sent.** -/
theorem Instance.Idle.validPacket_eq_false {inst : Instance} (h : inst.Idle) (auth : Bool)
    (message : Message) : (packetTests inst auth message).validPacket = false := by
  by_contra hvalid
  rw [Bool.not_eq_false] at hvalid
  have hreq := requested_of_validPacket (s := (⟨Sched.initialise 0, inst, [], default, 0⟩ : State))
    hvalid
  exact hreq.elim (absurd h.2) (absurd h.1)

/-- A client takes timestamps only from valid responses. -/
theorem updateTimestamps_client {inst : Instance} (hmode : inst.mode = .client) (r : Response)
    {t : Tests} (hvalid : t.validPacket = false) (goodPacket : Bool) :
    updateTimestamps r t goodPacket inst = inst := by
  rw [updateTimestamps, if_neg, if_neg]
  · rintro ⟨hactive, -⟩
    cases hmode.symm.trans hactive
  · rintro (⟨-, htrue, -⟩ | ⟨-, htrue, -⟩)
    all_goals exact Bool.false_ne_true (hvalid.symm.trans htrue)

theorem finishResponse_client (hmode : s.inst.mode = .client) (saved : Bool) (r : Response)
    {t : Tests} (hvalid : t.validPacket = false) :
    Ends (fun _ => True) (finishResponse saved r t) s fun _ s' =>
      s'.inst = s.inst ∧ s'.accepted = s.accepted := by
  rw [finishResponse]
  refine getInst_ends (ask_ends fun a n => modifyInst_ends (getInst_ends ?_))
  have hsame := updateTimestamps_client hmode r hvalid (sampleTests s.inst t a).goodPacket
  split
  · exact ⟨hsame, rfl⟩
  · rw [if_neg (by rw [hvalid]; exact Bool.false_ne_true)]
    exact ⟨hsame, rfl⟩

/-- **What is left after a response to no request was processed.** Until then, no request is
sent. -/
structure Undisturbed (s s' : State) : Prop where
  kept : Kept s.inst s'.inst
  accepted : s'.accepted = s.accepted
  idle : s'.inst.savedTimeoutId ≠ 0 → s'.inst.Idle

theorem Undisturbed.of_rests (h : Rests s.inst s'.inst ∧ s'.accepted = s.accepted)
    (hidle : s.inst.Idle) : Undisturbed s s' :=
  ⟨h.1.toKept, h.2, fun _ => h.1.idle hidle⟩

theorem Quietly.undisturbed {m : M Unit} (h : Quietly Rests m) (hidle : s.inst.Idle) :
    Ends (fun _ => True) m s fun _ s' => Undisturbed s s' :=
  (h s).mono fun _ _ h' => .of_rests h' hidle

theorem removeTimeout_same (id : ℕ) :
    Ends (fun _ => True) (removeTimeout id) s fun _ s' =>
      s'.inst = s.inst ∧ s'.accepted = s.accepted := by
  rw [Ends, removeTimeout]
  split
  · exact ⟨rfl, rfl⟩
  · trivial

/-- **A client ignores a saved response** if no request is known. -/
theorem processSavedResponse_undisturbed (hmode : s.inst.mode = .client) (hidle : s.inst.Idle) :
    Ends (fun _ => True) processSavedResponse s fun _ s' =>
      (Rests s.inst s'.inst ∧ s'.accepted = s.accepted) ∧ s'.inst.savedTimeoutId = 0 := by
  rw [processSavedResponse]
  refine getInst_ends ?_
  split
  · trivial
  next saved _ =>
      refine (removeTimeout_same _).bind ?_
      rintro _ s₁ ⟨hinst, haccepted⟩
      refine modifyInst_ends (getInst_ends ?_)
      rw [hinst]
      have hclear : s.inst.clearSavedTimeout.Idle := hidle
      refine Ends.bind (finishResponse_client
        (s := { s₁ with inst := s.inst.clearSavedTimeout }) hmode true _
        (hclear.validPacket_eq_false _ _)) ?_
      rintro _ s' ⟨hinst', haccepted'⟩
      refine ⟨⟨?_, haccepted'.trans haccepted⟩, ?_⟩
      · rw [hinst']
        exact Rests.clearSavedTimeout s.inst
      · rw [hinst']
        exact clearSavedTimeout_savedTimeoutId s.inst

theorem processResponse_client (hmode : s.inst.mode = .client) (hidle : s.inst.Idle)
    (r : Response) :
    Ends (fun _ => True) (processResponse r) s fun _ s' =>
      s'.inst = s.inst ∧ s'.accepted = s.accepted := by
  rw [processResponse]
  refine getInst_ends (ask_ends fun a n => ?_)
  have hvalid := hidle.validPacket_eq_false a.checkAuth r.message
  have hsavable : isSavable s.inst (packetTests s.inst a.checkAuth r.message) a.hwTsEnabled =
      false := by
    simp [isSavable, hvalid]
  dsimp only
  rw [if_neg (by rw [hsavable]; exact Bool.false_ne_true)]
  exact finishResponse_client (s := { s with asked := n }) hmode false r hvalid

theorem processRxKnown_undisturbed (hmode : s.inst.mode = .client) (hidle : s.inst.Idle)
    (localAddr : LocalAddress) (rxTs : LocalTimestamp) (message : Option Message) :
    Ends (fun _ => True) (processRxKnown localAddr rxTs message) s fun _ s' =>
      Undisturbed s s' := by
  have hcount : Rests s.inst { s.inst with totalRxCount := s.inst.totalRxCount + 1 } := .of_eq rfl
  rw [processRxKnown]
  refine modifyInst_ends (getInst_ends ?_)
  split
  · exact .of_rests ⟨hcount, rfl⟩ hidle
  next message =>
      split
      · refine (processResponse_client (s := { s with
          inst := { s.inst with totalRxCount := s.inst.totalRxCount + 1 } }) hmode hidle _).mono ?_
        rintro _ s' ⟨hinst, haccepted⟩
        refine .of_rests ⟨?_, haccepted⟩ hidle
        rw [hinst]
        exact hcount
      · exact .of_rests ⟨hcount, rfl⟩ hidle

theorem updateTxTimestamp_rests (txTs : LocalTimestamp) (message : Message) (inst : Instance) :
    Rests inst (updateTxTimestamp txTs message inst) := by
  unfold updateTxTimestamp
  dsimp only
  split_ifs
  · exact refl_of Rests inst
  · exact refl_of Rests inst
  · exact refl_of Rests inst
  · exact .of_eq rfl

theorem processTxKnown_undisturbed (hmode : s.inst.mode = .client) (hidle : s.inst.Idle)
    (txTs : LocalTimestamp) (message : Option Message) :
    Ends (fun _ => True) (processTxKnown txTs message) s fun _ s' => Undisturbed s s' := by
  unfold processTxKnown
  split
  · exact .of_rests ⟨refl_of Rests s.inst, rfl⟩ hidle
  next message =>
      have hupdate := updateTxTimestamp_rests txTs message s.inst
      refine .onlyIf (fun _ => ?_) fun _ => .of_rests ⟨refl_of Rests s.inst, rfl⟩ hidle
      refine modifyInst_ends (getInst_ends (.onlyIf (fun _ => ?_) fun _ => ?_))
      · refine (processSavedResponse_undisturbed (s := { s with
          inst := updateTxTimestamp txTs message s.inst }) (hupdate.mode.trans hmode)
          (hupdate.idle hidle)).mono ?_
        rintro _ s' ⟨⟨hrests, haccepted⟩, -⟩
        exact .of_rests ⟨trans_of Rests hupdate hrests, haccepted⟩ hidle
      · exact .of_rests ⟨hupdate, rfl⟩ hidle

/-! ### Events -/

/-- **Every event after the reset of a client** leaves the protocol timestamps cleared. -/
theorem Event.program_undisturbed (hmode : s.inst.mode = .client) (hidle : s.inst.Idle)
    (event : Event) :
    Ends (fun _ => True) event.program s fun _ s' => Undisturbed s s' := by
  have hpure : Quietly Rests (pure () : M Unit) := .pure ()
  cases event with
  | start => exact startInstance_rests.undisturbed hidle
  | setConnectivity connectivity => exact (setConnectivity_rests connectivity).undisturbed hidle
  | initiateSampleBurst nGood nTotal => exact (initiateSampleBurst_rests _ _).undisturbed hidle
  | reset => exact reset_rests.undisturbed hidle
  | resetPoll => exact resetPoll_rests.undisturbed hidle
  | changeRemoteAddress remoteAddr =>
      exact (changeRemoteAddress_rests remoteAddr).undisturbed hidle
  | modifyMinpoll newMinpoll =>
      have hrests : Quietly Rests (modifyInst (·.modifyMinpoll newMinpoll)) :=
        .modifyInst fun inst => Rests.modifyMinpoll inst newMinpoll
      exact hrests.undisturbed hidle
  | modifyMaxpoll newMaxpoll =>
      have hrests : Quietly Rests (modifyInst (·.modifyMaxpoll newMaxpoll)) :=
        .modifyInst fun inst => Rests.modifyMaxpoll inst newMaxpoll
      exact hrests.undisturbed hidle
  | modifyMaxdelay newMaxDelay =>
      have hrests : Quietly Rests
          (modifyInst ({ · with maxDelay := clampMaxDelay newMaxDelay })) :=
        .modifyInst fun _ => .of_eq rfl
      exact hrests.undisturbed hidle
  | processRxKnown localAddr rxTs message =>
      exact (processRxKnown_undisturbed hmode hidle localAddr rxTs message).bind fun _ _ h => h
  | processTxKnown txTs message => exact processTxKnown_undisturbed hmode hidle txTs message
  | create => exact hpure.undisturbed hidle
  | destroy => exact hpure.undisturbed hidle
  | dispatch => exact hpure.undisturbed hidle
  | slew => exact hpure.undisturbed hidle
  | unknownStep => exact hpure.undisturbed hidle
  | addOther => exact hpure.undisturbed hidle
  | removeOther => exact hpure.undisturbed hidle

/-- The saved response is processed before the next request is sent. -/
theorem transmitTimeout_undisturbed (hmode : s.inst.mode = .client) (hidle : s.inst.Idle) :
    Ends (fun _ => True) transmitTimeout s fun _ s' => Undisturbed s s' := by
  have hclear : Rests s.inst { s.inst with txTimeoutId := 0 } := .of_eq rfl
  rw [transmitTimeout]
  refine modifyInst_ends (getInst_ends ?_)
  split
  · refine (processSavedResponse_undisturbed (s := { s with
      inst := { s.inst with txTimeoutId := 0 } }) hmode hidle).bind ?_
    rintro _ s₁ ⟨⟨hrests, haccepted⟩, hzero⟩
    have hrests' := trans_of Rests hclear hrests
    refine getInst_ends (.onlyIf (fun _ => ?_) fun _ => .of_rests ⟨hrests', haccepted⟩ hidle)
    refine (transmitRequest_kept s₁).mono fun _ s' h' => ?_
    exact ⟨trans_of Kept hrests'.toKept h'.1, h'.2.trans haccepted,
      fun hne => absurd (h'.1.saved hzero) hne⟩
  next hsaved =>
      have hzero : s.inst.savedTimeoutId = 0 :=
        not_not.mp fun hne => hsaved (hasSavedResponse_iff.mpr hne)
      refine (transmitRequest_kept _).mono fun _ s' h' => ?_
      exact ⟨trans_of Kept hclear.toKept h'.1, h'.2, fun hne => absurd (h'.1.saved hzero) hne⟩

theorem Handler.program_undisturbed (hmode : s.inst.mode = .client) (hidle : s.inst.Idle)
    (k : Handler) : Ends (fun _ => True) k.program s fun _ s' => Undisturbed s s' := by
  cases k with
  | transmitTimeout => exact transmitTimeout_undisturbed hmode hidle
  | receiveTimeout =>
      have hrests : Quietly Rests NtpCore.receiveTimeout :=
        .bind (.modifyInst fun _ => .of_eq rfl) fun _ => closeClientSocket_rests
      exact hrests.undisturbed hidle
  | savedResponseTimeout =>
      have hclear := Rests.clearSavedTimeout s.inst
      refine modifyInst_ends ((processSavedResponse_undisturbed (s := { s with
        inst := s.inst.clearSavedTimeout }) hmode hidle).mono ?_)
      rintro _ s' ⟨⟨hrests, haccepted⟩, -⟩
      exact .of_rests ⟨trans_of Rests hclear hrests, haccepted⟩ hidle
  | other =>
      have hpure : Quietly Rests (pure () : M Unit) := .pure ()
      exact hpure.undisturbed hidle

/-! ### Steps -/

/-- **No response which was received before the reset has had an effect.** The accepted
responses are the only ones which are accumulated. -/
structure World.Undisturbed (accepted : ℕ) (w : World) : Prop where
  accepted : w.history.count .accepted = accepted
  cleared : ∀ inst, w.inst = some inst → inst.Cleared

/-- A saved response is waiting. -/
def World.HasSaved (w : World) : Prop :=
  ∃ inst, w.inst = some inst ∧ inst.hasSavedResponse = true

/-- The saved response of a client is waiting, and no request was sent since the reset. -/
structure World.Reset (accepted : ℕ) (w : World) : Prop extends w.Undisturbed accepted where
  client : ∀ inst, w.inst = some inst → inst.savedTimeoutId ≠ 0 → inst.mode = .client ∧ inst.Idle

theorem Undisturbed.reset {n : ℕ} (hw : w.Reset n) {s s' : State} (hinst : w.inst = some s.inst)
    (haccepted : s.accepted = w.history.count .accepted) (hmode : s.inst.mode = .client)
    (h : NtpCore.Undisturbed s s') (hinst' : w'.inst = some s'.inst)
    (hhistory : w'.history = s'.history) : w'.Reset n := by
  refine ⟨⟨?_, fun inst hsome => ?_⟩, fun inst hsome hne => ?_⟩
  · rw [hhistory]
    exact h.accepted.trans (haccepted.trans hw.accepted)
  · obtain rfl := Option.some.inj (hinst'.symm.trans hsome)
    exact h.kept.cleared (hw.cleared s.inst hinst)
  · obtain rfl := Option.some.inj (hinst'.symm.trans hsome)
    exact ⟨h.kept.mode.trans hmode, h.idle hne⟩

theorem World.Reset.of_eq {n : ℕ} (hw : w.Reset n) (hinst : w'.inst = w.inst)
    (hhistory : w'.history = w.history) : w'.Reset n := by
  refine ⟨⟨?_, fun inst hsome => ?_⟩, fun inst hsome hne => ?_⟩
  · rw [hhistory]
    exact hw.accepted
  · exact hw.cleared inst (hinst.symm.trans hsome)
  · exact hw.client inst (hinst.symm.trans hsome) hne

/-- A function which runs on the association. -/
theorem World.Reset.exec {n : ℕ} (hw : w.Reset n) {inst : Instance} (hinst : w.inst = some inst)
    (hclient : inst.mode = .client ∧ inst.Idle) {answers : ℕ → Answers} {m : M Unit}
    (hm : Ends (fun _ => True) m (w.state inst answers) fun _ s' =>
      NtpCore.Undisturbed (w.state inst answers) s')
    (h : w.exec inst answers m = .ok w') : w'.Reset n := by
  obtain ⟨s', hs', hinst', hhistory⟩ := World.exec_eq_ok h
  exact (hm.value hs').reset hw hinst rfl hclient.1 hinst' hhistory

theorem changeClock_reset {n : ℕ} (hw : w.Reset n) {inst : Instance} (hinst : w.inst = some inst)
    (hclient : inst.mode = .client ∧ inst.Idle) {answers : ℕ → Answers} {cooked : Timespec}
    {dfreq doffset : ℚ} {changeType : Sched.ChangeType}
    (h : w.changeClock answers cooked dfreq doffset changeType = .ok w') : w'.Reset n := by
  rw [World.changeClock] at h
  dsimp only at h
  rw [hinst] at h
  dsimp only at h
  split at h
  · have hrests : Quietly Rests (do modifyInst (·.reset); resetPoll) :=
      reset_rests.bind fun _ => resetPoll_rests
    obtain ⟨s', hs', hinst', hhistory⟩ := World.exec_eq_ok h
    exact ((hrests.undisturbed hclient.2).value hs').reset hw hinst rfl hclient.1 hinst' hhistory
  · obtain rfl := Except.ok.inj h
    have hslew := Rests.slewTimes ⟨cooked, dfreq, doffset, changeType = .step⟩ inst
    have hundisturbed : NtpCore.Undisturbed (w.state inst answers) { w.state inst answers with
        inst := slewTimes ⟨cooked, dfreq, doffset, changeType = .step⟩ inst } :=
      .of_rests ⟨hslew, rfl⟩ hclient.2
    exact hundisturbed.reset hw hinst rfl hclient.1 rfl rfl

theorem destroy_reset {n : ℕ} (hw : w.Reset n) {inst : Instance} {answers : ℕ → Answers}
    (h : (do
      let w ← w.exec inst answers destroyInstance
      pure { w with inst := none }) = Except.ok w') : w'.Reset n := by
  obtain ⟨w₁, hw₁, h⟩ := bind_eq_ok_iff.mp h
  obtain ⟨s', hs', -, hhistory⟩ := World.exec_eq_ok hw₁
  have hdestroy := (destroyInstance_rests (w.state inst answers)).value hs'
  obtain rfl := Except.ok.inj h
  refine ⟨⟨?_, fun inst hinst => ?_⟩, fun inst hinst => ?_⟩
  · exact (congrArg (List.count _) hhistory).trans (hdestroy.2.trans hw.accepted)
  · cases hinst
  · cases hinst

/-- **Every step keeps the saved response without an effect**, also the one in which it is
processed. -/
theorem step_reset {n : ℕ} (hinv : w.Invariant) (hw : w.Reset n) (hsaved : w.HasSaved)
    {event : Event × (ℕ → Answers)} (h : step w event = .ok w') : w'.Reset n := by
  obtain ⟨inst, hinst, hsaved⟩ := hsaved
  have hclient := hw.client inst hinst (hasSavedResponse_iff.mp hsaved)
  obtain ⟨event, answers⟩ := event
  rw [step] at h
  dsimp only at h
  split at h
  next hnone => cases hnone.symm.trans hinst
  · exact Except.ok.inj h ▸ hw
  next hnone => cases hnone.symm.trans hinst
  next inst₁ hinst₁ => exact destroy_reset hw h
  next now =>
      rcases World.dispatch_eq_ok hinv h with
        ⟨hsame, hhistory⟩ | ⟨inst₁, ptr, -, q, s', hinst₁, -, -, -, -, -, hs', hinst', hhistory⟩
      · exact hw.of_eq hsame hhistory
      · obtain rfl := Option.some.inj (hinst.symm.trans hinst₁)
        have hends := Handler.program_undisturbed
          (s := { w.state inst answers with sched := q }) hclient.1 hclient.2 ptr.handler
        exact (hends.value hs').reset hw hinst rfl hclient.1 hinst' hhistory
  · exact changeClock_reset hw hinst hclient h
  · exact changeClock_reset hw hinst hclient h
  · obtain ⟨_, -, h⟩ := bind_eq_ok_iff.mp h
    obtain rfl := Except.ok.inj h
    exact hw.of_eq rfl rfl
  · split at h
    · obtain ⟨_, -, h⟩ := bind_eq_ok_iff.mp h
      obtain rfl := Except.ok.inj h
      exact hw.of_eq rfl rfl
    · exact Except.ok.inj h ▸ hw
  next inst₁ _ _ _ _ _ _ _ hinst₁ =>
      obtain rfl := Option.some.inj (hinst.symm.trans hinst₁)
      exact hw.exec hinst hclient (Event.program_undisturbed hclient.1 hclient.2 _) h
  next hnone => cases hnone.symm.trans hinst

/-! ### Runs -/

/-- The events by which the association is reset: it gets a different address, or the clock is
stepped by an unknown amount. -/
inductive Event.IsReset : Event → Prop
  | changeRemoteAddress (remoteAddr : RemoteAddress) : IsReset (.changeRemoteAddress remoteAddr)
  | unknownStep (cooked : Timespec) (doffset : ℚ) : IsReset (.unknownStep cooked doffset)

theorem closeClientSocket_cancels :
    Ends (fun _ => True) closeClientSocket s fun _ s' => s'.inst.savedTimeoutId = 0 := by
  rw [closeClientSocket]
  refine modifyInst_ends (getInst_ends ((removeTimeout_same _).bind fun _ s₁ h₁ => ?_))
  refine modifyInst_ends (.onlyIf (fun _ => ?_) fun hnot => ?_)
  · exact (removeTimeout_same _).bind fun _ s₂ _ => clearSavedTimeout_savedTimeoutId s₂.inst
  · rw [h₁.1]
    exact not_not.mp fun hne => hnot (hasSavedResponse_iff.mpr hne)

/-- **A saved response is cancelled** when the address of a client is changed. -/
theorem changeRemoteAddress_cancels (hmode : s.inst.mode = .client) (remoteAddr : RemoteAddress) :
    Ends (fun _ => True) (changeRemoteAddress remoteAddr) s fun _ s' =>
      s'.inst.savedTimeoutId = 0 := by
  rw [changeRemoteAddress]
  refine modifyInst_ends (modifyInst_ends ?_)
  refine Ends.bind (Q := fun _ s₁ => s₁.inst.savedTimeoutId = 0) ?_ fun _ s₁ h₁ => ?_
  · rw [replaceSocket]
    refine getInst_ends ?_
    have hmode' : ({ s.inst.reset with remoteAddr } : Instance).mode = .client := hmode
    rw [hmode']
    exact closeClientSocket_cancels
  · have hrests : Quietly Rests (do
        let a ← ask
        onlyIf a.reachable resetPoll
        updateSource
        modifyInst ({ · with
          totalTxCount := 0, totalRxCount := 0, totalValidCount := 0, totalGoodCount := 0 })) := by
      refine .bind .ask fun a => .bind (.onlyIf fun _ => resetPoll_rests) fun _ => ?_
      exact updateSource_rests.bind fun _ => .modifyInst fun _ => .of_eq rfl
    exact (hrests s₁).mono fun _ _ h' => h'.1.saved h₁

/-- **The reset** of a client, or of an association without a saved response. -/
theorem Resets.reset {inst : Instance} (hwhen : inst.mode = .client ∨ inst.savedTimeoutId = 0)
    {s' : State} (h : Resets inst s'.inst) (hinst' : w'.inst = some s'.inst) :
    w'.Reset (w'.history.count .accepted) := by
  refine ⟨⟨rfl, fun inst' hsome => ?_⟩, fun inst' hsome hne => ?_⟩
  · obtain rfl := Option.some.inj (hinst'.symm.trans hsome)
    exact h.isCleared
  · obtain rfl := Option.some.inj (hinst'.symm.trans hsome)
    refine ⟨?_, h.isIdle⟩
    exact hwhen.elim h.mode.trans fun hzero => absurd (h.saved hzero) hne

theorem World.reset_of_none (h : w.inst = none) : w.Reset (w.history.count .accepted) := by
  refine ⟨⟨rfl, fun inst hinst => ?_⟩, fun inst hinst => ?_⟩
  · cases h.symm.trans hinst
  · cases h.symm.trans hinst

theorem Event.IsReset.reset {event : Event × (ℕ → Answers)} (hreset : event.1.IsReset)
    (hwhen : ∀ inst, w.inst = some inst → inst.mode = .client ∨ inst.savedTimeoutId = 0)
    (h : step w event = .ok w') : w'.Reset (w'.history.count .accepted) := by
  obtain ⟨event, answers⟩ := event
  dsimp only at hreset
  cases hreset with
  | changeRemoteAddress remoteAddr =>
      cases hinst : w.inst with
      | none =>
          rw [step, hinst] at h
          obtain rfl := Except.ok.inj h
          exact World.reset_of_none hinst
      | some inst =>
          rw [step, hinst] at h
          obtain ⟨s', hs', hinst', -⟩ := World.exec_eq_ok h
          have hresets := (changeRemoteAddress_resets remoteAddr _).value hs'
          exact hresets.1.reset (hwhen inst hinst) hinst'
  | unknownStep cooked doffset =>
      have h : w.changeClock answers cooked 0 doffset .unknownStep = .ok w' := h
      rw [World.changeClock] at h
      dsimp only at h
      cases hinst : w.inst with
      | none =>
          rw [hinst] at h
          obtain rfl := Except.ok.inj h
          exact World.reset_of_none rfl
      | some inst =>
          rw [hinst] at h
          dsimp only at h
          rw [if_pos rfl] at h
          obtain ⟨s', hs', hinst', -⟩ := World.exec_eq_ok h
          have hresets := (resetInstance_resets _).value hs'
          exact hresets.1.reset (hwhen inst hinst) hinst'

theorem changeRemoteAddress_not_hasSaved
    (hwhen : ∀ inst, w.inst = some inst → inst.mode = .client ∨ inst.savedTimeoutId = 0)
    {event : Event × (ℕ → Answers)} {remoteAddr : RemoteAddress}
    (hevent : event.1 = .changeRemoteAddress remoteAddr) (h : step w event = .ok w') :
    ¬w'.HasSaved := by
  obtain ⟨event, answers⟩ := event
  dsimp only at hevent
  subst hevent
  rintro ⟨inst', hsome, hsaved⟩
  cases hinst : w.inst with
  | none =>
      rw [step, hinst] at h
      obtain rfl := Except.ok.inj h
      cases hinst.symm.trans hsome
  | some inst =>
      rw [step, hinst] at h
      obtain ⟨s', hs', hinst', -⟩ := World.exec_eq_ok h
      obtain rfl := Option.some.inj (hinst'.symm.trans hsome)
      refine hasSavedResponse_iff.mp hsaved ?_
      rcases hwhen inst hinst with hmode | hzero
      · exact (changeRemoteAddress_cancels hmode remoteAddr).value hs'
      · exact ((changeRemoteAddress_rests remoteAddr _).value hs').1.saved hzero

/-- **No earlier response has an effect after the reset**, if the association is a client or no
response is saved. As long as the saved response is waiting, and in the step in which it is
processed, the protocol timestamps stay cleared and nothing is accumulated. No response is
waiting after a change of the address. -/
theorem run_reset_undisturbed {now : ℚ} {before after : List (Event × (ℕ → Answers))}
    {event : Event × (ℕ → Answers)} {w₀ w₁ w₂ : World} (hbefore : run now before = .ok w₀)
    (hreset : event.1.IsReset)
    (hwhen : ∀ inst, w₀.inst = some inst → inst.mode = .client ∨ inst.hasSavedResponse = false)
    (hstep : step w₀ event = .ok w₁) (hafter : after.foldlM step w₁ = .ok w₂)
    (hsaved : Along step (fun w _ => w.HasSaved) w₁ after) :
    w₂.Undisturbed (w₁.history.count .accepted) ∧
      ∀ remoteAddr, event.1 = .changeRemoteAddress remoteAddr → ¬w₁.HasSaved := by
  have hinv₁ : w₁.Invariant :=
    ((step_returns ((run_invariant now before).value hbefore) event).value hstep).1
  have hwhen' : ∀ inst, w₀.inst = some inst → inst.mode = .client ∨ inst.savedTimeoutId = 0 :=
    fun inst hinst => (hwhen inst hinst).imp id fun hnot => not_not.mp fun hne =>
      Bool.false_ne_true (hnot.symm.trans (hasSavedResponse_iff.mpr hne))
  refine ⟨?_, fun remoteAddr hevent => changeRemoteAddress_not_hasSaved hwhen' hevent hstep⟩
  refine (foldlM_invariant_along
    (I := fun w : World => w.Invariant ∧ w.Reset (w₁.history.count .accepted)) ?_
    ⟨hinv₁, hreset.reset hwhen' hstep⟩ hsaved hafter).2.toUndisturbed
  rintro w e w' ⟨hinv, hw⟩ hwaits hnext
  exact ⟨((step_returns hinv e).value hnext).1, step_reset hinv hw hwaits hnext⟩

/-- What is read from a state: whether the association has the mode, whether a response is saved,
and the transmit timestamp of the first message of a peer. -/
def resetView (mode : Mode) (w : World) : Option (Bool × Bool × BitVec 64) :=
  w.inst.map fun inst =>
    (decide (inst.mode = mode), inst.hasSavedResponse, inst.initRemoteNtpTx)

/-- A run with a reset, up to the timeout of the saved response. -/
def resetRun (before : List (Event × (ℕ → Answers))) (event : Event) :
    Except Abort (World × World × World) := do
  let w₀ ← run 0 before
  let w₁ ← step w₀ (event, sampleAnswers true 8)
  let w₂ ← [(Event.dispatch 20001, sampleAnswers true 8)].foldlM step w₁
  pure (w₀, w₁, w₂)

theorem resetRun_eq_ok {before : List (Event × (ℕ → Answers))} {event : Event} {mode : Mode}
    {initRemoteNtpTx : BitVec 64}
    (h : (resetRun before event).toOption.map
        (fun r => [resetView mode r.1, resetView mode r.2.1, resetView mode r.2.2]) =
      some [some (true, true, 0), some (true, true, 0), some (true, false, initRemoteNtpTx)]) :
    ∃ w₀ w₁ w₂ inst₂, run 0 before = .ok w₀ ∧ (∀ inst, w₀.inst = some inst → inst.mode = mode) ∧
      step w₀ (event, sampleAnswers true 8) = .ok w₁ ∧ w₁.HasSaved ∧
      [(Event.dispatch 20001, sampleAnswers true 8)].foldlM step w₁ = .ok w₂ ∧
      w₂.inst = some inst₂ ∧ inst₂.hasSavedResponse = false ∧
      inst₂.initRemoteNtpTx = initRemoteNtpTx := by
  obtain ⟨⟨w₀, w₁, w₂⟩, hrun, hview⟩ := exists_ok_of_map_toOption h
  obtain ⟨w₀, hw₀, hrun⟩ := bind_eq_ok_iff.mp hrun
  obtain ⟨w₁, hw₁, hrun⟩ := bind_eq_ok_iff.mp hrun
  obtain ⟨w₂, hw₂, hrun⟩ := bind_eq_ok_iff.mp hrun
  obtain ⟨rfl, rfl, rfl⟩ := Except.ok.inj hrun
  simp only [resetView, List.cons.injEq, and_true] at hview
  obtain ⟨hview₀, hview₁, hview₂⟩ := hview
  obtain ⟨inst₀, hinst₀, hview₀⟩ := Option.map_eq_some_iff.mp hview₀
  obtain ⟨inst₁, hinst₁, hview₁⟩ := Option.map_eq_some_iff.mp hview₁
  obtain ⟨inst₂, hinst₂, hview₂⟩ := Option.map_eq_some_iff.mp hview₂
  simp only [Prod.mk.injEq] at hview₀ hview₁ hview₂
  refine ⟨_, _, _, inst₂, hw₀, fun inst hinst => ?_, hw₁, ⟨inst₁, hinst₁, hview₁.2.1⟩, hw₂, hinst₂,
    hview₂.2⟩
  obtain rfl := Option.some.inj (hinst₀.symm.trans hinst)
  exact of_decide_eq_true hview₀.1

/-- The events of a client before the reset. The response to its second request is saved. -/
def clientEvents : List (Event × (ℕ → Answers)) :=
  sampleBurst true ++
    [(.initiateSampleBurst 1 4, sampleAnswers true 8),
      (.dispatch 20000, sampleAnswers true 8),
      (sampleResponse 8 3 4, sampleAnswers true 8)]

/-- The clock of the client is stepped, and the saved response is ignored. -/
theorem run_reset_undisturbed_client : ∃ w₀ w₁ w₂, run 0 clientEvents = .ok w₀ ∧
    step w₀ (.unknownStep ⟨1000, 0⟩ 0, sampleAnswers true 8) = .ok w₁ ∧ w₁.HasSaved ∧
    [(Event.dispatch 20001, sampleAnswers true 8)].foldlM step w₁ = .ok w₂ ∧ ¬w₂.HasSaved ∧
    w₂.Undisturbed (w₁.history.count .accepted) := by
  have hview : (resetRun clientEvents (.unknownStep ⟨1000, 0⟩ 0)).toOption.map
      (fun r => [resetView .client r.1, resetView .client r.2.1, resetView .client r.2.2]) =
        some [some (true, true, 0), some (true, true, 0), some (true, false, 0)] := by
    decide +kernel
  obtain ⟨w₀, w₁, w₂, inst₂, hw₀, hmode, hw₁, hsaved, hw₂, hinst₂, hnot, -⟩ :=
    resetRun_eq_ok hview
  refine ⟨w₀, w₁, w₂, hw₀, hw₁, hsaved, hw₂, ?_, ?_⟩
  · rintro ⟨inst, hinst, htrue⟩
    obtain rfl := Option.some.inj (hinst₂.symm.trans hinst)
    exact Bool.false_ne_true (hnot.symm.trans htrue)
  · exact (run_reset_undisturbed hw₀ (.unknownStep _ _)
      (fun inst hinst => .inl (hmode inst hinst)) hw₁ hw₂ ⟨hsaved, fun _ _ => trivial⟩).1

/-- A message of a peer in response to the message which was sent with the timestamp. -/
def peerMessage (originateTs receiveTs transmitTs : BitVec 64) : Event :=
  .processRxKnown ⟨.inet4 1, 0, 5⟩ ⟨⟨1001, 0⟩, .kernel⟩
    (some ⟨.normal, .active, 1, 6, 0, 0, 1, originateTs, receiveTs, transmitTs⟩)

/-- The events of a peer before the reset. The second message of the other peer is saved. -/
def peerEvents : List (Event × (ℕ → Answers)) :=
  [(.create ⟨.active, false, 6, 10, 100, 3, false, false, false, false, 0, .online⟩
      ⟨.inet4 2, 123⟩ 5, sampleAnswers true 7),
    (.start, sampleAnswers true 7),
    (.dispatch 10, sampleAnswers true 7),
    (peerMessage 7 1 2, sampleAnswers true 7),
    (.dispatch 20000, sampleAnswers true 8),
    (peerMessage 8 3 4, sampleAnswers true 8)]

/-- **A saved message of a peer has an effect** after the address of the peer was changed: its
timestamps are taken for those of the new peer. -/
theorem run_reset_peer : ∃ w₀ w₁ w₂, run 0 peerEvents = .ok w₀ ∧
    step w₀ (.changeRemoteAddress ⟨.inet4 3, 123⟩, sampleAnswers true 8) = .ok w₁ ∧
    w₁.HasSaved ∧ [(Event.dispatch 20001, sampleAnswers true 8)].foldlM step w₁ = .ok w₂ ∧
    ¬w₂.Undisturbed (w₁.history.count .accepted) := by
  have hview : (resetRun peerEvents (.changeRemoteAddress ⟨.inet4 3, 123⟩)).toOption.map
      (fun r => [resetView .active r.1, resetView .active r.2.1, resetView .active r.2.2]) =
        some [some (true, true, 0), some (true, true, 0), some (true, false, 4)] := by
    decide +kernel
  obtain ⟨w₀, w₁, w₂, inst₂, hw₀, -, hw₁, hsaved, hw₂, hinst₂, -, htx⟩ := resetRun_eq_ok hview
  refine ⟨w₀, w₁, w₂, hw₀, hw₁, hsaved, hw₂, fun h => ?_⟩
  have hzero := (h.cleared inst₂ hinst₂).initRemoteNtpTx
  rw [htx] at hzero
  cases hzero

end Chrony.NtpCore
