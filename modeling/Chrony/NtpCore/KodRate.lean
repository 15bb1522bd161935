import Chrony.NtpCore.Bursts

/-!
# The KoD RATE Response

A KoD RATE response which is accepted in a burst is followed by any number of events up to the
next transmit timeout, and by any number of events after it. No other response is accepted
before the timeout. The burst is stopped by the timeout only if it would have ended at the
timeout anyway.

## Main results

* `kodRate_stops_burst_iff`: when a burst is stopped by a KoD RATE response.
* `kodRate_does_not_stop_burst`: a run in which the burst continues.
-/

namespace Chrony.NtpCore

open Lib Program

variable {α β : Type} {s s' : State} {w w' : World}

/-! ### Events -/

theorem startInstance_calm : Alters Calm startInstance := by
  refine .bind (.modifyInst fun _ => ⟨rfl, rfl, id⟩) fun _ => .getInst fun inst => ?_
  exact .onlyIf fun _ => startInitialTimeout_calm

/-- No new burst is started in a burst. -/
theorem initiateSampleBurst_waits (nGoodSamples nTotalSamples : ℤ) :
    Alters Waits (initiateSampleBurst nGoodSamples nTotalSamples) := by
  refine .getInst_eq fun s => ?_
  split
  · exact id
  · exact id
  · exact id
  next hoff hon =>
      refine Ends.trivial.mono fun _ s' _ hwait => ?_
      exact hwait.1.elim (fun h => absurd h hoff) fun h => absurd h hon

/-- A burst goes on when the connectivity is set. -/
theorem setConnectivity_waits (connectivity : Connectivity) :
    Alters Waits (setConnectivity connectivity) := by
  refine .bind .ask fun a => .getInst_eq fun s => ?_
  by_cases hburst : s.inst.InBurst
  · rcases hburst with hmode | hmode
    · rw [hmode]
      split
      · exact fun hwait => ⟨.inr rfl, hwait.2⟩
      · exact id
    · rw [hmode]
      split
      · exact id
      · exact fun hwait => ⟨.inl rfl, hwait.2⟩
  · exact Ends.trivial.mono fun _ _ _ hwait => absurd hwait.1 hburst

theorem modifyMinpoll_calm (newMinpoll : ℤ) :
    Alters Calm (modifyInst (·.modifyMinpoll newMinpoll)) := by
  refine .modifyInst fun inst => ?_
  rw [Instance.modifyMinpoll]
  split
  · exact ⟨rfl, rfl, id⟩
  · exact ⟨rfl, rfl, id⟩

theorem modifyMaxpoll_calm (newMaxpoll : ℤ) :
    Alters Calm (modifyInst (·.modifyMaxpoll newMaxpoll)) := by
  refine .modifyInst fun inst => ?_
  rw [Instance.modifyMaxpoll]
  split
  · exact ⟨rfl, rfl, id⟩
  · exact ⟨rfl, rfl, id⟩

theorem modifyMaxdelay_calm (newMaxDelay : ℚ) :
    Alters Calm (modifyInst ({ · with maxDelay := clampMaxDelay newMaxDelay })) :=
  .modifyInst fun _ => ⟨rfl, rfl, id⟩

theorem processRxKnown_waits (localAddr : LocalAddress) (rxTs : LocalTimestamp)
    (message : Option Message) : Alters Waits (processRxKnown localAddr rxTs message) := by
  refine .bind (.modifyInst fun _ => id) fun _ => .getInst fun inst => ?_
  split
  · exact .pure _
  · exact .ite (fun _ => processResponse_waits _) fun _ => .pure _

theorem processTxKnown_waits (txTs : LocalTimestamp) (message : Option Message) :
    Alters Waits (processTxKnown txTs message) := by
  unfold processTxKnown
  split
  · exact .pure _
  · refine .onlyIf fun _ => .bind (.modifyInst fun _ => ?_) fun _ => ?_
    · exact (updateTxTimestamp_calm ..).waits
    · exact .getInst fun _ => .onlyIf fun _ => processSavedResponse_waits

/-- **No event ends the burst of an answered request.** -/
theorem Event.program_waits (event : Event) : Alters Waits event.program := by
  cases event with
  | start => exact startInstance_calm.waits
  | setConnectivity connectivity => exact setConnectivity_waits connectivity
  | initiateSampleBurst nGood nTotal => exact initiateSampleBurst_waits nGood nTotal
  | reset => exact reset_calm.waits
  | resetPoll => exact resetPoll_calm.waits
  | changeRemoteAddress remoteAddr => exact (changeRemoteAddress_calm remoteAddr).waits
  | modifyMinpoll newMinpoll => exact (modifyMinpoll_calm newMinpoll).waits
  | modifyMaxpoll newMaxpoll => exact (modifyMaxpoll_calm newMaxpoll).waits
  | modifyMaxdelay newMaxDelay => exact (modifyMaxdelay_calm newMaxDelay).waits
  | processRxKnown localAddr rxTs message =>
      exact (processRxKnown_waits localAddr rxTs message).bind fun _ => .pure _
  | processTxKnown txTs message => exact processTxKnown_waits txTs message
  | create => exact .pure _
  | destroy => exact .pure _
  | dispatch => exact .pure _
  | slew => exact .pure _
  | unknownStep => exact .pure _
  | addOther => exact .pure _
  | removeOther => exact .pure _

theorem Handler.program_waits {k : Handler} (hk : k ≠ .transmitTimeout) :
    Alters Waits k.program := by
  cases k with
  | transmitTimeout => exact absurd rfl hk
  | receiveTimeout =>
      exact .bind (.modifyInst fun _ => id) fun _ => closeClientSocket_calm.waits
  | savedResponseTimeout =>
      exact .bind (.modifyInst fun _ => id) fun _ => processSavedResponse_waits
  | other => exact .pure _

/-- **Only `NCR_InitiateSampleBurst` starts a burst.** -/
theorem setConnectivity_noNewBurst {connectivity : Connectivity}
    (h : ¬(s.inst.mode = .client ∧ s.inst.opmode = .offline ∧ s.inst.autoIburst = true ∧
      connectivity.isOnline (s.answers s.asked).connectable = true)) :
    Ends (fun _ => True) (setConnectivity connectivity) s fun _ s' =>
      NoNewBurst s.inst s'.inst := by
  rw [setConnectivity]
  refine ask_ends_eq (getInst_ends ?_)
  split
  next honline =>
      split
      · exact id
      next hmode =>
          refine modifyInst_ends (modifyInst_ends ?_)
          refine (startInitialTimeout_calm _).bind fun _ s₁ h₁ => ?_
          have hnot : ¬s₁.inst.InBurst := Instance.not_inBurst_of_online h₁.opmode
          refine .onlyIf (fun hauto => ?_) fun _ hburst => absurd hburst hnot
          have hactive : s₁.inst.mode = .active := by
            refine h₁.mode.trans ?_
            cases hclient : s.inst.mode with
            | active => rfl
            | client => exact absurd ⟨hclient, hmode, hauto, honline⟩ h
          rw [initiateSampleBurst]
          refine getInst_ends ?_
          rw [hactive]
          exact fun hburst => absurd hburst hnot
      · exact id
      next hmode => exact fun _ => .inl hmode
  · split
    · exact (takeOffline_ends_burst _).mono fun _ _ h hburst => absurd hburst h
    · exact id
    next hmode => exact fun _ => .inr hmode
    · exact id

/-! ### Steps -/

/-- The transmit timeout of the association is dispatched by the event. -/
def World.TransmitTimeout (w : World) (event : Event × (ℕ → Answers)) : Prop :=
  ∃ now ptr rest, event.1 = .dispatch now ∧ w.sched.timerQueue = ptr :: rest ∧ now ≥ ptr.ts ∧
    ptr.arg = .inst ∧ ptr.handler = .transmitTimeout

/-- **A burst is initiated by the event**: by a request, by an association with the `iburst`
option which becomes online, or by the transmit timeout with the `burst` option. -/
def World.InitiatesBurst (w : World) (event : Event × (ℕ → Answers)) : Prop :=
  match event.1, w.inst with
  | .create params _ _, none =>
      params.mode = .client ∧ params.iburst = true ∧
        params.connectivity.isOnline (event.2 0).connectable = true
  | .initiateSampleBurst _ _, some inst => inst.mode = .client ∧ ¬inst.InBurst
  | .setConnectivity connectivity, some inst =>
      inst.mode = .client ∧ inst.opmode = .offline ∧ inst.autoIburst = true ∧
        connectivity.isOnline (event.2 0).connectable = true
  | .dispatch _, some inst => w.TransmitTimeout event ∧ inst.StartsBurst
  | _, _ => False

/-- **A KoD RATE response is accepted in a burst.** It is the first valid response to the last
request of the association. -/
def World.AcceptsKodRate (w : World) (event : Event × (ℕ → Answers)) : Prop :=
  ∃ inst localAddr rxTs message, w.inst = some inst ∧
    event.1 = .processRxKnown localAddr rxTs (some message) ∧ inst.InBurst ∧
    procPacket inst.mode message.mode = true ∧ localAddr.sockFd = inst.localAddr.sockFd ∧
    inst.txSuspended = false ∧ inst.validRx = false ∧
    (packetTests inst (event.2 0).checkAuth message).validPacket = true ∧
    isKodRate (packetTests inst (event.2 0).checkAuth message) message = true

/-- The association is in a burst, and its last request was answered. -/
def World.Waiting (w : World) : Prop :=
  ∃ inst, w.inst = some inst ∧ inst.InBurst ∧ inst.Answered

/-- There is no association in a burst. -/
def World.NoBurst (w : World) : Prop :=
  ∀ inst, w.inst = some inst → ¬inst.InBurst

/-- What a program leaves in the association. -/
theorem World.exec_eq_ok {inst : Instance} {answers : ℕ → Answers} {m : M Unit}
    (h : w.exec inst answers m = .ok w') :
    ∃ s', m (w.state inst answers) = .ok ((), s') ∧ w'.inst = some s'.inst ∧
      w'.history = s'.history := by
  rw [World.exec] at h
  change (m (w.state inst answers)).map _ = _ at h
  cases hm : m (w.state inst answers) with
  | error e =>
      rw [hm] at h
      cases h
  | ok r =>
      rw [hm] at h
      obtain rfl := Except.ok.inj h
      exact ⟨r.2, rfl, rfl, rfl⟩

theorem World.exec_alters {r : Instance → Instance → Prop} {inst : Instance}
    {answers : ℕ → Answers} {m : M Unit} (hm : Alters r m)
    (h : w.exec inst answers m = .ok w') : ∃ inst', w'.inst = some inst' ∧ r inst inst' := by
  obtain ⟨s', hs', hinst, -⟩ := World.exec_eq_ok h
  exact ⟨s'.inst, hinst, (hm _).value hs'⟩

/-- **What is dispatched**: a timeout of the association, or nothing which concerns it. -/
theorem World.dispatch_eq_ok (hw : w.Invariant) {answers : ℕ → Answers} {now : ℚ}
    (h : w.dispatch answers now = .ok w') :
    w'.inst = w.inst ∧ w'.history = w.history ∨ ∃ inst ptr rest q s', w.inst = some inst ∧
      w.sched.timerQueue = ptr :: rest ∧ now ≥ ptr.ts ∧ ptr.arg = .inst ∧
      inst.timeoutId ptr.handler ≠ 0 ∧
      Timers q (Function.update inst.timeoutId ptr.handler 0) ∧
      ptr.handler.program { w.state inst answers with sched := q } = .ok ((), s') ∧
      w'.inst = some s'.inst ∧ w'.history = s'.history := by
  rw [World.dispatch] at h
  split at h
  · exact .inl (Except.ok.inj h ▸ ⟨rfl, rfl⟩)
  next ptr rest hqueue =>
      have hmem : ptr ∈ w.sched.timerQueue := by
        rw [hqueue]
        exact List.mem_cons_self
      split at h
      next hnow =>
          rw [bind_eq_ok_iff] at h
          obtain ⟨q, hq, h⟩ := h
          split at h
          · exact .inl (Except.ok.inj h ▸ ⟨rfl, rfl⟩)
          · cases h
          next inst harg hinst =>
              rw [World.Invariant, hinst] at hw
              have hT := (hw answers).1.base.timers
              obtain ⟨hne, hid⟩ := (hT.owned_iff ptr.id ptr.handler).mp ⟨ptr, hmem, harg, rfl, rfl⟩
              obtain ⟨q', hq', hT'⟩ := (lastClassDispatch_timers hT
                (Function.update w.sched.lastClassDispatch ptr.cls now)).remove ptr.handler
              obtain ⟨s', hs', hinst', hhistory⟩ := World.exec_eq_ok h
              rw [hid] at hq'
              rw [World.state] at hq'
              dsimp only at hq'
              rw [hq'] at hq
              obtain rfl := Except.ok.inj hq
              exact .inr ⟨inst, ptr, rest, q', s', hinst, hqueue, hnow, harg, hid ▸ hne, hT', hs',
                hinst', hhistory⟩
      · exact .inl (Except.ok.inj h ▸ ⟨rfl, rfl⟩)

theorem Waits.waiting {inst : Instance} (hinst : w.inst = some inst) (hwait : w.Waiting)
    (h : ∃ inst', w'.inst = some inst' ∧ Waits inst inst') : w'.Waiting := by
  obtain ⟨inst₁, hinst₁, hburst, hanswered⟩ := hwait
  obtain rfl := Option.some.inj (hinst.symm.trans hinst₁)
  obtain ⟨inst', hinst', hwaits⟩ := h
  exact ⟨inst', hinst', hwaits ⟨hburst, hanswered⟩⟩

theorem World.Waiting.of_inst_eq (hwait : w.Waiting) (h : w'.inst = w.inst) : w'.Waiting := by
  obtain ⟨inst, hinst, hrest⟩ := hwait
  exact ⟨inst, h.trans hinst, hrest⟩

theorem dispatch_waiting (hw : w.Invariant) (hwait : w.Waiting) {answers : ℕ → Answers} {now : ℚ}
    (hnot : ¬w.TransmitTimeout (.dispatch now, answers)) (h : w.dispatch answers now = .ok w') :
    w'.Waiting := by
  rcases World.dispatch_eq_ok hw h with
    ⟨hsame, -⟩ | ⟨inst, ptr, rest, q, s', hinst, hqueue, hnow, harg, -, -, hs', hinst', -⟩
  · exact hwait.of_inst_eq hsame
  · have hk : ptr.handler ≠ .transmitTimeout :=
      fun hk => hnot ⟨now, ptr, rest, rfl, hqueue, hnow, harg, hk⟩
    exact Waits.waiting hinst hwait ⟨s'.inst, hinst', (Handler.program_waits hk _).value hs'⟩

theorem changeClock_alters {r : Instance → Instance → Prop}
    (hcalm : ∀ inst inst', Calm inst inst' → r inst inst') {answers : ℕ → Answers}
    {cooked : Timespec} {dfreq doffset : ℚ} {changeType : Sched.ChangeType} {inst : Instance}
    (hinst : w.inst = some inst)
    (h : w.changeClock answers cooked dfreq doffset changeType = .ok w') :
    ∃ inst', w'.inst = some inst' ∧ r inst inst' := by
  rw [World.changeClock] at h
  dsimp only at h
  rw [hinst] at h
  dsimp only at h
  split at h
  · exact World.exec_alters ((reset_calm.bind fun _ => resetPoll_calm).mono hcalm) h
  · obtain rfl := Except.ok.inj h
    exact ⟨_, rfl, hcalm _ _ ⟨rfl, rfl, id⟩⟩

/-- **The burst goes on until the transmit timeout**, and no response is accepted. -/
theorem step_waiting (hw : w.Invariant) (hwait : w.Waiting) {event : Event × (ℕ → Answers)}
    (hnot : ¬w.TransmitTimeout event ∧ event.1 ≠ .destroy) (h : step w event = .ok w') :
    w'.Waiting := by
  obtain ⟨event, answers⟩ := event
  obtain ⟨htx, hdestroy⟩ := hnot
  rw [step] at h
  dsimp only at h hdestroy
  split at h
  next hnone =>
      obtain ⟨inst, hinst, -⟩ := hwait
      rw [hnone] at hinst
      cases hinst
  · exact Except.ok.inj h ▸ hwait
  · exact absurd rfl hdestroy
  · exact absurd rfl hdestroy
  · exact dispatch_waiting hw hwait htx h
  · obtain ⟨inst, hinst, -⟩ := id hwait
    exact Waits.waiting hinst hwait (changeClock_alters (fun _ _ => Calm.waits) hinst h)
  · obtain ⟨inst, hinst, -⟩ := id hwait
    exact Waits.waiting hinst hwait (changeClock_alters (fun _ _ => Calm.waits) hinst h)
  · rw [bind_eq_ok_iff] at h
    obtain ⟨_, -, h⟩ := h
    exact Except.ok.inj h ▸ hwait
  · split at h
    · rw [bind_eq_ok_iff] at h
      obtain ⟨_, -, h⟩ := h
      exact Except.ok.inj h ▸ hwait
    · exact Except.ok.inj h ▸ hwait
  next inst _ _ _ _ _ _ _ hinst =>
      exact Waits.waiting hinst hwait (World.exec_alters (Event.program_waits _) h)
  · exact Except.ok.inj h ▸ hwait

/-- **The transmit timeout after an answered request.** -/
theorem step_transmitTimeout (hwait : w.Waiting) {event : Event × (ℕ → Answers)}
    (htx : w.TransmitTimeout event) (h : step w event = .ok w') :
    ∃ inst inst', w.inst = some inst ∧ w'.inst = some inst' ∧ inst.InBurst ∧
      Transmits inst inst' := by
  obtain ⟨now, ptr, rest, hevent, hqueue, hnow, harg, hhandler⟩ := htx
  obtain ⟨inst, hinst, hburst, hanswered⟩ := hwait
  obtain ⟨event, answers⟩ := event
  dsimp only at hevent
  subst hevent
  have h : w.dispatch answers now = .ok w' := h
  rw [World.dispatch, hqueue] at h
  dsimp only at h
  rw [if_pos hnow, bind_eq_ok_iff] at h
  obtain ⟨q, hq, h⟩ := h
  rw [harg, hinst, hhandler] at h
  obtain ⟨s', hs', hinst', -⟩ := World.exec_eq_ok h
  exact ⟨inst, s'.inst, hinst, hinst', hburst, (transmitTimeout_transmits hanswered).value hs'⟩

/-- A valid response which is not synchronised is accepted with no effect on the mode. -/
theorem finishResponse_unsynced (saved : Bool) (r : Response) {t : Tests}
    (hrx : s.inst.validRx = false) (hvalid : t.validPacket = true)
    (hsynced : t.syncedPacket = false) :
    Ends (fun _ => True) (finishResponse saved r t) s fun _ s' =>
      s'.inst.opmode = s.inst.opmode ∧ s'.inst.Answered := by
  rw [finishResponse]
  refine getInst_ends (ask_ends fun a n => modifyInst_ends (getInst_ends ?_))
  have hgood : (sampleTests s.inst t a).goodPacket = false := by
    rw [sampleTests, if_neg (by rw [hsynced]; exact fun h => absurd h.1 Bool.false_ne_true)]
    rfl
  generalize sampleTests s.inst t a = u at hgood ⊢
  have hcalm := updateTimestamps_calm r t u.goodPacket s.inst
  have hrx' : (updateTimestamps r t u.goodPacket s.inst).validRx = false := by
    rw [← hrx]
    unfold updateTimestamps
    split_ifs <;> rfl
  dsimp only
  rw [if_neg (by rw [hrx']; exact Bool.false_ne_true), if_pos hvalid]
  refine modifyInst_ends (Ends.bind (acceptResponse_alters (r := Calm) (fun _ _ => id) saved r t
    (processMeasurement_calm hgood) _) fun _ s' h' => ?_)
  exact ⟨h'.opmode.trans hcalm.opmode, h'.answered (.inl rfl)⟩

/-- **A KoD RATE response in a burst**: the request is answered, and the burst goes on. -/
theorem step_kodRate {event : Event × (ℕ → Answers)} (hkod : w.AcceptsKodRate event)
    (h : step w event = .ok w') : w'.Waiting := by
  obtain ⟨inst, localAddr, rxTs, message, hinst, hevent, hburst, hproc, hsock, hsus, hrx, hvalid,
    hrate⟩ := hkod
  obtain ⟨event, answers⟩ := event
  dsimp only at hevent hvalid hrate
  subst hevent
  rw [step, hinst] at h
  obtain ⟨s', hs', hinst', -⟩ := World.exec_eq_ok h
  -- a KoD packet does not claim to be synchronised, so it is neither saved nor good
  have hsynced : (packetTests inst (answers 0).checkAuth message).syncedPacket = false := by
    simp only [isKodRate, Bool.and_eq_true, decide_eq_true_eq] at hrate
    simp [Tests.syncedPacket, packetTests, hrate.1.1.2]
  have hends : Ends (fun _ => True) (processRxKnown localAddr rxTs (some message))
      (w.state inst answers) fun _ s' => s'.inst.InBurst ∧ s'.inst.Answered := by
    rw [processRxKnown]
    refine modifyInst_ends (getInst_ends ?_)
    dsimp only
    rw [if_pos ⟨hproc, hsock, by
      rintro (hoff | hsus')
      · exact Instance.not_inBurst_of_offline hoff hburst
      · exact absurd (hsus.symm.trans hsus') Bool.false_ne_true⟩, processResponse]
    refine getInst_ends (ask_ends_eq ?_)
    have hsavable : isSavable inst (packetTests inst (answers 0).checkAuth message)
        (answers 0).hwTsEnabled = false := by
      simp [isSavable, hsynced]
    refine Ends.mono (Q := fun _ s' => s'.inst.opmode = inst.opmode ∧ s'.inst.Answered) ?_
      fun _ s' h' => ⟨(SameBurst.of_opmode h'.1).mpr hburst, h'.2⟩
    dsimp only
    split
    next htrue => exact absurd (hsavable.symm.trans htrue) Bool.false_ne_true
    · exact finishResponse_unsynced _ _ hrx hvalid hsynced
  have hprogram : Ends (fun _ => True)
      (Event.program (.processRxKnown localAddr rxTs (some message))) (w.state inst answers)
      fun _ s' => s'.inst.InBurst ∧ s'.inst.Answered :=
    hends.bind fun _ _ h' => h'
  exact ⟨s'.inst, hinst', hprogram.value hs'⟩

theorem initiateSampleBurst_noNewBurst {nGoodSamples nTotalSamples : ℤ}
    (h : ¬(s.inst.mode = .client ∧ ¬s.inst.InBurst)) :
    Ends (fun _ => True) (initiateSampleBurst nGoodSamples nTotalSamples) s fun _ s' =>
      NoNewBurst s.inst s'.inst := by
  rw [initiateSampleBurst]
  refine getInst_ends ?_
  split
  · exact id
  · exact id
  · exact id
  next hclient hoff hon =>
      exact absurd ⟨hclient, fun hburst => hburst.elim (absurd · hoff) (absurd · hon)⟩ h

/-- **Only `NCR_InitiateSampleBurst` starts a burst.** -/
theorem Event.program_noNewBurst {inst : Instance} {event : Event} {answers : ℕ → Answers}
    (hinst : w.inst = some inst) (hnot : ¬w.InitiatesBurst (event, answers)) :
    Ends (fun _ => True) event.program (w.state inst answers) fun _ s' =>
      NoNewBurst inst s'.inst := by
  rw [World.InitiatesBurst, hinst] at hnot
  have hcalm : ∀ m : M Unit, Alters Calm m → Ends (fun _ => True) m (w.state inst answers)
      fun _ s' => NoNewBurst inst s'.inst := fun m hm => hm.sameBurst.noNewBurst _
  cases event with
  | start => exact hcalm _ startInstance_calm
  | setConnectivity connectivity => exact setConnectivity_noNewBurst hnot
  | initiateSampleBurst nGood nTotal => exact initiateSampleBurst_noNewBurst hnot
  | reset => exact hcalm _ reset_calm
  | resetPoll => exact hcalm _ resetPoll_calm
  | changeRemoteAddress remoteAddr => exact hcalm _ (changeRemoteAddress_calm remoteAddr)
  | modifyMinpoll newMinpoll => exact hcalm _ (modifyMinpoll_calm newMinpoll)
  | modifyMaxpoll newMaxpoll => exact hcalm _ (modifyMaxpoll_calm newMaxpoll)
  | modifyMaxdelay newMaxDelay => exact hcalm _ (modifyMaxdelay_calm newMaxDelay)
  | processRxKnown localAddr rxTs message =>
      exact ((processRxKnown_noNewBurst localAddr rxTs message).bind fun _ => .pure _) _
  | processTxKnown txTs message => exact processTxKnown_noNewBurst txTs message _
  | create => exact hcalm _ (.pure _)
  | destroy => exact hcalm _ (.pure _)
  | dispatch => exact hcalm _ (.pure _)
  | slew => exact hcalm _ (.pure _)
  | unknownStep => exact hcalm _ (.pure _)
  | addOther => exact hcalm _ (.pure _)
  | removeOther => exact hcalm _ (.pure _)

theorem dispatch_noBurst (hw : w.Invariant) (hno : w.NoBurst) {answers : ℕ → Answers} {now : ℚ}
    (hnot : ¬w.InitiatesBurst (.dispatch now, answers)) (h : w.dispatch answers now = .ok w') :
    w'.NoBurst := by
  rcases World.dispatch_eq_ok hw h with
    ⟨hsame, -⟩ | ⟨inst, ptr, rest, q, s', hinst, hqueue, hnow, harg, hid, hT, hs', hinst', -⟩
  · exact fun inst hinst => hno inst (hsame.symm.trans hinst)
  rw [World.InitiatesBurst, hinst] at hnot
  have hburst := hno inst hinst
  have hafter : ¬s'.inst.InBurst := by
    cases hk : ptr.handler with
    | transmitTimeout =>
        rw [hk] at hid hT hs'
        rw [World.Invariant, hinst] at hw
        have hsound := (hw answers).1
        refine transmitTimeout_noNewBurst hsound ?_ hT hburst ?_ hs'
        · by_contra hsus
          exact hid (hsound.suspended (by simpa using hsus))
        · exact fun hstarts => hnot ⟨⟨now, ptr, rest, rfl, hqueue, hnow, harg, hk⟩, hstarts⟩
    | receiveTimeout =>
        rw [hk] at hs'
        have hcalm : Alters Calm receiveTimeout :=
          .bind (.modifyInst fun _ => ⟨rfl, rfl, id⟩) fun _ => closeClientSocket_calm
        exact fun h' => hburst ((hcalm.sameBurst _).value hs' |>.mp h')
    | savedResponseTimeout =>
        rw [hk] at hs'
        have hnew : Alters NoNewBurst savedResponseTimeout :=
          .bind (.modifyInst fun _ => id) fun _ => processSavedResponse_noNewBurst
        exact fun h' => hburst ((hnew _).value hs' h')
    | other => exact absurd (by rw [hk]; rfl) hid
  intro inst₁ hinst₁
  obtain rfl := Option.some.inj (hinst'.symm.trans hinst₁)
  exact hafter

theorem changeClock_noBurst (hno : w.NoBurst) {answers : ℕ → Answers} {cooked : Timespec}
    {dfreq doffset : ℚ} {changeType : Sched.ChangeType}
    (h : w.changeClock answers cooked dfreq doffset changeType = .ok w') : w'.NoBurst := by
  cases hinst : w.inst with
  | none =>
      rw [World.changeClock] at h
      dsimp only at h
      rw [hinst] at h
      obtain rfl := Except.ok.inj h
      exact fun inst hinst => by cases hinst
  | some inst =>
      obtain ⟨inst', hinst', hnew⟩ :=
        changeClock_alters (fun _ _ h => h.sameBurst.mp) hinst h
      intro inst₁ hinst₁ hburst
      obtain rfl := Option.some.inj (hinst'.symm.trans hinst₁)
      exact hno inst hinst (hnew hburst)

/-- **No burst starts**, unless it is initiated. -/
theorem step_noBurst (hw : w.Invariant) (hno : w.NoBurst) {event : Event × (ℕ → Answers)}
    (hnot : ¬w.InitiatesBurst event) (h : step w event = .ok w') : w'.NoBurst := by
  have hkeep : ∀ {inst inst' : Instance}, w.inst = some inst → NoNewBurst inst inst' →
      w'.inst = some inst' → w'.NoBurst := by
    intro inst inst' hinst hnew hinst' inst₁ hinst₁ hburst
    obtain rfl := Option.some.inj (hinst'.symm.trans hinst₁)
    exact hno inst hinst (hnew hburst)
  obtain ⟨event, answers⟩ := event
  rw [step] at h
  dsimp only at h
  split at h
  next params remoteAddr sockFd hnone =>
      obtain ⟨s', hs', hinst', -⟩ := World.exec_eq_ok h
      rw [World.InitiatesBurst, hnone] at hnot
      have hnew : NoNewBurst (params.toInstance remoteAddr sockFd) s'.inst := by
        refine (setConnectivity_noNewBurst ?_).value hs'
        exact fun h => hnot ⟨h.1, h.2.2⟩
      intro inst₁ hinst₁ hburst
      obtain rfl := Option.some.inj (hinst'.symm.trans hinst₁)
      exact Instance.not_inBurst_of_offline rfl (hnew hburst)
  · exact Except.ok.inj h ▸ hno
  · exact Except.ok.inj h ▸ hno
  · rw [bind_eq_ok_iff] at h
    obtain ⟨_, -, h⟩ := h
    obtain rfl := Except.ok.inj h
    exact fun inst hinst => absurd hinst (by simp)
  · exact dispatch_noBurst hw hno hnot h
  · exact changeClock_noBurst hno h
  · exact changeClock_noBurst hno h
  · rw [bind_eq_ok_iff] at h
    obtain ⟨_, -, h⟩ := h
    exact Except.ok.inj h ▸ hno
  · split at h
    · rw [bind_eq_ok_iff] at h
      obtain ⟨_, -, h⟩ := h
      exact Except.ok.inj h ▸ hno
    · exact Except.ok.inj h ▸ hno
  next inst _ _ _ _ _ _ _ hinst =>
      obtain ⟨s', hs', hinst', -⟩ := World.exec_eq_ok h
      exact hkeep hinst ((Event.program_noNewBurst hinst hnot).value hs') hinst'
  · exact Except.ok.inj h ▸ hno

/-! ### Runs -/

/-- **When a burst is stopped by a KoD RATE response.** The response is accepted in a burst, and
other events follow up to the next transmit timeout. After the timeout, the association is in no
burst until a new one is initiated if and only if the timeout was to end the burst: one sample or
none was left for an association which was online, and none for one which was offline. -/
theorem kodRate_stops_burst_iff {now : ℚ} {before between : List (Event × (ℕ → Answers))}
    {kod timeout : Event × (ℕ → Answers)} {w₀ w₁ w₂ w₃ : World}
    (hbefore : run now before = .ok w₀) (hkod : w₀.AcceptsKodRate kod)
    (hstep : step w₀ kod = .ok w₁) (hbetween : between.foldlM step w₁ = .ok w₂)
    (hwait : Along step (fun w event => ¬w.TransmitTimeout event ∧ event.1 ≠ .destroy) w₁ between)
    (htimeout : w₂.TransmitTimeout timeout) (hafter : step w₂ timeout = .ok w₃) :
    (∀ after w, after.foldlM step w₃ = .ok w →
      Along step (fun w event => ¬w.InitiatesBurst event) w₃ after → w.NoBurst) ↔
    ∀ inst, w₂.inst = some inst → inst.BurstEnds := by
  have hinv₀ := (run_invariant now before).value hbefore
  have hinv₁ := ((step_returns hinv₀ kod).value hstep).1
  obtain ⟨hinv₂, hwaiting⟩ : w₂.Invariant ∧ w₂.Waiting :=
    foldlM_invariant_along (I := fun w => w.Invariant ∧ w.Waiting)
      (fun w event w' hw hnot h =>
        ⟨((step_returns hw.1 event).value h).1, step_waiting hw.1 hw.2 hnot h⟩)
      ⟨hinv₁, step_kodRate hkod hstep⟩ hwait hbetween
  have hinv₃ := ((step_returns hinv₂ timeout).value hafter).1
  obtain ⟨inst, inst', hinst, hinst', hburst, htransmits⟩ :=
    step_transmitTimeout hwaiting htimeout hafter
  constructor
  · intro hstops inst₁ hinst₁
    obtain rfl := Option.some.inj (hinst.symm.trans hinst₁)
    by_contra hends
    exact hstops [] w₃ rfl True.intro inst' hinst' (htransmits.goesOn hends)
  · intro hends after w hrun hnew
    have hno₃ : w₃.NoBurst := by
      intro inst₁ hinst₁
      obtain rfl := Option.some.inj (hinst'.symm.trans hinst₁)
      refine htransmits.ends (hends inst hinst) fun hstarts => ?_
      exact Instance.not_inBurst_of_online hstarts.2.1 hburst
    exact (foldlM_invariant_along (I := fun w => w.Invariant ∧ w.NoBurst)
      (fun w event w' hw hnot h =>
        ⟨((step_returns hw.1 event).value h).1, step_noBurst hw.1 hw.2 hnot h⟩)
      ⟨hinv₃, hno₃⟩ hnew hrun).2

/-- A client which is online sends the first request of a burst. -/
def kodRateBurst (nTotalSamples : ℤ) : List (Event × (ℕ → Answers)) :=
  [(.create ⟨.client, false, 6, 10, 100, 3, false, false, false, false, 0, .online⟩
      ⟨.inet4 2, 123⟩ 0, sampleAnswers false 7),
    (.start, sampleAnswers false 7),
    (.initiateSampleBurst 1 nTotalSamples, sampleAnswers false 7),
    (.dispatch 10, sampleAnswers false 7)]

/-- The KoD RATE response of the server. -/
def kodRateMessage : Message := ⟨.unsynchronised, .server, 0, 6, 0, 0, kodRate, 7, 1, 2⟩

/-- The response is received. -/
def kodRateEvent : Event × (ℕ → Answers) :=
  (.processRxKnown ⟨.inet4 1, 0, 5⟩ ⟨⟨1001, 0⟩, .kernel⟩ (some kodRateMessage),
    sampleAnswers false 7)

/-- The next transmission. -/
def kodRateTimeout : Event × (ℕ → Answers) := (.dispatch 20000, sampleAnswers false 8)

/-- The states before and after the response, and after the next transmission. -/
def kodRateRun (nTotalSamples : ℤ) : Except Abort (World × World × World) := do
  let w₀ ← run 0 (kodRateBurst nTotalSamples)
  let w₁ ← step w₀ kodRateEvent
  let w₂ ← step w₁ kodRateTimeout
  pure (w₀, w₁, w₂)

/-- What is read from the states of a run: whether the response can be accepted and the result
of its tests, whether the transmit timeout is the first one in the queue, and the operating mode
before and after the timeout with the number of samples to go. -/
structure KodRateView where
  ready : Option Bool
  tests : Option Tests
  timeout : Option Bool
  before : Option (OperatingMode × ℤ)
  after : Option OperatingMode
  deriving DecidableEq

/-- What is read from the states of the run. -/
def kodRateView (ws : World × World × World) : KodRateView where
  ready := ws.1.inst.map fun inst => decide (inst.opmode = .burstWasOnline ∧
    inst.mode = .client ∧ inst.localAddr.sockFd = 5 ∧ inst.txSuspended = false ∧
    inst.validRx = false)
  tests := ws.1.inst.map (packetTests · true kodRateMessage)
  timeout := ws.2.1.sched.timerQueue.head?.map fun ptr =>
    decide (20000 ≥ ptr.ts ∧ ptr.arg = .inst ∧ ptr.handler = .transmitTimeout)
  before := ws.2.1.inst.map fun inst => (inst.opmode, inst.burstTotalSamplesToGo)
  after := ws.2.2.inst.map (·.opmode)

/-- The run has the form of the theorem, with no events between the response and the timeout. -/
theorem kodRateRun_spec (nTotalSamples left : ℤ) (opmode : OperatingMode)
    (h : (kodRateRun nTotalSamples).toOption.map kodRateView =
      some ⟨some true, some ⟨true, true, false, true, true, false, true⟩, some true,
        some (.burstWasOnline, left), some opmode⟩) :
    ∃ w₀ w₁ w₂, run 0 (kodRateBurst nTotalSamples) = .ok w₀ ∧ w₀.AcceptsKodRate kodRateEvent ∧
      step w₀ kodRateEvent = .ok w₁ ∧ w₁.TransmitTimeout kodRateTimeout ∧
      step w₁ kodRateTimeout = .ok w₂ ∧
      (∃ inst, w₁.inst = some inst ∧ inst.opmode = .burstWasOnline ∧
        inst.burstTotalSamplesToGo = left) ∧
      ∃ inst, w₂.inst = some inst ∧ inst.opmode = opmode := by
  obtain ⟨⟨w₀, w₁, w₂⟩, hrun, hview⟩ := exists_ok_of_map_toOption h
  rw [kodRateRun, bind_eq_ok_iff] at hrun
  obtain ⟨w₀', h₀, hrun⟩ := hrun
  rw [bind_eq_ok_iff] at hrun
  obtain ⟨w₁', h₁, hrun⟩ := hrun
  rw [bind_eq_ok_iff] at hrun
  obtain ⟨w₂', h₂, hrun⟩ := hrun
  cases hrun
  obtain ⟨hready, htests, htimer, hleft, hmode⟩ := KodRateView.mk.inj hview
  obtain ⟨inst₀, hinst₀, hfields⟩ := Option.map_eq_some_iff.mp hready
  obtain ⟨inst₀', hinst₀', htests⟩ := Option.map_eq_some_iff.mp htests
  obtain rfl := Option.some.inj (hinst₀.symm.trans hinst₀')
  obtain ⟨hop, hclient, hsock, hsus, hrx⟩ := of_decide_eq_true hfields
  obtain ⟨inst₁, hinst₁, hleft⟩ := Option.map_eq_some_iff.mp hleft
  obtain ⟨inst₂, hinst₂, hmode⟩ := Option.map_eq_some_iff.mp hmode
  refine ⟨w₀, w₁, w₂, h₀, ?_, h₁, ?_, h₂, ⟨inst₁, hinst₁, Prod.mk.inj hleft⟩, inst₂, hinst₂, hmode⟩
  · refine ⟨inst₀, _, _, _, hinst₀, rfl, .inr hop, ?_, hsock.symm, hsus, hrx, ?_, ?_⟩
    · rw [hclient]
      rfl
    · exact (congrArg Tests.validPacket htests).trans rfl
    · exact (congrArg (isKodRate · kodRateMessage) htests).trans rfl
  · obtain ⟨ptr, hptr, htimer⟩ := Option.map_eq_some_iff.mp htimer
    obtain ⟨rest, hqueue⟩ := List.head?_eq_some_iff.mp hptr
    exact ⟨20000, ptr, rest, rfl, hqueue, of_decide_eq_true htimer⟩

/-- The burst is stopped when the KoD RATE response is received before its last sample. -/
theorem kodRate_stops_burst_last : ∃ w₀ w₁ w₂, run 0 (kodRateBurst 2) = .ok w₀ ∧
    w₀.AcceptsKodRate kodRateEvent ∧ step w₀ kodRateEvent = .ok w₁ ∧
    step w₁ kodRateTimeout = .ok w₂ ∧ w₂.NoBurst := by
  obtain ⟨w₀, w₁, w₂, h₀, hkod, h₁, htimeout, h₂, ⟨inst, hinst, hmode, hleft⟩, -⟩ :=
    kodRateRun_spec 2 1 .online (by decide +kernel)
  have hends : ∀ inst, w₁.inst = some inst → inst.BurstEnds := by
    intro inst' hinst'
    obtain rfl := Option.some.inj (hinst.symm.trans hinst')
    refine ⟨fun _ => hleft.le, fun hoff => ?_⟩
    rw [hmode] at hoff
    cases hoff
  have hnone : ([] : List (Event × (ℕ → Answers))).foldlM step w₁ = .ok w₁ := rfl
  have hstops := (kodRate_stops_burst_iff h₀ hkod h₁ hnone True.intro htimeout h₂).mpr hends
  exact ⟨w₀, w₁, w₂, h₀, hkod, h₁, h₂, hstops [] w₂ rfl True.intro⟩

/-- **The burst goes on after a KoD RATE response** to the first of its four requests. -/
theorem kodRate_does_not_stop_burst : ∃ w₀ w₁ w₂, run 0 (kodRateBurst 4) = .ok w₀ ∧
    w₀.AcceptsKodRate kodRateEvent ∧ step w₀ kodRateEvent = .ok w₁ ∧
    w₁.TransmitTimeout kodRateTimeout ∧ step w₁ kodRateTimeout = .ok w₂ ∧ ¬w₂.NoBurst := by
  obtain ⟨w₀, w₁, w₂, h₀, hkod, h₁, htimeout, h₂, -, inst, hinst, hmode⟩ :=
    kodRateRun_spec 4 3 .burstWasOnline (by decide +kernel)
  exact ⟨w₀, w₁, w₂, h₀, hkod, h₁, htimeout, h₂, fun hno => hno inst hinst (.inr hmode)⟩

end Chrony.NtpCore
