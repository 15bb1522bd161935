import Chrony.NtpCore.Handlers

/-!
# Requests and Timeouts

What the handlers of the three timeouts leave. When a handler starts, the scheduler has
removed its timeout already, but the identifier is still stored in the association.

## Main results

* `transmitTimeout_ends`: the next transmission is scheduled, or the association is offline.
* `Handler.program_ends`: every handler keeps the timers and at most one accepted response.
-/

namespace Chrony.NtpCore

open Lib Program

variable {s s' : State}

/-- What is left by a handler or an operation. -/
structure Handled (s s' : State) : Prop where
  sound : Sound s'
  armed : Armed s'
  atMostOne : AtMostOne s → AtMostOne s'

theorem Step.handled (h : Step s s') (harmed : Armed s') : Handled s s' :=
  ⟨h.sound, harmed, h.atMostOne⟩

/-! ### Requests -/

theorem updateOpmode_steps : Maintains Step updateOpmode := by
  refine .getInst fun s hs => ?_
  split
  next hmode =>
      refine .onlyIf (fun _ => ?_) fun _ => Frame.of_stay hs.stay
      exact setOpmode_step hs OperatingMode.noConfusion (by rw [hmode]; decide)
  · exact .onlyIf (fun _ => takeOffline_steps s hs) fun _ => Frame.of_stay hs.stay
  · refine .onlyIf (fun _ => ?_) fun _ => Frame.of_stay hs.stay
    exact initiateSampleBurst_steps _ _ s hs
  · exact Frame.of_stay hs.stay

theorem prepareRequestAuth_stays : Maintains Stay prepareRequestAuth := by
  refine .ask fun a => ?_
  split
  · exact .pure _
  next remoteAddr _ => exact (changeRemoteAddress_stays remoteAddr).bind fun _ => .pure _

/-- **The old socket is closed** before a new one is opened. -/
theorem openClientSocket_stays : Maintains Stay openClientSocket := by
  refine .getInst fun s hs => ?_
  split
  · exact hs.stay
  next hmode =>
      refine (closeClientSocket_ends hs.base).bind fun _ s₁ h₁ => ?_
      have hstay := h₁.stay hs
      refine getInst_ends (Ends.assert (h₁.sockFd hmode) (ask_ends fun a n => ?_))
      have hranges := h₁.base.ranges
      exact Frame.trans hstay (Still.stay hstay.sound ⟨⟨h₁.base.timers, hranges.localPoll,
        hranges.minpoll, hranges.maxpoll, hranges.maxDelay⟩, rfl, rfl⟩)

/-- What is left by `transmit_packet`, when the association is prepared for the response. -/
structure Sent (s s' : State) : Prop where
  sound : Sound s'
  txSuspended : s'.inst.txSuspended = s.inst.txSuspended
  history : OnePerRequest s.history → OnePerRequest s'.history
  accepted : acceptedSince s'.history = 0

theorem Sent.trans_step {s'' : State} (h : Sent s s') (h' : Step s' s'') : Sent s s'' := by
  refine ⟨h'.sound, h'.txSuspended.trans h.txSuspended, ?_, ?_⟩
  · rw [h'.history]
    exact h.history
  · rw [h'.history]
    exact h.accepted

theorem transmitPacket_ends (hs : Sound s) :
    Ends OutOfIds transmitPacket s fun _ s' => Sent s s' := by
  have hranges := hs.base.ranges
  rw [transmitPacket]
  refine ask_ends fun a n => ?_
  refine record_ends ?_
  have haccepted := acceptedSince_transmitted s.history
  split
  · exact ⟨hs.of_fields rfl hranges id id, rfl, .transmitted, haccepted⟩
  · refine modifyInst_ends ⟨?_, rfl, .transmitted, haccepted⟩
    exact hs.of_fields rfl ⟨hranges.localPoll, hranges.minpoll, hranges.maxpoll, hranges.maxDelay⟩
      id id

theorem missResponse_keeps (sent : Bool) : Keeps (missResponse sent) := by
  refine .getInst fun inst => .onlyIf (.ask fun a => ?_)
  refine (Keeps.onlyIf (adjustPoll_keeps _)).bind fun _ => ?_
  exact updateSource_keeps.bind fun _ => processSample_keeps false

theorem countBurstRequest_stays (sent : Bool) : Maintains Stay (countBurstRequest sent) := by
  refine .ask fun a => .of_keeps ?_
  refine .modifyInst (fun inst h => ?_) (fun s => ?_) fun inst => ?_
  · have hranges : ∀ n : ℤ, { inst with burstTotalSamplesToGo := n }.Ranges :=
      fun n => ⟨h.localPoll, h.minpoll, h.maxpoll, h.maxDelay⟩
    split
    · split
      · exact h
      · exact hranges _
    · exact hranges _
    · exact h
    · exact h
  · rw [State.control]
    split
    · split <;> rfl
    all_goals rfl
  · split
    · split <;> rfl
    all_goals rfl

/-- **The timers after a transmission**: a client waits for the response for a limited
time. -/
theorem restartTimers_ends (hs : Sound s) (hmode : s.inst.opmode ≠ .offline)
    (hsus : s.inst.txSuspended = false) :
    Ends OutOfIds restartTimers s fun _ s' => Stay s s' ∧ Armed s' := by
  rw [restartTimers]
  refine getTransmitDelay_ends true hmode fun d n hd => ?_
  have hs₁ := hs.asked n
  refine (restartTimeout_ends hs₁.base hs.suspended hd).bind fun _ s₂ h₂ => getInst_ends ?_
  have hstay : Stay s s₂ := (h₂.stay hs₁ hmode).of_asked
  split
  · exact ⟨hstay, h₂.armed⟩
  · have hranges := h₂.base.ranges
    have hdelay : 0 ≤ s₂.inst.maxDelay + maxServerInterval := by
      have hpos : (0 : ℚ) ≤ maxServerInterval := by norm_num [maxServerInterval]
      exact add_nonneg hranges.maxDelay hpos
    refine addTimeoutByDelay_ends .receiveTimeout h₂.base.timers (h₂.running hsus).2 hdelay
      fun q id m _ hT => ?_
    refine ⟨Frame.trans hstay ?_, h₂.armed⟩
    refine .of_control rfl ⟨⟨hT.of_eq (setRx_timeoutId s₂.inst id), hranges.localPoll,
      hranges.minpoll, hranges.maxpoll, hranges.maxDelay⟩, ?_, hstay.sound.suspended⟩ fun h => h
    exact fun hoff => absurd (hstay.opmode.symm.trans hoff) hmode

theorem prepareForResponse_sound (hs : Sound s) :
    Sound { s with inst := s.inst.prepareForResponse } := by
  have hranges := hs.base.ranges
  exact hs.of_fields rfl ⟨hranges.localPoll, hranges.minpoll, hranges.maxpoll, hranges.maxDelay⟩
    id id

/-- **A request is sent**, and no response to it is accepted yet. -/
theorem sendRequest_ends (hs : Sound s) (hsus : s.inst.txSuspended = false) :
    Ends OutOfIds sendRequest s fun _ s' => Sent s s' ∧ Armed s' := by
  rw [sendRequest]
  refine (openClientSocket_stays s hs).bind fun _ s₁ h₁ => ?_
  refine modifyInst_ends ?_
  refine Ends.bind (transmitPacket_ends (prepareForResponse_sound h₁.sound)) ?_
  rintro sent s₂ ⟨hsound₂, hsus₂, hhistory, haccepted⟩
  have hsent : Sent s s₂ :=
    ⟨hsound₂, hsus₂.trans h₁.txSuspended, fun h => hhistory (h₁.history ▸ h), haccepted⟩
  have hranges := hsound₂.base.ranges
  refine modifyInst_ends ?_
  refine Ends.bind (missResponse_keeps sent _ ?_) ?_
  · exact ⟨hsound₂.base.timers, hranges.localPoll, hranges.minpoll, hranges.maxpoll,
      hranges.maxDelay⟩
  rintro _ s₃ ⟨hbase, hcontrol, htimeout⟩
  have hsent₃ := hsent.trans_step (Still.stay hsound₂ ⟨hbase, hcontrol, htimeout⟩).toStep
  refine getInst_ends ?_
  refine (Maintains.onlyIf (setConnectivity_steps .offline) s₃ hsent₃.sound).bind
    fun _ s₄ h₄ => ?_
  have hsent₄ := hsent₃.trans_step h₄
  refine (countBurstRequest_stays sent s₄ hsent₄.sound).bind fun _ s₅ h₅ => ?_
  have hsent₅ := hsent₄.trans_step h₅.toStep
  refine getInst_ends (.onlyIf (fun hmode => ?_) fun hmode => ?_)
  · refine (restartTimers_ends hsent₅.sound hmode (hsent₅.txSuspended.trans hsus)).mono
      fun _ s' ⟨h', harmed⟩ => ?_
    exact ⟨hsent₅.trans_step h'.toStep, harmed⟩
  · exact ⟨hsent₅, fun hne => absurd (not_not.mp hmode) hne⟩

/-- **A request is sent, or the transmission is skipped.** The next one is scheduled in both
cases. -/
theorem transmitRequest_ends (hs : Sound s) (hsus : s.inst.txSuspended = false) :
    Ends OutOfIds transmitRequest s fun _ s' => Handled s s' := by
  rw [transmitRequest]
  refine (updateOpmode_steps s hs).bind fun _ s₁ h₁ => ?_
  refine getInst_ends (.onlyIf (fun hmode => ?_) fun hmode => ?_)
  · refine (prepareRequestAuth_stays s₁ h₁.sound).bind fun prepared s₂ h₂ => ?_
    have hstep : Step s s₂ := Frame.trans h₁ h₂.toStep
    split
    · refine (sendRequest_ends hstep.sound (hstep.txSuspended.trans hsus)).mono
        fun _ s' ⟨h', harmed⟩ => ?_
      exact ⟨h'.sound, harmed, fun hone => ⟨h'.history (hstep.history ▸ hone.1),
        .inl h'.accepted⟩⟩
    · refine (updateSource_keeps s₂ hstep.sound.base).bind fun _ s₃ h₃ => ?_
      have h₃ := h₃.stay hstep.sound
      have hmode₃ : s₃.inst.opmode ≠ .offline := fun hoff =>
        hmode ((h₃.opmode.trans h₂.opmode).symm.trans hoff)
      refine getTransmitDelay_ends true hmode₃ fun d n hd => ?_
      have hs₃ := h₃.sound.asked n
      refine (restartTimeout_ends hs₃.base hs₃.suspended hd).bind fun _ s₄ h₄ => ?_
      have hstay₄ := (h₄.stay hs₃ hmode₃).of_asked
      refine (processSample_keeps false s₄ h₄.base).mono fun _ s' h' => ?_
      have hstay' := h'.stay hstay₄.sound
      exact Step.handled (Frame.trans hstep (Frame.trans h₃ (Frame.trans hstay₄ hstay')).toStep)
        (hstay'.armed h₄.armed)
  · exact h₁.handled fun hne => absurd (not_not.mp hmode) hne

/-! ### Timeouts -/

/-- The identifier of a timeout whose handler is called is cleared. -/
theorem clearTx_sound (hs : Sound s) {q : Sched.State Handler Arg}
    (hT : Timers q (Function.update s.inst.timeoutId .transmitTimeout 0)) :
    Sound { s with sched := q, inst := { s.inst with txTimeoutId := 0 } } := by
  have hranges := hs.base.ranges
  refine ⟨⟨hT.of_eq (setTx_timeoutId _ 0), hranges.localPoll, hranges.minpoll, hranges.maxpoll,
    hranges.maxDelay⟩, fun hoff => ?_, fun _ => rfl⟩
  have hzero := hs.offline hoff
  exact timeoutId_eq_zero rfl (hzero .receiveTimeout) (hzero .savedResponseTimeout)

theorem clearRx_sound (hs : Sound s) {q : Sched.State Handler Arg}
    (hT : Timers q (Function.update s.inst.timeoutId .receiveTimeout 0)) :
    Sound { s with sched := q, inst := { s.inst with rxTimeoutId := 0 } } := by
  have hranges := hs.base.ranges
  refine ⟨⟨hT.of_eq (setRx_timeoutId _ 0), hranges.localPoll, hranges.minpoll, hranges.maxpoll,
    hranges.maxDelay⟩, fun hoff => ?_, hs.suspended⟩
  have hzero := hs.offline hoff
  exact timeoutId_eq_zero (hzero .transmitTimeout) rfl (hzero .savedResponseTimeout)

/-- **The transmission**: a saved response is processed first, and it can schedule the
transmission again. -/
theorem transmitTimeout_ends (hs : Sound s) (hsus : s.inst.txSuspended = false)
    {q : Sched.State Handler Arg}
    (hT : Timers q (Function.update s.inst.timeoutId .transmitTimeout 0)) :
    Ends OutOfIds transmitTimeout { s with sched := q } fun _ s' => Handled s s' := by
  rw [transmitTimeout]
  refine modifyInst_ends (getInst_ends ?_)
  have hs₁ := clearTx_sound hs hT
  split
  next hsaved =>
      refine Ends.bind (processSavedResponse_ends hs₁
        (savedResponse_isSome (hasSavedResponse_iff.mp hsaved))) fun _ s₂ h₂ => ?_
      have hone : AtMostOne s → AtMostOne s₂ := h₂.atMostOne
      refine getInst_ends (.onlyIf (fun _ => ?_) fun htx => ?_)
      · refine (transmitRequest_ends h₂.sound (h₂.txSuspended.trans hsus)).mono fun _ s' h' => ?_
        exact ⟨h'.sound, h'.armed, h'.atMostOne ∘ hone⟩
      · exact ⟨h₂.sound, fun _ _ => htx, hone⟩
  next =>
      refine (transmitRequest_ends hs₁ hsus).mono fun _ s' h' => ?_
      exact ⟨h'.sound, h'.armed, h'.atMostOne⟩

theorem receiveTimeout_ends (hs : Sound s) (harmed : Armed s) {q : Sched.State Handler Arg}
    (hT : Timers q (Function.update s.inst.timeoutId .receiveTimeout 0)) :
    Ends OutOfIds receiveTimeout { s with sched := q } fun _ s' => Handled s s' := by
  rw [receiveTimeout]
  refine modifyInst_ends ((closeClientSocket_stays _ (clearRx_sound hs hT)).mono fun _ s' h => ?_)
  exact ⟨h.sound, h.armed harmed, h.toStep.atMostOne⟩

theorem savedResponseTimeout_ends (hs : Sound s) (harmed : Armed s)
    (hsaved : s.inst.savedTimeoutId ≠ 0) {q : Sched.State Handler Arg}
    (hT : Timers q (Function.update s.inst.timeoutId .savedResponseTimeout 0)) :
    Ends OutOfIds savedResponseTimeout { s with sched := q } fun _ s' => Handled s s' := by
  rw [savedResponseTimeout]
  refine modifyInst_ends ?_
  have hsome : s.inst.clearSavedTimeout.savedResponse.isSome = true := by
    rw [Instance.clearSavedTimeout, Option.isSome_map]
    exact savedResponse_isSome hsaved
  refine (processSavedResponse_ends (clearSavedTimeout_sound hs hT) hsome).mono fun _ s' h => ?_
  exact ⟨h.sound, h.armed harmed, h.atMostOne⟩

/-- **Every handler can be called**, when its timeout is removed from the queue. -/
theorem Handler.program_ends (hs : Sound s) (harmed : Armed s) {k : Handler}
    (hk : s.inst.timeoutId k ≠ 0) {q : Sched.State Handler Arg}
    (hT : Timers q (Function.update s.inst.timeoutId k 0)) :
    Ends OutOfIds k.program { s with sched := q } fun _ s' => Handled s s' := by
  cases k with
  | transmitTimeout =>
      refine transmitTimeout_ends hs ?_ hT
      by_contra hsus
      exact hk (hs.suspended (by simpa using hsus))
  | receiveTimeout => exact receiveTimeout_ends hs harmed hT
  | savedResponseTimeout => exact savedResponseTimeout_ends hs harmed hk hT
  | other => exact absurd rfl hk

end Chrony.NtpCore
