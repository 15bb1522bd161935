import Chrony.NtpCore.Frame

/-!
# Operating Modes and Timers

Between the calls of the functions, an association which is offline has no timers, and one
which is not offline waits for its next transmission unless it is suspended. The first part
holds also inside of the functions (`Sound`); the second one is lost when the handler of
the transmission starts, and has to be restored by it (`Armed`).

## Main results

* `setConnectivity_steps`, `initiateSampleBurst_steps`, `changeRemoteAddress_stays`: the
  operations which change the mode or the address keep the invariant.
-/

namespace Chrony.NtpCore

open Lib Program

/-- **The timers agree with the operating mode.** -/
structure Sound (s : State) : Prop where
  base : Base s
  offline : s.inst.opmode = .offline → ∀ k, s.inst.timeoutId k = 0
  suspended : s.inst.txSuspended = true → s.inst.txTimeoutId = 0

/-- The next transmission is scheduled if it can be. -/
def Armed (s : State) : Prop :=
  s.inst.opmode ≠ .offline → s.inst.txSuspended = false → s.inst.txTimeoutId ≠ 0

/-- The fields which decide whether a response is accepted: a response was accepted already,
and the timestamps of the request which it can match. -/
def State.request (s : State) : Bool × BitVec 64 × BitVec 64 :=
  (s.inst.validRx, s.inst.localNtpRx, s.inst.localNtpTx)

/-- There is no request to which a response could be accepted. -/
def noRequest : Bool × BitVec 64 × BitVec 64 := (false, 0, 0)

/-- What functions do, when they neither send a request nor accept a response. -/
structure Step (s s' : State) : Prop where
  sound : Sound s'
  armed : Armed s → Armed s'
  mode : s'.inst.mode = s.inst.mode
  txSuspended : s'.inst.txSuspended = s.inst.txSuspended
  history : s'.history = s.history
  request : s'.request = s.request ∨ s'.request = noRequest

/-- What functions do, when they do not change the operating mode either. -/
structure Stay (s s' : State) : Prop extends Step s s' where
  opmode : s'.inst.opmode = s.inst.opmode

/-! ### Rules -/

variable {s s' : State} {α β : Type}

theorem State.request_eq (h : s'.control = s.control) : s'.request = s.request := by
  have hrx := congrArg Control.localNtpRx h
  have htx := congrArg Control.localNtpTx h
  have hvalid := congrArg Control.validRx h
  exact Prod.ext hvalid (Prod.ext hrx htx)

/-- The control and the timers of the transmission are kept. -/
theorem Stay.of_control (h : s'.control = s.control) (hsound : Sound s')
    (htx : s.inst.txTimeoutId ≠ 0 → s'.inst.txTimeoutId ≠ 0) : Stay s s' := by
  have hmode : s'.inst.opmode = s.inst.opmode := congrArg Control.opmode h
  have hsuspended : s'.inst.txSuspended = s.inst.txSuspended := congrArg Control.txSuspended h
  refine ⟨⟨hsound, ?_, congrArg Control.mode h, hsuspended, congrArg Control.history h,
    .inl (State.request_eq h)⟩, hmode⟩
  intro harmed hne hf
  exact htx (harmed (hmode ▸ hne) (hsuspended ▸ hf))

theorem Still.stay (hs : Sound s) (h : Still s s') : Stay s s' := by
  have htx : s'.inst.txTimeoutId = s.inst.txTimeoutId := congrFun h.timeoutId .transmitTimeout
  refine .of_control h.control ⟨h.base, ?_, ?_⟩ (htx ▸ id)
  · intro hoff k
    rw [h.timeoutId]
    exact hs.offline ((congrArg Control.opmode h.control).symm.trans hoff) k
  · intro hsus
    exact htx.trans (hs.suspended ((congrArg Control.txSuspended h.control).symm.trans hsus))

theorem Closed.stay (hs : Sound s) (h : Closed s s') : Stay s s' := by
  refine .of_control h.control ⟨h.base, ?_, ?_⟩ (h.tx ▸ id)
  · intro hoff
    have hoff' : s.inst.opmode = .offline := (congrArg Control.opmode h.control).symm.trans hoff
    exact timeoutId_eq_zero (h.tx.trans (hs.offline hoff' .transmitTimeout)) h.rx h.saved
  · intro hsus
    exact h.tx.trans (hs.suspended ((congrArg Control.txSuspended h.control).symm.trans hsus))

theorem Restarted.armed (h : Restarted s s') : Armed s' := by
  intro _ hf
  exact (h.running ((congrArg Control.txSuspended h.control).symm.trans hf)).1

/-- A timer is restarted only when the association is not offline. -/
theorem Restarted.stay (hs : Sound s) (hmode : s.inst.opmode ≠ .offline) (h : Restarted s s') :
    Stay s s' := by
  have hopmode : s'.inst.opmode = s.inst.opmode := congrArg Control.opmode h.control
  have hsuspended : s'.inst.txSuspended = s.inst.txSuspended :=
    congrArg Control.txSuspended h.control
  refine .of_control h.control ⟨h.base, fun hoff => absurd (hopmode ▸ hoff) hmode, ?_⟩ ?_
  · intro hsus
    rw [hsuspended] at hsus
    exact (congrFun (h.suspended hsus) .transmitTimeout).trans (hs.suspended hsus)
  · intro htx
    refine (h.running ?_).1
    by_contra hsus
    exact htx (hs.suspended (by simpa using hsus))

theorem TakenOffline.step (h : TakenOffline s s') : Step s s' where
  sound := ⟨h.base, fun _ => h.timeoutId, fun _ => h.timeoutId .transmitTimeout⟩
  armed _ hne := absurd (congrArg Control.opmode h.control) hne
  mode := congrArg Control.mode h.control
  txSuspended := congrArg Control.txSuspended h.control
  history := congrArg Control.history h.control
  request := .inr (Prod.ext (congrArg Control.validRx h.control)
    (Prod.ext (congrArg Control.localNtpRx h.control) (congrArg Control.localNtpTx h.control)))

/-- A relation between states which sequences of functions keep. -/
class Frame (R : State → State → Prop) : Prop where
  trans : ∀ {s s' s'' : State}, R s s' → R s' s'' → R s s''
  sound : ∀ {s s' : State}, R s s' → Sound s'
  of_stay : ∀ {s s' : State}, Stay s s' → R s s'

instance : Frame Step where
  trans h h' := by
    refine ⟨h'.sound, h'.armed ∘ h.armed, h'.mode.trans h.mode,
      h'.txSuspended.trans h.txSuspended, h'.history.trans h.history, ?_⟩
    rcases h'.request with heq | hnone
    · exact h.request.imp heq.trans heq.trans
    · exact .inr hnone
  sound h := h.sound
  of_stay h := h.toStep

instance : Frame Stay where
  trans h h' := ⟨Frame.trans h.toStep h'.toStep, h'.opmode.trans h.opmode⟩
  sound h := h.sound
  of_stay h := h

/-- **The function maintains the relation** from every sound state. -/
def Maintains (R : State → State → Prop) (m : M α) : Prop :=
  ∀ s, Sound s → Ends OutOfIds m s fun _ s' => R s s'

theorem Sound.stay (hs : Sound s) : Stay s s :=
  Still.stay hs (.refl hs.base)

namespace Maintains

variable {R : State → State → Prop} [Frame R] {m : M α} {f : α → M β}

theorem pure (a : α) : Maintains R (Pure.pure a : M α) :=
  fun _ hs => Frame.of_stay hs.stay

theorem of_keeps (h : Keeps m) : Maintains R m :=
  fun s hs => (h s hs.base).mono fun _ _ hstill => Frame.of_stay (hstill.stay hs)

/-- **The rule for a sequence.** -/
theorem bind (h : Maintains R m) (hf : ∀ a, Maintains R (f a)) : Maintains R (m >>= f) := by
  intro s hs
  refine (h s hs).bind fun a s₁ h₁ => ?_
  exact (hf a s₁ (Frame.sound h₁)).mono fun _ _ h₂ => Frame.trans h₁ h₂

omit [Frame R] in
theorem getInst {f : Instance → M β}
    (hf : ∀ s, Sound s → Ends OutOfIds (f s.inst) s fun _ s' => R s s') :
    Maintains R (NtpCore.getInst >>= f) :=
  fun s hs => getInst_ends (hf s hs)

theorem onlyIf {p : Prop} [Decidable p] {m : M Unit} (h : Maintains R m) :
    Maintains R (onlyIf p m) :=
  fun s hs => .onlyIf (fun _ => h s hs) fun _ => Frame.of_stay hs.stay

theorem ask {f : Answers → M β} (hf : ∀ a, Maintains R (f a)) :
    Maintains R (NtpCore.ask >>= f) :=
  bind (of_keeps (Keeps.ask (f := Pure.pure) Keeps.pure)) hf

end Maintains

/-! ### Functions -/

/-- The identifiers stored in the association and its ranges are kept by an assignment. -/
theorem Sound.of_fields (hs : Sound s) {inst : Instance} {history : List Action} {n : ℕ}
    (htimeout : inst.timeoutId = s.inst.timeoutId) (hranges : inst.Ranges)
    (hopmode : inst.opmode = .offline → s.inst.opmode = .offline)
    (hsuspended : inst.txSuspended = true → s.inst.txSuspended = true) :
    Sound { s with inst, history, asked := n } := by
  refine ⟨⟨htimeout ▸ hs.base.timers, hranges⟩, ?_, ?_⟩
  · intro hoff k
    exact (congrFun htimeout k).trans (hs.offline (hopmode hoff) k)
  · intro hsus
    exact (congrFun htimeout .transmitTimeout).trans (hs.suspended (hsuspended hsus))

theorem Sound.asked (hs : Sound s) (n : ℕ) : Sound { s with asked := n } :=
  ⟨⟨hs.base.timers, hs.base.ranges⟩, hs.offline, hs.suspended⟩

theorem Stay.of_asked {n : ℕ} (h : Stay { s with asked := n } s') : Stay s s' :=
  ⟨⟨h.sound, h.armed, h.mode, h.txSuspended, h.history, h.request⟩, h.opmode⟩

theorem reset_stays : Maintains Stay (modifyInst (·.reset)) := by
  intro s hs
  have hranges := hs.base.ranges
  exact ⟨⟨hs.of_fields rfl ⟨hranges.localPoll, hranges.minpoll, hranges.maxpoll, hranges.maxDelay⟩
    id id, id, rfl, rfl, rfl, .inr rfl⟩, rfl⟩

theorem closeClientSocket_stays : Maintains Stay closeClientSocket :=
  fun _ hs => (closeClientSocket_ends hs.base).mono fun _ _ h => h.stay hs

theorem startInitialTimeout_ends (hs : Sound s) (hmode : s.inst.opmode ≠ .offline) :
    Ends OutOfIds startInitialTimeout s fun _ s' => Stay s s' ∧ Armed s' := by
  have hrestart : ∀ (delay : ℚ) (n : ℕ), Ends OutOfIds
      (restartTimeout (if delay < initialDelay then initialDelay else delay))
      { s with asked := n } fun _ s' => Stay s s' ∧ Armed s' := by
    intro delay n
    have hdelay : 0 ≤ if delay < initialDelay then initialDelay else delay := by
      have hpos : (0 : ℚ) ≤ initialDelay := by norm_num [initialDelay]
      split
      · exact hpos
      next hge => exact hpos.trans (not_lt.mp hge)
    refine (restartTimeout_ends (hs.asked n).base hs.suspended hdelay).mono fun _ s' h => ?_
    exact ⟨(h.stay (hs.asked n) hmode).of_asked, h.armed⟩
  rw [startInitialTimeout]
  refine getInst_ends ?_
  split
  · exact getTransmitDelay_ends false hmode fun d n _ => hrestart d n
  · exact hrestart 0 s.asked

theorem takeOffline_steps : Maintains Step takeOffline :=
  fun _ hs => (takeOffline_ends hs.base).mono fun _ _ h => h.step

theorem resetPoll_stays : Maintains Stay resetPoll := by
  refine .bind (.of_keeps (.modifyInst (fun _ h => ⟨h.localPoll, h.minpoll, h.maxpoll, h.maxDelay⟩)
    (fun _ => rfl) fun _ => rfl)) fun _ => .getInst fun s hs => ?_
  refine .onlyIf (fun _ => ?_) fun _ => hs.stay
  have hranges := hs.base.ranges
  have h₁ : Stay s { s with inst := { s.inst with localPoll := s.inst.minpoll } } :=
    Still.stay hs ⟨⟨hs.base.timers, hranges.minpoll, hranges.minpoll, hranges.maxpoll,
      hranges.maxDelay⟩, rfl, rfl⟩
  refine modifyInst_ends (.onlyIf (fun htx => ?_) fun _ => h₁)
  have hmode : s.inst.opmode ≠ .offline := fun hoff => htx (hs.offline hoff .transmitTimeout)
  refine getTransmitDelay_ends false hmode fun d n hd => ?_
  refine (restartTimeout_ends (h₁.sound.asked n).base hs.suspended hd).mono fun _ s' h => ?_
  exact Frame.trans h₁ (h.stay (h₁.sound.asked n) hmode).of_asked

theorem replaceSocket_stays : Maintains Stay replaceSocket := by
  refine .getInst fun s hs => ?_
  split
  · exact closeClientSocket_stays s hs
  · have hranges := hs.base.ranges
    refine ask_ends fun a n => ?_
    exact Still.stay hs ⟨⟨hs.base.timers, hranges.localPoll, hranges.minpoll, hranges.maxpoll,
      hranges.maxDelay⟩, rfl, rfl⟩

theorem changeRemoteAddress_stays (remoteAddr : RemoteAddress) :
    Maintains Stay (changeRemoteAddress remoteAddr) := by
  refine reset_stays.bind fun _ => ?_
  refine .bind (.of_keeps (.modifyInst (fun _ h => ⟨h.localPoll, h.minpoll, h.maxpoll, h.maxDelay⟩)
    (fun _ => rfl) fun _ => rfl)) fun _ => ?_
  refine replaceSocket_stays.bind fun _ => .ask fun a => ?_
  refine .bind (.onlyIf resetPoll_stays) fun _ => .bind (.of_keeps updateSource_keeps) fun _ => ?_
  exact .of_keeps (.modifyInst (fun _ h => ⟨h.localPoll, h.minpoll, h.maxpoll, h.maxDelay⟩)
    (fun _ => rfl) fun _ => rfl)

/-- The first timeout after a change of the operating mode. -/
theorem startInitialTimeout_step (hs : Sound s) {inst : Instance}
    (htimeout : inst.timeoutId = s.inst.timeoutId) (hranges : inst.Ranges)
    (hopmode : inst.opmode ≠ .offline) (hsuspended : inst.txSuspended = s.inst.txSuspended)
    (hmode : inst.mode = s.inst.mode)
    (hrequest : { s with inst }.request = s.request ∨ { s with inst }.request = noRequest) :
    Ends OutOfIds startInitialTimeout { s with inst } fun _ s' => Step s s' := by
  have hsound : Sound { s with inst } :=
    hs.of_fields htimeout hranges (fun hoff => absurd hoff hopmode) (hsuspended ▸ id)
  refine (startInitialTimeout_ends hsound hopmode).mono fun _ s' ⟨h, harmed⟩ => ?_
  refine ⟨h.sound, fun _ => harmed, h.mode.trans hmode, h.txSuspended.trans hsuspended, h.history,
    ?_⟩
  rcases h.request with heq | hnone
  · exact hrequest.imp heq.trans heq.trans
  · exact .inr hnone

/-- **A burst can be started** in any mode. -/
theorem initiateSampleBurst_steps (nGoodSamples nTotalSamples : ℤ) :
    Maintains Step (initiateSampleBurst nGoodSamples nTotalSamples) := by
  refine .getInst fun s hs => ?_
  split
  · exact Frame.of_stay hs.stay
  · exact Frame.of_stay hs.stay
  · exact Frame.of_stay hs.stay
  · have hranges := hs.base.ranges
    refine modifyInst_ends (startInitialTimeout_step hs rfl ⟨hranges.localPoll, hranges.minpoll,
      hranges.maxpoll, hranges.maxDelay⟩ ?_ rfl rfl (.inl rfl))
    dsimp only
    split
    · exact OperatingMode.noConfusion
    · exact OperatingMode.noConfusion

/-- The operating mode is changed with no effect on the timers. -/
theorem setOpmode_step (hs : Sound s) {opmode : OperatingMode} (hmode : opmode ≠ .offline)
    (hmode' : s.inst.opmode ≠ .offline) :
    Step s { s with inst := { s.inst with opmode } } := by
  have hranges := hs.base.ranges
  exact ⟨hs.of_fields rfl ⟨hranges.localPoll, hranges.minpoll, hranges.maxpoll, hranges.maxDelay⟩
    (fun hoff => absurd hoff hmode) id, fun harmed _ => harmed hmode', rfl, rfl, rfl, .inl rfl⟩

/-- **The connectivity can be set** in any mode. -/
theorem setConnectivity_steps (connectivity : Connectivity) :
    Maintains Step (setConnectivity connectivity) := by
  refine .ask fun a => .getInst fun s hs => ?_
  split
  · split
    · exact Frame.of_stay hs.stay
    · have hranges := hs.base.ranges
      refine modifyInst_ends (modifyInst_ends ?_)
      refine Ends.bind (startInitialTimeout_step hs rfl ⟨hranges.localPoll, hranges.minpoll,
        hranges.maxpoll, hranges.maxDelay⟩ OperatingMode.noConfusion rfl rfl (.inr rfl))
        fun _ s₁ h₁ => ?_
      refine .onlyIf (fun _ => ?_) fun _ => h₁
      exact (initiateSampleBurst_steps _ _ s₁ h₁.sound).mono fun _ _ h₂ => Frame.trans h₁ h₂
    · exact Frame.of_stay hs.stay
    next hmode => exact setOpmode_step hs OperatingMode.noConfusion (by rw [hmode]; decide)
  · split
    · exact takeOffline_steps s hs
    · exact Frame.of_stay hs.stay
    next hmode => exact setOpmode_step hs OperatingMode.noConfusion (by rw [hmode]; decide)
    · exact Frame.of_stay hs.stay

end Chrony.NtpCore
