import Chrony.NtpCore.Modes

/-!
# Responses and Requests

What the handlers of packets and timeouts do to the timers, and to the history of requests
and accepted responses. A response is accepted at most once for each request as long as
`AtMostOne` is kept. It can be lost only when a saved response, which is processed inside
of the call for another response, is the last good one in a burst of an association which
will be offline: then the inner call resets the association, and the outer call does not
know that a response was already accepted.

## Main results

* `processResponse_ends`, `transmitTimeout_ends`: what the two main functions leave.
-/

namespace Chrony.NtpCore

open Lib Program Sources

variable {s s' s'' : State}

/-! ### Accepted responses -/

/-- The number of responses accepted since the last transmission. -/
def acceptedSince (history : List Action) : ℕ :=
  history.foldl
    (fun n action =>
      match action with
      | .transmitted => 0
      | .accepted => n + 1) 0

theorem acceptedSince_accepted (history : List Action) :
    acceptedSince (history ++ [.accepted]) = acceptedSince history + 1 := by
  rw [acceptedSince, List.foldl_append]
  rfl

theorem acceptedSince_transmitted (history : List Action) :
    acceptedSince (history ++ [.transmitted]) = 0 := by
  rw [acceptedSince, List.foldl_append]
  rfl

/-- **At most one response is accepted between two transmissions.** -/
def OnePerRequest (history : List Action) : Prop :=
  ∀ l₁ l₂ l₃, history = l₁ ++ l₂ ++ l₃ → .transmitted ∉ l₂ → l₂.count .accepted ≤ 1

theorem count_le_acceptedSince (l₁ : List Action) {l₂ : List Action} (h : .transmitted ∉ l₂) :
    l₂.count .accepted ≤ acceptedSince (l₁ ++ l₂) := by
  induction l₂ using List.reverseRecOn with
  | nil => exact Nat.zero_le _
  | append_singleton l₂ action ih =>
      rw [List.mem_append, not_or] at h
      cases action with
      | transmitted => exact absurd (List.mem_singleton.mpr rfl) h.2
      | accepted =>
          rw [← List.append_assoc, acceptedSince_accepted, List.count_append,
            List.count_singleton_self]
          exact Nat.succ_le_succ (ih h.1)

/-- Only the end of the history has to be considered when it grows. -/
theorem OnePerRequest.append {history : List Action} (h : OnePerRequest history) {action : Action}
    (hlast : ∀ l₁ l₂, history = l₁ ++ l₂ → action = .accepted → .transmitted ∉ l₂ →
      l₂.count .accepted = 0) : OnePerRequest (history ++ [action]) := by
  intro l₁ l₂ l₃ heq hnot
  rcases l₃.eq_nil_or_concat' with rfl | ⟨l₃, a, rfl⟩
  · rw [List.append_nil] at heq
    rcases l₂.eq_nil_or_concat' with rfl | ⟨l₂, a, rfl⟩
    · exact Nat.zero_le 1
    · rw [← List.append_assoc] at heq
      obtain ⟨hsplit, ha⟩ := List.append_inj' heq rfl
      obtain rfl := (List.cons.inj ha).1
      rw [List.mem_append, not_or] at hnot
      cases action with
      | transmitted => exact absurd (List.mem_singleton.mpr rfl) hnot.2
      | accepted =>
          rw [List.count_append, hlast l₁ l₂ hsplit rfl hnot.1, List.count_singleton_self]
  · rw [← List.append_assoc] at heq
    exact h l₁ l₂ l₃ (List.append_inj' heq rfl).1 hnot

theorem OnePerRequest.accepted {history : List Action} (h : OnePerRequest history)
    (hzero : acceptedSince history = 0) : OnePerRequest (history ++ [.accepted]) := by
  refine h.append fun l₁ l₂ heq _ hnot => ?_
  have hcount := count_le_acceptedSince l₁ hnot
  rw [← heq, hzero] at hcount
  exact Nat.le_zero.mp hcount

theorem OnePerRequest.transmitted {history : List Action} (h : OnePerRequest history) :
    OnePerRequest (history ++ [.transmitted]) :=
  h.append fun _ _ _ haction => Action.noConfusion haction

/-- **At most one response is accepted for each request.** After the first one, no other
response can be accepted: the first one is remembered, or there is no request any more. -/
def AtMostOne (s : State) : Prop :=
  OnePerRequest s.history ∧ (acceptedSince s.history = 0 ∨ (acceptedSince s.history = 1 ∧
    (s.inst.validRx = true ∨ s.request = noRequest)))

/-- The next good sample is the last one in a burst, after which the association will be
offline. -/
def LastSample (s : State) : Prop :=
  s.inst.opmode = .burstWasOffline ∧ s.inst.burstGoodSamplesToGo ≤ 1

theorem LastSample.of_control (h : LastSample s') (hcontrol : s'.control = s.control) :
    LastSample s :=
  ⟨(congrArg Control.opmode hcontrol).symm.trans h.1,
    (congrArg Control.burstGoodSamplesToGo hcontrol).ge.trans h.2⟩

theorem AtMostOne.of_request (h : AtMostOne s) (hhistory : s'.history = s.history)
    (hrequest : s'.request = s.request ∨ s'.request = noRequest) : AtMostOne s' := by
  refine ⟨hhistory ▸ h.1, ?_⟩
  rw [hhistory]
  refine h.2.imp id fun ⟨hone, hclosed⟩ => ⟨hone, ?_⟩
  rcases hrequest with heq | hnone
  · rw [heq, show s'.inst.validRx = s.inst.validRx from congrArg Prod.fst heq]
    exact hclosed
  · exact .inr hnone

theorem Step.atMostOne (hstep : Step s s') (h : AtMostOne s) : AtMostOne s' :=
  h.of_request hstep.history hstep.request

/-- What the processing of one response leaves, where `P` holds if it is accepted. -/
structure Responded (P : Prop) (s s' : State) : Prop where
  sound : Sound s'
  armed : Armed s → Armed s'
  txSuspended : s'.inst.txSuspended = s.inst.txSuspended
  outcome : (s'.history = s.history ∧ s'.request = s.request) ∨
    (P ∧ s.inst.validRx = false ∧ s'.history = s.history ++ [.accepted] ∧
      (s'.inst.validRx = true ∨ (s'.request = noRequest ∧ LastSample s)))

theorem Responded.imp {P P' : Prop} (h : Responded P s s') (hP : P → P') : Responded P' s s' :=
  ⟨h.sound, h.armed, h.txSuspended, h.outcome.imp_right (And.imp_left hP)⟩

/-- There is a request which a response can match. -/
def Requested (s : State) : Prop :=
  s.inst.localNtpTx ≠ 0 ∨ s.inst.localNtpRx ≠ 0

theorem Requested.of_request (h : Requested s) (hrequest : s'.request = s.request) :
    Requested s' := by
  obtain ⟨hrx, htx⟩ := Prod.mk.inj (Prod.mk.inj hrequest).2
  rw [Requested, hrx, htx]
  exact h

theorem compareNtp64_eq_zero_iff {a b : BitVec 64} : compareNtp64 a b = 0 ↔ a = b := by
  rw [compareNtp64]
  split
  next heq => exact ⟨fun _ => heq, fun _ => rfl⟩
  next hne =>
      refine ⟨fun h => ?_, fun h => absurd h hne⟩
      dsimp only at h
      split at h
      · omega
      · split at h
        · omega
        · split at h <;> omega

/-- A valid packet is a response to a request. -/
theorem requested_of_validPacket {auth : Bool} {message : Message}
    (h : (packetTests s.inst auth message).validPacket = true) : Requested s := by
  simp only [Tests.validPacket, Tests.test2, packetTests, Bool.and_eq_true, Bool.or_eq_true,
    decide_eq_true_eq, compareNtp64_eq_zero_iff] at h
  obtain ⟨⟨⟨-, h2⟩, h3, -⟩, -⟩ := h
  rcases h2 with heq | ⟨-, heq⟩
  · exact .inl (heq ▸ h3)
  · exact .inr (heq ▸ h3)

/-- The response to a request which has not been responded is the first one. -/
theorem AtMostOne.eq_zero (h : AtMostOne s) (hrx : s.inst.validRx = false) (hreq : Requested s) :
    acceptedSince s.history = 0 := by
  refine h.2.resolve_right ?_
  rintro ⟨-, hvalid | hnone⟩
  · rw [hrx] at hvalid
    cases hvalid
  · obtain ⟨hrx0, htx0⟩ := Prod.mk.inj (Prod.mk.inj hnone).2
    exact hreq.elim (absurd htx0) (absurd hrx0)

/-- **A response which matches the request is accepted only once.** -/
theorem Responded.atMostOne (hr : Responded (Requested s) s s') (h : AtMostOne s) :
    AtMostOne s' := by
  rcases hr.outcome with ⟨hhistory, hrequest⟩ | ⟨hreq, hrx, hhistory, hafter⟩
  · exact h.of_request hhistory (.inl hrequest)
  · have hzero := h.eq_zero hrx hreq
    refine ⟨hhistory ▸ h.1.accepted hzero, .inr ⟨?_, hafter.imp_right And.left⟩⟩
    rw [hhistory, acceptedSince_accepted, hzero]

/-! ### Responses -/

theorem copyStratum_keeps (syncedPacket : Bool) : Keeps (copyStratum syncedPacket) := by
  refine .getInst fun inst => .onlyIf ?_
  split
  · exact .modifyInst (fun _ h => ⟨h.localPoll, h.minpoll, h.maxpoll, h.maxDelay⟩) (fun _ => rfl)
      fun _ => rfl
  · exact updateSource_keeps

theorem countBurstSample_ends (hs : Sound s) :
    Ends OutOfIds countBurstSample s fun _ s' => Step s s' ∧
      (s'.request = s.request ∨ (s'.request = noRequest ∧ LastSample s)) := by
  have hranges := hs.base.ranges
  rw [countBurstSample]
  refine getInst_ends ?_
  split
  · exact ⟨hs.stay.toStep, .inl rfl⟩
  · exact ⟨hs.stay.toStep, .inl rfl⟩
  next hmode =>
      refine ⟨⟨hs.of_fields rfl ⟨hranges.localPoll, hranges.minpoll, hranges.maxpoll,
        hranges.maxDelay⟩ (fun hoff => ?_) id, fun harmed _ => harmed (by rw [hmode]; decide),
        rfl, rfl, rfl, .inl rfl⟩, .inl rfl⟩
      dsimp only at hoff
      split at hoff
      · cases hoff
      · exact hoff
  next hmode =>
      have hsound : Sound { s with inst := { s.inst with
          burstGoodSamplesToGo := s.inst.burstGoodSamplesToGo - 1 } } :=
        hs.of_fields rfl ⟨hranges.localPoll, hranges.minpoll, hranges.maxpoll, hranges.maxDelay⟩
          id id
      refine modifyInst_ends (.onlyIf (fun hlast => ?_) fun _ => ?_)
      · refine (takeOffline_ends hsound.base).mono fun _ s' h => ?_
        have hstep := h.step
        refine ⟨⟨hstep.sound, hstep.armed, hstep.mode, hstep.txSuspended, hstep.history,
          hstep.request⟩, .inr ⟨?_, hmode, by omega⟩⟩
        exact Prod.ext (congrArg Control.validRx h.control) (Prod.ext
          (congrArg Control.localNtpRx h.control) (congrArg Control.localNtpTx h.control))
      · exact ⟨⟨hsound, id, rfl, rfl, rfl, .inl rfl⟩, .inl rfl⟩

theorem processMeasurement_ends (hs : Sound s) (u : SampleTests) :
    Ends OutOfIds (processMeasurement u) s fun _ s' => Step s s' ∧
      (s'.request = s.request ∨ (s'.request = noRequest ∧ LastSample s)) := by
  rw [processMeasurement]
  split
  · refine (processSample_keeps true s hs.base).bind fun _ s₁ h₁ => ?_
    refine (countBurstSample_ends (h₁.stay hs).sound).mono fun _ s' ⟨hstep, hrequest⟩ => ?_
    refine ⟨Frame.trans (h₁.stay hs).toStep hstep, ?_⟩
    rw [← State.request_eq h₁.control]
    exact hrequest.imp id (And.imp_right (·.of_control h₁.control))
  · refine ((adjustPoll_keeps _).bind (fun _ => processSample_keeps false) s hs.base).mono
      fun _ s' h => ?_
    exact ⟨(h.stay hs).toStep, .inl (State.request_eq h.control)⟩

/-- The good samples left in a burst are not waited for after a KoD packet. -/
theorem stopBurst_stay (hs : Sound s) (n : ℕ) (p : Prop) [Decidable p] :
    Stay s { s with
        asked := n
        inst := if p then { s.inst with burstGoodSamplesToGo := 0 } else s.inst } ∧
      State.request { s with
        asked := n
        inst := if p then { s.inst with burstGoodSamplesToGo := 0 } else s.inst } = s.request := by
  have hranges := hs.base.ranges
  split
  · exact ⟨⟨⟨hs.of_fields rfl ⟨hranges.localPoll, hranges.minpoll, hranges.maxpoll,
      hranges.maxDelay⟩ id id, id, rfl, rfl, rfl, .inl rfl⟩, rfl⟩, rfl⟩
  · exact ⟨⟨⟨hs.asked n, id, rfl, rfl, rfl, .inl rfl⟩, rfl⟩, rfl⟩

/-- **The timer is running when it is requeued**, unless the response was saved. -/
theorem requeueTimer_ends (hs : Sound s) {saved : Bool} (kodRate : Bool)
    (hsaved : saved = false → Armed s ∧ s.inst.txSuspended = false) :
    Ends OutOfIds (requeueTimer saved kodRate) s fun _ s' =>
      Stay s s' ∧ Armed s' ∧ s'.request = s.request := by
  rw [requeueTimer]
  refine getInst_ends (.onlyIf (fun hmode => ?_) fun hmode => ?_)
  · refine getTransmitDelay_ends false hmode fun d n hd => ?_
    refine modifyInst_ends (Ends.assert ?_ ?_)
    · cases saved with
      | true => exact .inl rfl
      | false =>
          obtain ⟨harmed, hsus⟩ := hsaved rfl
          exact .inr (harmed hmode hsus)
    · have hdelay : 0 ≤ if kodRate = true then d + 4 * log2ToDouble s.inst.localPoll else d := by
        have hpos := log2ToDouble_pos s.inst.localPoll
        split
        · linarith
        · exact hd
      obtain ⟨h₁, hrequest⟩ := stopBurst_stay hs n (kodRate ∧
        (s.inst.opmode = .burstWasOffline ∨ s.inst.opmode = .burstWasOnline))
      refine (restartTimeout_ends h₁.sound.base h₁.sound.suspended hdelay).mono fun _ s' h => ?_
      have h₂ := h.stay h₁.sound fun hoff => hmode (h₁.opmode.symm.trans hoff)
      exact ⟨Frame.trans h₁ h₂, h.armed, (State.request_eq h.control).trans hrequest⟩
  · exact ⟨hs.stay, fun hne => absurd (not_not.mp hmode) hne, rfl⟩

/-- **A response is accepted**: the association waits for its next transmission, or is taken
offline by the end of a burst. -/
theorem acceptResponse_ends (hs : Sound s) {saved : Bool} (r : Response) (t : Tests)
    (u : SampleTests) (hsaved : saved = false → Armed s ∧ s.inst.txSuspended = false) :
    Ends OutOfIds (acceptResponse saved r t u) s fun _ s' => Sound s' ∧ Armed s' ∧
      s'.inst.txSuspended = s.inst.txSuspended ∧ s'.history = s.history ++ [.accepted] ∧
      (s'.request = s.request ∨ (s'.request = noRequest ∧ LastSample s)) := by
  have hranges := hs.base.ranges
  rw [acceptResponse]
  refine modifyInst_ends ?_
  refine Ends.bind (updateSource_keeps _ ⟨hs.base.timers, hranges.localPoll, hranges.minpoll,
    hranges.maxpoll, hranges.maxDelay⟩) fun _ s₁ h₁ => ?_
  refine (copyStratum_keeps t.syncedPacket s₁ h₁.base).bind fun _ s₂ h₂ => ?_
  have hstill : Still s s₂ := ⟨h₂.base, h₂.control.trans h₁.control,
    h₂.timeoutId.trans h₁.timeoutId⟩
  have hstay₂ := hstill.stay hs
  refine (processMeasurement_ends hstay₂.sound u).bind fun _ s₃ ⟨h₃, hrequest₃⟩ => ?_
  refine (closeClientSocket_ends h₃.sound.base).bind fun _ s₄ h₄ => ?_
  have hstay₄ := h₄.stay h₃.sound
  have hranges₄ := h₄.base.ranges
  have hstep : Step s s₄ := Frame.trans hstay₂.toStep (Frame.trans h₃ hstay₄.toStep)
  refine modifyInst_ends ?_
  refine Ends.bind (requeueTimer_ends ?_ _ ?_) ?_
  · exact hstep.sound.of_fields rfl ⟨hranges₄.localPoll, hranges₄.minpoll, hranges₄.maxpoll,
      hranges₄.maxDelay⟩ id id
  · intro hf
    obtain ⟨harmed, hsus⟩ := hsaved hf
    exact ⟨hstep.armed harmed, hstep.txSuspended.trans hsus⟩
  · rintro _ s₅ ⟨h₅, harmed, hrequest₅⟩
    have hranges₅ := h₅.sound.base.ranges
    have hrequest : s₅.request = s₃.request := hrequest₅.trans (State.request_eq h₄.control)
    have houtcome : s₅.request = s.request ∨ (s₅.request = noRequest ∧ LastSample s) := by
      rw [hrequest, ← State.request_eq hstill.control]
      exact hrequest₃.imp id (And.imp_right (·.of_control hstill.control))
    refine ⟨h₅.sound.of_fields rfl ⟨hranges₅.localPoll, hranges₅.minpoll, hranges₅.maxpoll,
      hranges₅.maxDelay⟩ id id, harmed, h₅.txSuspended.trans hstep.txSuspended, ?_, ?_⟩
    · exact congrArg (· ++ [Action.accepted]) (h₅.history.trans hstep.history)
    · exact houtcome

theorem updateTimestamps_still (hs : Base s) (r : Response) (t : Tests) (goodPacket : Bool) :
    Still s { s with inst := updateTimestamps r t goodPacket s.inst } := by
  have hranges := hs.ranges
  rw [updateTimestamps]
  split
  · exact ⟨⟨hs.timers, hranges.localPoll, hranges.minpoll, hranges.maxpoll, hranges.maxDelay⟩,
      rfl, rfl⟩
  · split
    · exact ⟨⟨hs.timers, hranges.localPoll, hranges.minpoll, hranges.maxpoll, hranges.maxDelay⟩,
        rfl, rfl⟩
    · exact .refl hs

/-- **A valid response is accepted if no other one was.** -/
theorem finishResponse_ends (hs : Sound s) {saved : Bool} (r : Response) (t : Tests)
    (hsaved : saved = false → Armed s ∧ s.inst.txSuspended = false) :
    Ends OutOfIds (finishResponse saved r t) s fun _ s' =>
      Responded (t.validPacket = true) s s' := by
  rw [finishResponse]
  refine getInst_ends (ask_ends fun a n => modifyInst_ends (getInst_ends ?_))
  have hstill := updateTimestamps_still (hs.asked n).base r t (sampleTests s.inst t a).goodPacket
  have h₁ := (hstill.stay (hs.asked n)).of_asked
  have hranges := h₁.sound.base.ranges
  have hrx₁ : (updateTimestamps r t (sampleTests s.inst t a).goodPacket s.inst).validRx =
      s.inst.validRx := congrArg Control.validRx hstill.control
  split
  · exact ⟨h₁.sound, h₁.armed, h₁.txSuspended, .inl ⟨rfl, State.request_eq hstill.control⟩⟩
  next hrx =>
      split
      next hvalid =>
          refine modifyInst_ends (Ends.bind (acceptResponse_ends ?_ r t _ ?_) ?_)
          · exact h₁.sound.of_fields rfl ⟨hranges.localPoll, hranges.minpoll, hranges.maxpoll,
              hranges.maxDelay⟩ id id
          · intro hf
            obtain ⟨harmed, hsus⟩ := hsaved hf
            exact ⟨h₁.armed harmed, h₁.txSuspended.trans hsus⟩
          · rintro _ s' ⟨hsound, harmed, hsus, hhistory, hrequest⟩
            refine ⟨hsound, fun _ => harmed, hsus.trans h₁.txSuspended,
              .inr ⟨hvalid, ?_, hhistory, ?_⟩⟩
            · exact hrx₁.symm.trans (by simpa using hrx)
            · rcases hrequest with heq | ⟨hnone, hlast⟩
              · exact .inl (congrArg Prod.fst heq)
              · exact .inr ⟨hnone, (congrArg Control.opmode hstill.control).symm.trans hlast.1,
                  (congrArg Control.burstGoodSamplesToGo hstill.control).ge.trans hlast.2⟩
      next =>
          exact ⟨h₁.sound, h₁.armed, h₁.txSuspended,
            .inl ⟨rfl, State.request_eq hstill.control⟩⟩

/-- The saved response is not waiting any more. -/
theorem clearSavedTimeout_sound (hs : Sound s) {q : Sched.State Handler Arg}
    (hT : Timers q (Function.update s.inst.timeoutId .savedResponseTimeout 0)) :
    Sound { s with sched := q, inst := s.inst.clearSavedTimeout } := by
  have hranges := hs.base.ranges
  refine ⟨⟨hT.of_eq (clearSavedTimeout_timeoutId _), hranges.localPoll, hranges.minpoll,
    hranges.maxpoll, hranges.maxDelay⟩, fun hoff => ?_, hs.suspended⟩
  have hzero := hs.offline hoff
  exact timeoutId_eq_zero (hzero .transmitTimeout) (hzero .receiveTimeout)
    (clearSavedTimeout_savedTimeoutId s.inst)

/-- **A saved response is processed.** -/
theorem processSavedResponse_ends (hs : Sound s) (hsome : s.inst.savedResponse.isSome = true) :
    Ends OutOfIds processSavedResponse s fun _ s' => Responded (Requested s) s s' := by
  obtain ⟨saved, hsaved⟩ := Option.isSome_iff_exists.mp hsome
  have hid : s.inst.timeoutId .savedResponseTimeout = saved.timeoutId := by
    rw [Instance.timeoutId, Instance.savedTimeoutId, hsaved]
    rfl
  rw [processSavedResponse]
  refine getInst_ends ?_
  rw [hsaved]
  dsimp only
  rw [← hid]
  refine removeTimeout_ends .savedResponseTimeout hs.base.timers fun q hT => ?_
  refine modifyInst_ends (getInst_ends ?_)
  have hs₁ := clearSavedTimeout_sound hs hT
  refine Ends.bind (finishResponse_ends hs₁ _ _ fun hf => absurd hf (by decide)) ?_
  rintro _ s' ⟨hsound, harmed, hsus, houtcome⟩
  refine ⟨hsound, harmed, hsus, houtcome.imp id ?_⟩
  rintro ⟨hvalid, hrest⟩
  exact ⟨requested_of_validPacket (s := { s with inst := s.inst.clearSavedTimeout }) hvalid, hrest⟩

theorem savedResponse_isSome {inst : Instance} (h : inst.savedTimeoutId ≠ 0) :
    inst.savedResponse.isSome = true := by
  rw [Instance.savedTimeoutId] at h
  cases hsaved : inst.savedResponse with
  | none =>
      rw [hsaved] at h
      exact absurd rfl h
  | some saved => rfl

theorem hasSavedResponse_iff {inst : Instance} :
    inst.hasSavedResponse = true ↔ inst.savedTimeoutId ≠ 0 := by
  rw [Instance.hasSavedResponse, decide_eq_true_iff]
  exact Nat.pos_iff_ne_zero

theorem setSaved_timeoutId (inst : Instance) (saved : SavedResponse) :
    { inst with savedResponse := some saved }.timeoutId =
      Function.update inst.timeoutId .savedResponseTimeout saved.timeoutId := by
  funext k
  cases k <;> rfl

/-- A response is saved, or another saved response is processed, or nothing is done. -/
theorem saveResponse_ends (hs : Sound s) (hmode : s.inst.opmode ≠ .offline) (r : Response) :
    Ends OutOfIds (saveResponse r) s fun isSaved s' => Stay s s' ∧ s'.request = s.request ∨
      (isSaved = false ∧ s.inst.hasSavedResponse = true ∧ Responded (Requested s) s s') := by
  rw [saveResponse]
  refine ask_ends fun a n => ?_
  split
  · exact .inl ⟨(hs.asked n).stay.of_asked, rfl⟩
  next hpos =>
      refine getInst_ends ?_
      split
      next hsaved =>
          refine Ends.bind (processSavedResponse_ends (hs.asked n)
            (savedResponse_isSome (hasSavedResponse_iff.mp hsaved))) fun _ s' h => ?_
          exact .inr ⟨rfl, hsaved, h.sound, h.armed, h.txSuspended, h.outcome⟩
      next hsaved =>
          have hzero : s.inst.timeoutId .savedResponseTimeout = 0 := by
            by_contra hne
            exact hsaved (hasSavedResponse_iff.mpr hne)
          refine addTimeoutByDelay_ends .savedResponseTimeout hs.base.timers hzero
            (not_le.mp hpos).le fun q n' m hid hT => modifyInst_ends ?_
          have hranges := hs.base.ranges
          have hsound : Sound { s with
              sched := q
              asked := m
              inst := { s.inst with
                savedResponse := some ⟨r.localAddr, r.rxTs, r.message, n'⟩ } } :=
            ⟨⟨hT.of_eq (setSaved_timeoutId s.inst ⟨r.localAddr, r.rxTs, r.message, n'⟩),
              hranges.localPoll, hranges.minpoll, hranges.maxpoll, hranges.maxDelay⟩,
              fun hoff => absurd hoff hmode, hs.suspended⟩
          exact .inl ⟨⟨⟨hsound, id, rfl, rfl, rfl, .inl rfl⟩, rfl⟩, rfl⟩

/-- **A received response is processed.** If a saved response is processed inside of the
call, and it is not the last good one in a burst, then at most one of the two is accepted. -/
theorem processResponse_ends (hs : Sound s) (harmed : Armed s) (hmode : s.inst.opmode ≠ .offline)
    (hsus : s.inst.txSuspended = false) (r : Response) :
    Ends OutOfIds (processResponse r) s fun _ s' => Sound s' ∧ Armed s' ∧
      (¬(s.inst.hasSavedResponse = true ∧ LastSample s ∧ isSavable s.inst
        (packetTests s.inst (s.answers s.asked).checkAuth r.message)
        (s.answers s.asked).hwTsEnabled = true) → AtMostOne s → AtMostOne s') := by
  rw [processResponse]
  refine getInst_ends (ask_ends_eq ?_)
  generalize hanswer : s.answers s.asked = a
  have hs₁ := hs.asked (s.asked + 1)
  have hvalid : (packetTests s.inst a.checkAuth r.message).validPacket = true → Requested s :=
    requested_of_validPacket
  generalize packetTests s.inst a.checkAuth r.message = t at hvalid ⊢
  have hsaved : ∀ s₂ : State, (Armed s → Armed s₂) → s₂.inst.txSuspended = s.inst.txSuspended →
      false = false → Armed s₂ ∧ s₂.inst.txSuspended = false :=
    fun s₂ h₂ hsus₂ _ => ⟨h₂ harmed, hsus₂.trans hsus⟩
  dsimp only
  split
  next hsavable =>
      refine (saveResponse_ends hs₁ hmode r).bind fun isSaved s₂ h₂ => ?_
      rcases h₂ with ⟨h₂, hrequest⟩ | ⟨rfl, hhas, h₂⟩
      · split
        · exact ⟨h₂.sound, h₂.armed harmed, fun _ => h₂.toStep.atMostOne⟩
        · refine (finishResponse_ends h₂.sound r t (hsaved s₂ h₂.armed h₂.txSuspended)).mono
            fun _ s' h' => ⟨h'.sound, h'.armed (h₂.armed harmed), fun _ hone => ?_⟩
          refine Responded.atMostOne (h'.imp fun hv => ?_) (h₂.toStep.atMostOne hone)
          exact (hvalid hv).of_request hrequest
      · rw [if_neg Bool.false_ne_true]
        refine (finishResponse_ends h₂.sound r t (hsaved s₂ h₂.armed h₂.txSuspended)).mono
          fun _ s' h' => ⟨h'.sound, h'.armed (h₂.armed harmed), fun hcond hone => ?_⟩
        have hone₂ := h₂.atMostOne hone
        rcases h₂.outcome with ⟨-, hrequest⟩ | ⟨-, -, -, hrx | ⟨-, hlast⟩⟩
        · exact Responded.atMostOne (h'.imp fun hv => (hvalid hv).of_request hrequest) hone₂
        · -- the inner call has accepted its response, so the outer one does not
          rcases h'.outcome with ⟨hhistory, hrequest⟩ | ⟨-, hrx', -⟩
          · exact hone₂.of_request hhistory (.inl hrequest)
          · rw [hrx] at hrx'
            cases hrx'
        · exact absurd ⟨hhas, hlast, hsavable⟩ hcond
  next =>
      refine (finishResponse_ends hs₁ r t (hsaved _ id rfl)).mono
        fun _ s' h' => ⟨h'.sound, h'.armed harmed, fun _ hone => ?_⟩
      exact Responded.atMostOne (h'.imp hvalid) hone

end Chrony.NtpCore
