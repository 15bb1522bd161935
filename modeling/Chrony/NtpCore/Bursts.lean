import Chrony.NtpCore.Runs

/-!
# Bursts

A burst is started by `NCR_InitiateSampleBurst`, and ended by good responses or by the transmit
timeout, when no samples are left. A KoD RATE response is supposed to stop it. The response
clears the number of good samples to go, which is tested only when another good response is
received: the transmit timeout looks at the total number of samples.

What the functions do to the mode of operation is said by relations between the association
before and after them (`Alters`), which hold whether or not the timers are in order.

## Main results

* `transmitRequest_transmits`: when a burst goes on, ends or starts in a transmission.
* `processResponse_waits`, `processResponse_noNewBurst`: what responses do to a burst.
-/

namespace Chrony.NtpCore

open Lib Program

variable {α β : Type} {s s' : State}

/-! ### Relations -/

/-- **What a function does to the association**, if it does not abort. -/
def Alters (r : Instance → Instance → Prop) (m : M α) : Prop :=
  Relates (fun s s' => r s.inst s'.inst) m

instance (r : Instance → Instance → Prop) [IsPreorder Instance r] :
    IsPreorder State fun s s' => r s.inst s'.inst where
  refl s := refl_of r s.inst
  trans _ _ _ h h' := trans_of r h h'

namespace Alters

variable {r r' : Instance → Instance → Prop} {m : M α} {f : α → M β}

theorem mono (h : Alters r m) (hr : ∀ i i', r i i' → r' i i') : Alters r' m :=
  Relates.mono h fun s s' => hr s.inst s'.inst

theorem throw (e : Abort) : Alters r (MonadExceptOf.throw e : M α) :=
  Relates.throw e

theorem ite {p : Prop} [Decidable p] {m' : M α} (h : p → Alters r m) (h' : ¬p → Alters r m') :
    Alters r (if p then m else m') :=
  Relates.ite h h'

theorem modifyInst {g : Instance → Instance} (h : ∀ inst, r inst (g inst)) :
    Alters r (modifyInst g) :=
  fun s => h s.inst

theorem getInst {f : Instance → M β} (hf : ∀ inst, Alters r (f inst)) :
    Alters r (NtpCore.getInst >>= f) :=
  fun s => hf s.inst s

/-- The association which is read is the one which is related to the result. -/
theorem getInst_eq {f : Instance → M β}
    (hf : ∀ s, Ends (fun _ => True) (f s.inst) s fun _ s' => r s.inst s'.inst) :
    Alters r (NtpCore.getInst >>= f) :=
  hf

variable [IsPreorder Instance r]

theorem pure (a : α) : Alters r (Pure.pure a : M α) :=
  Relates.pure a

theorem bind (h : Alters r m) (hf : ∀ a, Alters r (f a)) : Alters r (m >>= f) :=
  Relates.bind h hf

theorem onlyIf {p : Prop} [Decidable p] {m : M Unit} (h : p → Alters r m) :
    Alters r (onlyIf p m) :=
  Relates.onlyIf h

theorem assert (e : Abort) (p : Prop) [Decidable p] : Alters r (assert e p) :=
  Relates.assert e p

theorem ask : Alters r ask :=
  fun s => refl_of r s.inst

theorem record (action : Action) : Alters r (record action) :=
  fun s => refl_of r s.inst

theorem removeTimeout (id : ℕ) : Alters r (removeTimeout id) := by
  intro s
  rw [Ends, NtpCore.removeTimeout]
  split
  · exact refl_of r s.inst
  · trivial

theorem addTimeout (add : Sched.State Handler Arg →
    Except Sched.Abort (Sched.State Handler Arg × Sched.TimerQueueEntry Handler Arg)) :
    Alters r (addTimeout add) := by
  intro s
  rw [Ends, NtpCore.addTimeout]
  split
  · exact refl_of r s.inst
  · trivial

theorem addTimeoutInClass (minDelay separation randomness : ℚ) (cls : Sched.TimeoutClass)
    (handler : Handler) :
    Alters r (addTimeoutInClass minDelay separation randomness cls handler) :=
  ask.bind fun _ => addTimeout _

theorem addTimeoutByDelay (delay : ℚ) (handler : Handler) :
    Alters r (addTimeoutByDelay delay handler) :=
  ask.bind fun _ => addTimeout _

end Alters

/-- The association is in a burst mode. -/
def Instance.InBurst (inst : Instance) : Prop :=
  inst.opmode = .burstWasOffline ∨ inst.opmode = .burstWasOnline

theorem Instance.not_inBurst_of_offline {inst : Instance} (h : inst.opmode = .offline) :
    ¬inst.InBurst := by
  rw [Instance.InBurst, h]
  decide

theorem Instance.not_inBurst_of_online {inst : Instance} (h : inst.opmode = .online) :
    ¬inst.InBurst := by
  rw [Instance.InBurst, h]
  decide

/-- A response to the last request was accepted, or there is no request which could be
responded. -/
def Instance.Answered (inst : Instance) : Prop :=
  inst.validRx = true ∨ inst.localNtpRx = 0 ∧ inst.localNtpTx = 0

/-- The mode of operation is kept, and no request is sent. -/
structure Calm (inst inst' : Instance) : Prop where
  mode : inst'.mode = inst.mode
  opmode : inst'.opmode = inst.opmode
  answered : inst.Answered → inst'.Answered

/-- A burst neither starts nor ends. -/
def SameBurst (inst inst' : Instance) : Prop :=
  inst'.InBurst ↔ inst.InBurst

/-- A burst does not start. -/
def NoNewBurst (inst inst' : Instance) : Prop :=
  inst'.InBurst → inst.InBurst

instance : IsPreorder Instance Calm where
  refl _ := ⟨rfl, rfl, id⟩
  trans _ _ _ h h' :=
    ⟨h'.mode.trans h.mode, h'.opmode.trans h.opmode, h'.answered ∘ h.answered⟩

instance : IsPreorder Instance SameBurst where
  refl _ := Iff.rfl
  trans _ _ _ h h' := h'.trans h

instance : IsPreorder Instance NoNewBurst where
  refl _ := id
  trans _ _ _ h h' := h ∘ h'

theorem SameBurst.of_opmode {inst inst' : Instance} (h : inst'.opmode = inst.opmode) :
    SameBurst inst inst' := by
  rw [SameBurst, Instance.InBurst, Instance.InBurst, h]

theorem Calm.sameBurst {inst inst' : Instance} (h : Calm inst inst') : SameBurst inst inst' :=
  .of_opmode h.opmode

namespace Alters

variable {m : M α}

theorem sameBurst (h : Alters Calm m) : Alters SameBurst m :=
  h.mono fun _ _ => Calm.sameBurst

theorem noNewBurst (h : Alters SameBurst m) : Alters NoNewBurst m :=
  h.mono fun _ _ => Iff.mp

end Alters

/-! ### Timers and polling -/

theorem updateSource_calm : Alters Calm updateSource := by
  refine .bind .ask fun a s => ?_
  show Calm s.inst (a.slews.foldl State.slew s).inst
  refine List.foldlRecOn a.slews State.slew (motive := fun s' => Calm s.inst s'.inst)
    (refl_of Calm s.inst) fun s' h' slew _ => ?_
  have hslew : Calm s'.inst (s'.slew slew).inst := ⟨rfl, rfl, id⟩
  exact trans_of Calm h' hslew

theorem adjustPoll_calm (adj : ℚ) : Alters Calm (adjustPoll adj) :=
  .bind .ask fun _ => .modifyInst fun _ => ⟨rfl, rfl, id⟩

theorem accumulateSample_calm : Alters Calm accumulateSample :=
  updateSource_calm.bind fun _ => .bind .ask fun a => adjustPoll_calm a.pollAdj

theorem processSample_calm (sample : Bool) : Alters Calm (processSample sample) := by
  refine .getInst fun inst => ?_
  split
  · exact .onlyIf fun _ => accumulateSample_calm
  · refine .bind (.modifyInst fun _ => ⟨rfl, rfl, id⟩) fun _ => .bind .ask fun a => ?_
    refine .onlyIf fun _ => .bind (.modifyInst fun _ => ⟨rfl, rfl, id⟩) fun _ => ?_
    exact accumulateSample_calm

theorem getTransmitDelay_calm (onTx : Bool) : Alters Calm (getTransmitDelay onTx) := by
  refine .getInst fun inst => .bind .ask fun a => .bind ?_ fun d => .pure _
  unfold delayOfMode
  split
  · exact .throw _
  · split
    · exact .pure _
    · exact .pure _
  · exact .pure _
  · exact .pure _

theorem restartTimeout_calm (delay : ℚ) : Alters Calm (restartTimeout delay) := by
  refine .getInst fun inst => .ite (fun _ => .assert _ _) fun _ => ?_
  refine .bind (.removeTimeout _) fun _ => .bind (.modifyInst fun _ => ⟨rfl, rfl, id⟩) fun _ => ?_
  refine .bind (.removeTimeout _) fun _ => .bind (.bind (.assert _ _) fun _ => .pure _) fun _ => ?_
  exact .bind (.addTimeoutInClass _ _ _ _ _) fun _ => .modifyInst fun _ => ⟨rfl, rfl, id⟩

theorem startInitialTimeout_calm : Alters Calm startInitialTimeout := by
  refine .getInst fun inst => .ite (fun _ => ?_) fun _ => ?_
  · exact (getTransmitDelay_calm false).bind fun _ => restartTimeout_calm _
  · exact .bind (.pure 0) fun _ => restartTimeout_calm _

theorem closeClientSocket_calm : Alters Calm closeClientSocket := by
  refine .bind (.modifyInst fun inst => ?_) fun _ => .getInst fun inst => ?_
  · rw [Instance.closeSocket]
    split
    · exact ⟨rfl, rfl, id⟩
    · exact ⟨rfl, rfl, id⟩
  · refine .bind (.removeTimeout _) fun _ => .bind (.modifyInst fun _ => ⟨rfl, rfl, id⟩) fun _ => ?_
    refine .onlyIf fun _ => .bind (.removeTimeout _) fun _ => .modifyInst fun _ => ⟨rfl, rfl, id⟩

theorem reset_calm : Alters Calm (modifyInst (·.reset)) :=
  .modifyInst fun _ => ⟨rfl, rfl, fun _ => .inr ⟨rfl, rfl⟩⟩

theorem resetPoll_calm : Alters Calm resetPoll := by
  refine .bind (.modifyInst fun _ => ⟨rfl, rfl, id⟩) fun _ => .getInst fun inst => ?_
  refine .onlyIf fun _ => .bind (.modifyInst fun _ => ⟨rfl, rfl, id⟩) fun _ => .onlyIf fun _ => ?_
  exact (getTransmitDelay_calm false).bind restartTimeout_calm

theorem replaceSocket_calm : Alters Calm replaceSocket := by
  refine .getInst fun inst => ?_
  split
  · exact closeClientSocket_calm
  · exact .bind .ask fun a => .modifyInst fun _ => ⟨rfl, rfl, id⟩

theorem changeRemoteAddress_calm (remoteAddr : RemoteAddress) :
    Alters Calm (changeRemoteAddress remoteAddr) := by
  refine reset_calm.bind fun _ => .bind (.modifyInst fun _ => ⟨rfl, rfl, id⟩) fun _ => ?_
  refine replaceSocket_calm.bind fun _ => .bind .ask fun a => ?_
  refine .bind (.onlyIf fun _ => resetPoll_calm) fun _ => updateSource_calm.bind fun _ => ?_
  exact .modifyInst fun _ => ⟨rfl, rfl, id⟩

/-- **An association which is taken offline is not in a burst.** -/
theorem takeOffline_ends_burst (s : State) :
    Ends (fun _ => True) takeOffline s fun _ s' => ¬s'.inst.InBurst := by
  have hcalm : Alters Calm (do
      let inst ← getInst
      removeTimeout inst.txTimeoutId
      modifyInst ({ · with txTimeoutId := 0 })
      updateSource
      closeClientSocket
      modifyInst (·.reset)) := by
    refine .getInst fun inst => .bind (.removeTimeout _) fun _ => ?_
    refine .bind (.modifyInst fun _ => ⟨rfl, rfl, id⟩) fun _ => updateSource_calm.bind fun _ => ?_
    exact closeClientSocket_calm.bind fun _ => reset_calm
  exact modifyInst_ends ((hcalm _).mono fun _ s' h => Instance.not_inBurst_of_offline h.opmode)

/-! ### Responses -/

theorem copyStratum_calm (syncedPacket : Bool) : Alters Calm (copyStratum syncedPacket) := by
  refine .getInst fun inst => .onlyIf fun _ => .ite (fun _ => ?_) fun _ => updateSource_calm
  exact .modifyInst fun _ => ⟨rfl, rfl, id⟩

theorem requeueTimer_calm (saved kodRate : Bool) : Alters Calm (requeueTimer saved kodRate) := by
  refine .getInst fun inst => .onlyIf fun _ => (getTransmitDelay_calm false).bind fun _ => ?_
  refine .bind (.modifyInst fun inst => ?_) fun _ => .bind (.assert _ _) fun _ => ?_
  · split
    · exact ⟨rfl, rfl, id⟩
    · exact ⟨rfl, rfl, id⟩
  · exact restartTimeout_calm _

/-- **A good sample can only end a burst.** -/
theorem countBurstSample_noNewBurst : Alters NoNewBurst countBurstSample := by
  refine .getInst_eq fun s => ?_
  split
  · exact id
  · exact id
  next hmode => exact fun _ => .inr hmode
  next hmode =>
      refine modifyInst_ends (.onlyIf (fun _ => ?_) fun _ => id)
      exact (takeOffline_ends_burst _).mono fun _ _ h hburst => absurd hburst h

theorem processMeasurement_noNewBurst (u : SampleTests) :
    Alters NoNewBurst (processMeasurement u) := by
  refine .ite (fun _ => ?_) fun _ => ?_
  · exact (processSample_calm true).sameBurst.noNewBurst.bind fun _ => countBurstSample_noNewBurst
  · exact ((adjustPoll_calm _).bind fun _ => processSample_calm false).sameBurst.noNewBurst

/-- A measurement which is not good has no effect on a burst. -/
theorem processMeasurement_calm {u : SampleTests} (h : u.goodPacket = false) :
    Alters Calm (processMeasurement u) := by
  rw [processMeasurement, if_neg (by rw [h]; exact Bool.false_ne_true)]
  exact (adjustPoll_calm _).bind fun _ => processSample_calm false

/-- The parts of `acceptResponse` around the measurement have no effect on a burst. -/
theorem acceptResponse_alters {r : Instance → Instance → Prop} [IsPreorder Instance r]
    (hcalm : ∀ inst inst', Calm inst inst' → r inst inst') (saved : Bool) (response : Response)
    (t : Tests) {u : SampleTests} (hmeasure : Alters r (processMeasurement u)) :
    Alters r (acceptResponse saved response t u) := by
  refine .bind (.modifyInst fun _ => hcalm _ _ ⟨rfl, rfl, id⟩) fun _ => ?_
  refine .bind (updateSource_calm.mono hcalm) fun _ => ?_
  refine .bind ((copyStratum_calm _).mono hcalm) fun _ => hmeasure.bind fun _ => ?_
  refine .bind (closeClientSocket_calm.mono hcalm) fun _ => ?_
  refine .bind (.modifyInst fun _ => hcalm _ _ ⟨rfl, rfl, id⟩) fun _ => ?_
  refine .bind ((requeueTimer_calm _ _).mono hcalm) fun _ => ?_
  exact .bind (.modifyInst fun _ => hcalm _ _ ⟨rfl, rfl, id⟩) fun _ => .record _

theorem updateTimestamps_calm (r : Response) (t : Tests) (goodPacket : Bool) (inst : Instance) :
    Calm inst (updateTimestamps r t goodPacket inst) := by
  rw [updateTimestamps]
  split
  · exact ⟨rfl, rfl, id⟩
  · split
    · exact ⟨rfl, rfl, id⟩
    · exact ⟨rfl, rfl, id⟩

theorem finishResponse_noNewBurst (saved : Bool) (r : Response) (t : Tests) :
    Alters NoNewBurst (finishResponse saved r t) := by
  refine .getInst fun inst => .bind .ask fun a => ?_
  refine .bind (.modifyInst fun _ => (updateTimestamps_calm ..).sameBurst.mp) fun _ => ?_
  refine .getInst fun inst => .ite (fun _ => .pure _) fun _ => .ite (fun _ => ?_) fun _ => .pure _
  refine .bind (.modifyInst fun _ => id) fun _ => .bind ?_ fun _ => .pure _
  exact acceptResponse_alters (r := NoNewBurst) (fun _ _ h => h.sameBurst.mp) _ _ _
    (processMeasurement_noNewBurst _)

theorem processSavedResponse_noNewBurst : Alters NoNewBurst processSavedResponse := by
  refine .getInst fun inst => ?_
  split
  · exact .throw _
  · refine .bind (.removeTimeout _) fun _ => .bind (.modifyInst fun _ => id) fun _ => ?_
    exact .getInst fun inst => .bind (finishResponse_noNewBurst _ _ _) fun _ => .pure _

theorem saveResponse_noNewBurst (r : Response) : Alters NoNewBurst (saveResponse r) := by
  refine .bind .ask fun a => .ite (fun _ => .pure _) fun _ => .getInst fun inst => ?_
  refine .ite (fun _ => processSavedResponse_noNewBurst.bind fun _ => .pure _) fun _ => ?_
  exact .bind (.addTimeoutByDelay _ _) fun _ => .bind (.modifyInst fun _ => id) fun _ => .pure _

theorem processResponse_noNewBurst (r : Response) : Alters NoNewBurst (processResponse r) := by
  refine .getInst fun inst => .bind .ask fun a => .ite (fun _ => ?_) fun _ => ?_
  · refine (saveResponse_noNewBurst r).bind fun isSaved => .ite (fun _ => .pure _) fun _ => ?_
    exact finishResponse_noNewBurst _ _ _
  · exact finishResponse_noNewBurst _ _ _

theorem processRxKnown_noNewBurst (localAddr : LocalAddress) (rxTs : LocalTimestamp)
    (message : Option Message) : Alters NoNewBurst (processRxKnown localAddr rxTs message) := by
  refine .bind (.modifyInst fun _ => id) fun _ => .getInst fun inst => ?_
  split
  · exact .pure _
  · exact .ite (fun _ => processResponse_noNewBurst _) fun _ => .pure _

theorem updateTxTimestamp_calm (txTs : LocalTimestamp) (message : Message) (inst : Instance) :
    Calm inst (updateTxTimestamp txTs message inst) := by
  rw [updateTxTimestamp]
  dsimp only
  split_ifs
  · exact ⟨rfl, rfl, id⟩
  · exact ⟨rfl, rfl, id⟩
  · exact ⟨rfl, rfl, id⟩
  · exact ⟨rfl, rfl, id⟩

theorem processTxKnown_noNewBurst (txTs : LocalTimestamp) (message : Option Message) :
    Alters NoNewBurst (processTxKnown txTs message) := by
  unfold processTxKnown
  split
  · exact .pure _
  · refine .onlyIf fun _ => .bind (.modifyInst fun _ => ?_) fun _ => ?_
    · exact (updateTxTimestamp_calm ..).sameBurst.mp
    · exact .getInst fun _ => .onlyIf fun _ => processSavedResponse_noNewBurst

/-! ### Responses which are not accepted -/

/-- What a response which is not accepted does not change. -/
structure Refused (inst inst' : Instance) : Prop where
  calm : Calm inst inst'
  total : inst'.burstTotalSamplesToGo = inst.burstTotalSamplesToGo
  autoBurst : inst'.autoBurst = inst.autoBurst
  localPoll : inst'.localPoll = inst.localPoll
  minpoll : inst'.minpoll = inst.minpoll
  txTimeoutId : inst'.txTimeoutId = inst.txTimeoutId

theorem updateTimestamps_refused (r : Response) (t : Tests) (goodPacket : Bool)
    (inst : Instance) : Refused inst (updateTimestamps r t goodPacket inst) := by
  rw [updateTimestamps]
  split
  · exact ⟨⟨rfl, rfl, id⟩, rfl, rfl, rfl, rfl, rfl⟩
  · split
    · exact ⟨⟨rfl, rfl, id⟩, rfl, rfl, rfl, rfl, rfl⟩
    · exact ⟨⟨rfl, rfl, id⟩, rfl, rfl, rfl, rfl, rfl⟩

/-- **After the response to a request, no other response is valid.** -/
theorem Instance.Answered.validPacket_eq_false {inst : Instance} (h : inst.Answered)
    (hrx : inst.validRx = false) (auth : Bool) (message : Message) :
    (packetTests inst auth message).validPacket = false := by
  by_contra hvalid
  rw [Bool.not_eq_false] at hvalid
  have hreq := requested_of_validPacket (s := (⟨Sched.initialise 0, inst, [], default, 0⟩ : State))
    hvalid
  rcases h with htrue | ⟨hrx0, htx0⟩
  · rw [hrx] at htrue
    cases htrue
  · exact hreq.elim (absurd htx0) (absurd hrx0)

theorem finishResponse_refused (saved : Bool) (r : Response) {t : Tests}
    (hvalid : s.inst.validRx = false → t.validPacket = false) :
    Ends (fun _ => True) (finishResponse saved r t) s fun _ s' => Refused s.inst s'.inst := by
  rw [finishResponse]
  refine getInst_ends (ask_ends fun a n => modifyInst_ends (getInst_ends ?_))
  have hrefused := updateTimestamps_refused r t (sampleTests s.inst t a).goodPacket s.inst
  have hrx : (updateTimestamps r t (sampleTests s.inst t a).goodPacket s.inst).validRx =
      s.inst.validRx := by
    unfold updateTimestamps
    split_ifs <;> rfl
  split
  · exact hrefused
  next hnot =>
      rw [hrx, Bool.not_eq_true] at hnot
      rw [if_neg (by rw [hvalid hnot]; exact Bool.false_ne_true)]
      exact hrefused

theorem processSavedResponse_refused (h : s.inst.Answered) :
    Ends (fun _ => True) processSavedResponse s fun _ s' => Refused s.inst s'.inst := by
  rw [processSavedResponse]
  refine getInst_ends ?_
  split
  · trivial
  next saved _ =>
      refine Ends.bind (Q := fun _ s₁ => s₁.inst = s.inst) ?_ fun _ s₁ h₁ => ?_
      · rw [Ends, removeTimeout]
        split
        · rfl
        · trivial
      · refine modifyInst_ends (getInst_ends ?_)
        rw [h₁]
        refine Ends.bind (finishResponse_refused (s := { s₁ with inst := s.inst.clearSavedTimeout })
          true _ fun hrx => ?_) fun _ s' h' => ?_
        · have hclear : s.inst.clearSavedTimeout.Answered := h
          exact hclear.validPacket_eq_false hrx _ _
        · exact ⟨⟨h'.calm.mode, h'.calm.opmode, h'.calm.answered⟩, h'.total, h'.autoBurst,
            h'.localPoll, h'.minpoll, h'.txTimeoutId⟩

/-- **A burst of an answered request goes on**, until the transmit timeout. -/
def Waits (inst inst' : Instance) : Prop :=
  inst.InBurst ∧ inst.Answered → inst'.InBurst ∧ inst'.Answered

instance : IsPreorder Instance Waits where
  refl _ := id
  trans _ _ _ h h' := h' ∘ h

theorem Calm.waits {inst inst' : Instance} (h : Calm inst inst') : Waits inst inst' :=
  And.imp h.sameBurst.mpr h.answered

theorem Alters.waits {m : M α} (h : Alters Calm m) : Alters Waits m :=
  h.mono fun _ _ => Calm.waits

theorem processSavedResponse_waits : Alters Waits processSavedResponse := by
  intro s
  by_cases h : s.inst.Answered
  · exact (processSavedResponse_refused h).mono fun _ _ h' => h'.calm.waits
  · exact (processSavedResponse_noNewBurst s).mono fun _ _ _ hwait => absurd hwait.2 h

theorem processResponse_waits (r : Response) : Alters Waits (processResponse r) := by
  intro s
  by_cases h : s.inst.Answered
  · rw [processResponse]
    refine getInst_ends (ask_ends fun a n => ?_)
    have hvalid := fun hrx => h.validPacket_eq_false hrx a.checkAuth r.message
    have hsavable : isSavable s.inst (packetTests s.inst a.checkAuth r.message) a.hwTsEnabled =
        false := by
      cases hrx : s.inst.validRx with
      | true => simp [isSavable, hrx]
      | false => simp [isSavable, hvalid hrx]
    dsimp only
    rw [if_neg (by rw [hsavable]; exact Bool.false_ne_true)]
    exact (finishResponse_refused (s := { s with asked := n }) false r hvalid).mono
      fun _ _ h' => h'.calm.waits
  · exact (processResponse_noNewBurst r s).mono fun _ _ _ hwait => absurd hwait.2 h

/-! ### Transmissions -/

/-- **The transmit timeout ends the burst**: it looks at the number of all samples to go. -/
def Instance.BurstEnds (inst : Instance) : Prop :=
  (inst.opmode = .burstWasOnline → inst.burstTotalSamplesToGo ≤ 1) ∧
    (inst.opmode = .burstWasOffline → inst.burstTotalSamplesToGo ≤ 0)

/-- The transmit timeout starts an automatic burst. -/
def Instance.StartsBurst (inst : Instance) : Prop :=
  inst.mode = .client ∧ inst.opmode = .online ∧ inst.autoBurst = true ∧
    inst.localPoll > inst.minpoll

theorem Instance.burstEnds_of_not_inBurst {inst : Instance} (h : ¬inst.InBurst) :
    inst.BurstEnds :=
  ⟨fun hmode => absurd (.inr hmode) h, fun hmode => absurd (.inl hmode) h⟩

/-- What a transmission does to a burst. -/
structure Transmits (inst inst' : Instance) : Prop where
  goesOn : ¬inst.BurstEnds → inst'.InBurst
  ends : inst.BurstEnds → ¬inst.StartsBurst → ¬inst'.InBurst

theorem updateOpmode_transmits : Alters Transmits updateOpmode := by
  refine .getInst_eq fun s => ?_
  split
  next hmode =>
      have hoff : s.inst.opmode ≠ .burstWasOffline := by
        rw [hmode]
        decide
      refine .onlyIf (fun htotal => ⟨?_, fun _ _ => Instance.not_inBurst_of_online rfl⟩)
        fun htotal => ⟨fun _ => .inr hmode, fun hends => absurd (hends.1 hmode) htotal⟩
      exact fun hends => absurd ⟨fun _ => htotal, fun h => absurd h hoff⟩ hends
  next hmode =>
      have hon : s.inst.opmode ≠ .burstWasOnline := by
        rw [hmode]
        decide
      refine .onlyIf (fun htotal => ?_)
        fun htotal => ⟨fun _ => .inl hmode, fun hends => absurd (hends.2 hmode) htotal⟩
      refine (takeOffline_ends_burst s).mono fun _ s' h => ⟨fun hends => ?_, fun _ _ => h⟩
      exact absurd ⟨fun h => absurd h hon, fun _ => htotal⟩ hends
  next hmode =>
      have hnot : ¬s.inst.InBurst := Instance.not_inBurst_of_online hmode
      have hends := Instance.burstEnds_of_not_inBurst hnot
      refine .onlyIf (fun hauto => ?_) fun _ => ⟨absurd hends, fun _ _ => hnot⟩
      rw [initiateSampleBurst]
      refine getInst_ends ?_
      split
      · exact ⟨absurd hends, fun _ _ => hnot⟩
      next hoff => exact ⟨absurd hends, fun _ _ => hnot⟩
      next hon => exact ⟨absurd hends, fun _ _ => hnot⟩
      next hclient _ _ =>
          refine modifyInst_ends ((startInitialTimeout_calm _).mono fun _ s' _ => ?_)
          exact ⟨absurd hends, fun _ hstarts => absurd ⟨hclient, hmode, hauto⟩ hstarts⟩
  next hmode =>
      have hnot : ¬s.inst.InBurst := Instance.not_inBurst_of_offline hmode
      exact ⟨absurd (Instance.burstEnds_of_not_inBurst hnot), fun _ _ => hnot⟩

theorem prepareRequestAuth_calm : Alters Calm prepareRequestAuth := by
  refine .bind .ask fun a => ?_
  split
  · exact .pure _
  · exact (changeRemoteAddress_calm _).bind fun _ => .pure _

theorem openClientSocket_calm : Alters Calm openClientSocket := by
  refine .getInst fun inst => ?_
  split
  · exact .pure _
  · refine closeClientSocket_calm.bind fun _ => .getInst fun _ => .bind (.assert _ _) fun _ => ?_
    exact .bind .ask fun a => .modifyInst fun _ => ⟨rfl, rfl, id⟩

theorem transmitPacket_sameBurst : Alters SameBurst transmitPacket := by
  refine .bind .ask fun a => .bind (.record _) fun _ => ?_
  split
  · exact .pure _
  · exact .bind (.modifyInst fun _ => .of_opmode rfl) fun _ => .pure _

theorem missResponse_calm (sent : Bool) : Alters Calm (missResponse sent) := by
  refine .getInst fun inst => .onlyIf fun _ => .bind .ask fun a => ?_
  refine .bind (.onlyIf fun _ => adjustPoll_calm _) fun _ => updateSource_calm.bind fun _ => ?_
  exact processSample_calm false

/-- A burst goes on when the association is told to be offline. -/
theorem setConnectivity_offline_sameBurst : Alters SameBurst (setConnectivity .offline) := by
  refine .bind .ask fun a => .getInst_eq fun s => ?_
  rw [if_neg (by exact Bool.false_ne_true)]
  split
  next hmode =>
      refine (takeOffline_ends_burst s).mono fun _ s' h => iff_of_false h ?_
      exact Instance.not_inBurst_of_online hmode
  · exact Iff.rfl
  next hmode => exact iff_of_true (.inl rfl) (.inr hmode)
  · exact Iff.rfl

theorem countBurstRequest_sameBurst (sent : Bool) :
    Alters SameBurst (countBurstRequest sent) := by
  refine .bind .ask fun a => .modifyInst fun inst => .of_opmode ?_
  split
  · split <;> rfl
  all_goals rfl

theorem restartTimers_calm : Alters Calm restartTimers := by
  refine (getTransmitDelay_calm true).bind fun _ => (restartTimeout_calm _).bind fun _ => ?_
  refine .getInst fun inst => ?_
  split
  · exact .pure _
  · exact .bind (.addTimeoutByDelay _ _) fun _ => .modifyInst fun _ => ⟨rfl, rfl, id⟩

theorem sendRequest_sameBurst : Alters SameBurst sendRequest := by
  refine openClientSocket_calm.sameBurst.bind fun _ => ?_
  refine .bind (.modifyInst fun _ => .of_opmode rfl) fun _ => ?_
  refine transmitPacket_sameBurst.bind fun sent => ?_
  refine .bind (.modifyInst fun _ => .of_opmode rfl) fun _ => ?_
  refine (missResponse_calm sent).sameBurst.bind fun _ => .getInst fun inst => ?_
  refine .bind (.onlyIf fun _ => setConnectivity_offline_sameBurst) fun _ => ?_
  refine (countBurstRequest_sameBurst sent).bind fun _ => .getInst fun inst => .onlyIf fun _ => ?_
  exact restartTimers_calm.sameBurst

theorem Transmits.trans_sameBurst {inst inst' inst'' : Instance} (h : Transmits inst inst')
    (h' : SameBurst inst' inst'') : Transmits inst inst'' :=
  ⟨fun hends => h'.mpr (h.goesOn hends), fun hends hstarts => h.ends hends hstarts ∘ h'.mp⟩

theorem transmitRequest_transmits : Alters Transmits transmitRequest := by
  intro s
  refine (updateOpmode_transmits s).bind fun _ s₁ h₁ => ?_
  have hrest : Alters SameBurst (do
      let inst ← getInst
      onlyIf (inst.opmode ≠ .offline) do
        let prepared ← prepareRequestAuth
        if prepared then sendRequest
        else
          updateSource
          let delay ← getTransmitDelay true
          restartTimeout delay
          processSample false) := by
    refine .getInst fun inst => .onlyIf fun _ => prepareRequestAuth_calm.sameBurst.bind fun _ => ?_
    refine .ite (fun _ => sendRequest_sameBurst) fun _ => Alters.sameBurst ?_
    refine updateSource_calm.bind fun _ => (getTransmitDelay_calm true).bind fun _ => ?_
    exact (restartTimeout_calm _).bind fun _ => processSample_calm false
  exact (hrest s₁).mono fun _ s' h' => h₁.trans_sameBurst h'

theorem Refused.transmits {inst inst' inst'' : Instance} (h : Refused inst inst')
    (h' : Transmits inst' inst'') : Transmits inst inst'' := by
  have hends : inst'.BurstEnds ↔ inst.BurstEnds := by
    rw [Instance.BurstEnds, Instance.BurstEnds, h.calm.opmode, h.total]
  have hstarts : inst'.StartsBurst ↔ inst.StartsBurst := by
    rw [Instance.StartsBurst, Instance.StartsBurst, h.calm.opmode, h.calm.mode, h.autoBurst,
      h.localPoll, h.minpoll]
  refine ⟨fun hnot => h'.goesOn (hnot ∘ hends.mp), fun h₁ h₂ => ?_⟩
  exact h'.ends (hends.mpr h₁) (h₂ ∘ hstarts.mp)

/-- **The transmit timeout after an answered request.** A saved response is not accepted. -/
theorem transmitTimeout_transmits (h : s.inst.Answered) :
    Ends (fun _ => True) transmitTimeout s fun _ s' => Transmits s.inst s'.inst := by
  rw [transmitTimeout]
  refine modifyInst_ends (getInst_ends ?_)
  split
  · refine (processSavedResponse_refused (s := { s with inst := { s.inst with txTimeoutId := 0 } })
      h).bind fun _ s₂ h₂ => getInst_ends ?_
    have hzero : s₂.inst.txTimeoutId = 0 := h₂.txTimeoutId
    refine .onlyIf (fun _ => ?_) (absurd hzero)
    refine (transmitRequest_transmits s₂).mono fun _ s' h' => ?_
    obtain ⟨hgoes, hends⟩ := h₂.transmits h'
    exact ⟨hgoes, hends⟩
  · refine (transmitRequest_transmits _).mono fun _ s' h' => ?_
    exact ⟨h'.goesOn, h'.ends⟩

/-- The next transmission is scheduled when a saved response is accepted. -/
theorem finishResponse_refused_or_armed (hs : Sound s) (r : Response) (t : Tests) :
    Ends OutOfIds (finishResponse true r t) s fun _ s' =>
      Refused s.inst s'.inst ∨ Armed s' ∧ s'.inst.txSuspended = s.inst.txSuspended := by
  rw [finishResponse]
  refine getInst_ends (ask_ends fun a n => modifyInst_ends (getInst_ends ?_))
  have hrefused := updateTimestamps_refused r t (sampleTests s.inst t a).goodPacket s.inst
  have hstill := updateTimestamps_still (hs.asked n).base r t (sampleTests s.inst t a).goodPacket
  have h₁ := (hstill.stay (hs.asked n)).of_asked
  have hranges := h₁.sound.base.ranges
  split
  · exact .inl hrefused
  · split
    · refine modifyInst_ends (Ends.bind (acceptResponse_ends ?_ r t _ ?_) ?_)
      · exact h₁.sound.of_fields rfl ⟨hranges.localPoll, hranges.minpoll, hranges.maxpoll,
          hranges.maxDelay⟩ id id
      · exact fun hf => absurd hf (by decide)
      · rintro _ s' ⟨-, harmed, hsus, -, -⟩
        exact .inr ⟨harmed, hsus.trans h₁.txSuspended⟩
    · exact .inl hrefused

theorem processSavedResponse_refused_or_armed (hs : Sound s)
    (hsome : s.inst.savedResponse.isSome = true) :
    Ends OutOfIds processSavedResponse s fun _ s' =>
      Refused s.inst s'.inst ∨ Armed s' ∧ s'.inst.txSuspended = s.inst.txSuspended := by
  obtain ⟨saved, hsaved⟩ := Option.isSome_iff_exists.mp hsome
  have hid : s.inst.timeoutId .savedResponseTimeout = saved.timeoutId := by
    rw [Instance.timeoutId, Instance.savedTimeoutId, hsaved]
    rfl
  rw [processSavedResponse]
  refine getInst_ends ?_
  rw [hsaved]
  dsimp only
  rw [← hid]
  refine removeTimeout_ends .savedResponseTimeout hs.base.timers fun q hT => ?_
  refine modifyInst_ends (getInst_ends ?_)
  refine Ends.bind (finishResponse_refused_or_armed (clearSavedTimeout_sound hs hT) _ _) ?_
  rintro _ s' (h' | h')
  · exact .inl ⟨⟨h'.calm.mode, h'.calm.opmode, h'.calm.answered⟩, h'.total, h'.autoBurst,
      h'.localPoll, h'.minpoll, h'.txTimeoutId⟩
  · exact .inr h'

/-- **The transmit timeout outside of a burst.** -/
theorem transmitTimeout_noNewBurst (hs : Sound s) (hsus : s.inst.txSuspended = false)
    {q : Sched.State Handler Arg}
    (hT : Timers q (Function.update s.inst.timeoutId .transmitTimeout 0))
    (hburst : ¬s.inst.InBurst) (hstarts : ¬s.inst.StartsBurst) {s' : State}
    (h : transmitTimeout { s with sched := q } = .ok ((), s')) : ¬s'.inst.InBurst := by
  have hs₁ := clearTx_sound hs hT
  have hends : Ends (fun _ => True) transmitTimeout { s with sched := q }
      fun _ s' => ¬s'.inst.InBurst := by
    rw [transmitTimeout]
    refine modifyInst_ends (getInst_ends ?_)
    split
    next hsaved =>
        have hsome := savedResponse_isSome (hasSavedResponse_iff.mp hsaved)
        refine ((processSavedResponse_noNewBurst _).and
          (processSavedResponse_refused_or_armed hs₁ hsome)).bind ?_
        rintro _ s₂ ⟨hnew, h₂⟩
        have hburst₂ : ¬s₂.inst.InBurst := fun h => hburst (hnew h)
        refine getInst_ends (.onlyIf (fun htx => ?_) fun _ => hburst₂)
        refine (transmitRequest_transmits s₂).mono fun _ s' h' => ?_
        rcases h₂ with h₂ | ⟨harmed, hsus₂⟩
        · exact (h₂.transmits h').ends (Instance.burstEnds_of_not_inBurst hburst) hstarts
        · refine h'.ends (Instance.burstEnds_of_not_inBurst hburst₂) fun hstarts₂ => ?_
          exact harmed (by rw [hstarts₂.2.1]; decide) (hsus₂.trans hsus) htx
    · refine (transmitRequest_transmits _).mono fun _ s' h' => ?_
      exact h'.ends (Instance.burstEnds_of_not_inBurst hburst) hstarts
  exact hends.value h

end Chrony.NtpCore
