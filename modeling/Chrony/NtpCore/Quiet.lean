import Chrony.NtpCore.KodRate

/-!
# What the Functions Leave as It Is

Most functions of `ntp_core.c` do not accept a response, and they change neither the mode of the
association nor its protocol timestamps, except that they clear them. All of them keep the
polling intervals in their ranges. This module says so for one function after another
(`Quietly`), with the relations `Rests`, for the functions which send no request, and `Kept`, for
those which send one.

## Main results

* `transmitRequest_kept`: what a transmission leaves as it is.
* `startInstance_rests`, `destroyInstance_rests`: what the public operations leave as it is.
-/

namespace Chrony.NtpCore

open Lib Program

variable {α β : Type} {s s' : State}

/-! ### Relations -/

/-- **The polling intervals are in their ranges.** -/
structure Instance.PollsInRange (inst : Instance) : Prop where
  minPoll_le_minpoll : minPoll ≤ inst.minpoll
  minpoll_le_maxpoll : inst.minpoll ≤ inst.maxpoll
  maxpoll_le_maxPoll : inst.maxpoll ≤ maxPoll
  minPoll_le_localPoll : minPoll ≤ inst.localPoll
  localPoll_le_maxPoll : inst.localPoll ≤ maxPoll

/-- **The protocol timestamps are cleared**, as they are when the association is reset. -/
structure Instance.Cleared (inst : Instance) : Prop where
  remoteNtpRx : inst.remoteNtpRx = 0
  remoteNtpTx : inst.remoteNtpTx = 0
  localRx : inst.localRx = .zero
  initRemoteNtpTx : inst.initRemoteNtpTx = 0
  initLocalRx : inst.initLocalRx = .zero

/-- No request is known which could be responded. -/
def Instance.Idle (inst : Instance) : Prop :=
  inst.localNtpRx = 0 ∧ inst.localNtpTx = 0

/-- What every function keeps which does not process a response. -/
structure Kept (inst inst' : Instance) : Prop where
  mode : inst'.mode = inst.mode
  polls : inst.PollsInRange → inst'.PollsInRange
  cleared : inst.Cleared → inst'.Cleared
  saved : inst.savedTimeoutId = 0 → inst'.savedTimeoutId = 0

/-- What a function keeps which does not send a request either. -/
structure Rests (inst inst' : Instance) : Prop extends Kept inst inst' where
  idle : inst.Idle → inst'.Idle

instance : IsPreorder Instance Kept where
  refl _ := ⟨rfl, id, id, id⟩
  trans _ _ _ h h' :=
    ⟨h'.mode.trans h.mode, h'.polls ∘ h.polls, h'.cleared ∘ h.cleared, h'.saved ∘ h.saved⟩

instance : IsPreorder Instance Rests where
  refl _ := ⟨⟨rfl, id, id, id⟩, id⟩
  trans _ _ _ h h' := ⟨trans_of Kept h.toKept h'.toKept, h'.idle ∘ h.idle⟩

/-- What a function leaves which resets the association first. -/
structure Resets (inst inst' : Instance) : Prop extends Rests inst inst' where
  isCleared : inst'.Cleared
  isIdle : inst'.Idle

/-- The fields the relations depend on. -/
def Instance.protocolState (inst : Instance) :=
  (inst.mode, (inst.minpoll, inst.maxpoll, inst.localPoll),
    (inst.remoteNtpRx, inst.remoteNtpTx, inst.localRx, inst.initRemoteNtpTx, inst.initLocalRx),
    (inst.localNtpRx, inst.localNtpTx), inst.savedTimeoutId)

/-- Assignments to other fields. -/
theorem Rests.of_eq {inst inst' : Instance} (h : inst'.protocolState = inst.protocolState) :
    Rests inst inst' := by
  simp only [Instance.protocolState, Prod.mk.injEq] at h
  obtain ⟨hmode, ⟨hmin, hmax, hlocal⟩, ⟨hrx, htx, hlrx, hirx, hilrx⟩, ⟨hnrx, hntx⟩, hsaved⟩ := h
  refine ⟨⟨hmode, fun p => ⟨?_, ?_, ?_, ?_, ?_⟩, fun c => ⟨?_, ?_, ?_, ?_, ?_⟩, hsaved.trans⟩,
    fun i => ⟨?_, ?_⟩⟩
  · exact hmin ▸ p.minPoll_le_minpoll
  · exact hmin ▸ hmax ▸ p.minpoll_le_maxpoll
  · exact hmax ▸ p.maxpoll_le_maxPoll
  · exact hlocal ▸ p.minPoll_le_localPoll
  · exact hlocal ▸ p.localPoll_le_maxPoll
  · exact hrx.trans c.remoteNtpRx
  · exact htx.trans c.remoteNtpTx
  · exact hlrx.trans c.localRx
  · exact hirx.trans c.initRemoteNtpTx
  · exact hilrx.trans c.initLocalRx
  · exact hnrx.trans i.1
  · exact hntx.trans i.2

theorem Kept.of_eq {inst inst' : Instance} (h : inst'.protocolState = inst.protocolState) :
    Kept inst inst' :=
  (Rests.of_eq h).toKept

/-- An assignment to the polling interval. -/
theorem Rests.of_localPoll {inst : Instance} {localPoll : ℤ} {pollScore : ℚ}
    (h : inst.PollsInRange → minPoll ≤ localPoll ∧ localPoll ≤ maxPoll) :
    Rests inst { inst with localPoll, pollScore } where
  mode := rfl
  polls := fun p => ⟨p.minPoll_le_minpoll, p.minpoll_le_maxpoll, p.maxpoll_le_maxPoll, (h p).1,
    (h p).2⟩
  cleared := fun c => ⟨c.remoteNtpRx, c.remoteNtpTx, c.localRx, c.initRemoteNtpTx, c.initLocalRx⟩
  saved := id
  idle := id

/-- The timestamps of an association which was reset. -/
theorem Instance.cleared_reset (inst : Instance) : inst.reset.Cleared :=
  ⟨rfl, rfl, rfl, rfl, rfl⟩

theorem Rests.reset (inst : Instance) : Rests inst inst.reset where
  mode := rfl
  polls := fun p => ⟨p.minPoll_le_minpoll, p.minpoll_le_maxpoll, p.maxpoll_le_maxPoll,
    p.minPoll_le_localPoll, p.localPoll_le_maxPoll⟩
  cleared := fun _ => inst.cleared_reset
  saved := id
  idle := fun _ => ⟨rfl, rfl⟩

theorem slewTimestamp_zero (slew : Slew) : slewTimestamp slew .zero = .zero :=
  if_pos rfl

/-- A cleared timestamp is not slewed. -/
theorem Rests.slewTimes (slew : Slew) (inst : Instance) : Rests inst (slewTimes slew inst) where
  mode := rfl
  polls := fun p => ⟨p.minPoll_le_minpoll, p.minpoll_le_maxpoll, p.maxpoll_le_maxPoll,
    p.minPoll_le_localPoll, p.localPoll_le_maxPoll⟩
  cleared := fun c => ⟨c.remoteNtpRx, c.remoteNtpTx,
    (congrArg _ c.localRx).trans (slewTimestamp_zero slew), c.initRemoteNtpTx,
    (congrArg _ c.initLocalRx).trans (slewTimestamp_zero slew)⟩
  saved := (congrFun (slewTimes_timeoutId slew inst) .savedResponseTimeout).trans
  idle := id

theorem Rests.clearSavedTimeout (inst : Instance) : Rests inst inst.clearSavedTimeout where
  mode := rfl
  polls := fun p => ⟨p.minPoll_le_minpoll, p.minpoll_le_maxpoll, p.maxpoll_le_maxPoll,
    p.minPoll_le_localPoll, p.localPoll_le_maxPoll⟩
  cleared := fun c => ⟨c.remoteNtpRx, c.remoteNtpTx, c.localRx, c.initRemoteNtpTx, c.initLocalRx⟩
  saved := fun _ => clearSavedTimeout_savedTimeoutId inst
  idle := id

/-! ### Programs -/

/-- The number of responses which were accepted. -/
def State.accepted (s : State) : ℕ :=
  s.history.count .accepted

/-- **What a function does to the association without accepting a response**, if it does not
abort. -/
def Quietly (r : Instance → Instance → Prop) (m : M α) : Prop :=
  Relates (fun s s' => r s.inst s'.inst ∧ s'.accepted = s.accepted) m

instance (r : Instance → Instance → Prop) [IsPreorder Instance r] :
    IsPreorder State fun s s' => r s.inst s'.inst ∧ s'.accepted = s.accepted where
  refl s := ⟨refl_of r s.inst, rfl⟩
  trans _ _ _ h h' := ⟨trans_of r h.1 h'.1, h'.2.trans h.2⟩

namespace Quietly

variable {r r' : Instance → Instance → Prop} {m : M α} {f : α → M β}

theorem mono (h : Quietly r m) (hr : ∀ i i', r i i' → r' i i') : Quietly r' m :=
  Relates.mono h fun s s' h => ⟨hr s.inst s'.inst h.1, h.2⟩

theorem alters (h : Quietly r m) : Alters r m :=
  Relates.mono h fun _ _ => And.left

theorem throw (e : Abort) : Quietly r (MonadExceptOf.throw e : M α) :=
  Relates.throw e

theorem ite {p : Prop} [Decidable p] {m' : M α} (h : p → Quietly r m) (h' : ¬p → Quietly r m') :
    Quietly r (if p then m else m') :=
  Relates.ite h h'

theorem modifyInst {g : Instance → Instance} (h : ∀ inst, r inst (g inst)) :
    Quietly r (modifyInst g) :=
  fun s => ⟨h s.inst, rfl⟩

theorem getInst {f : Instance → M β} (hf : ∀ inst, Quietly r (f inst)) :
    Quietly r (NtpCore.getInst >>= f) :=
  fun s => hf s.inst s

variable [IsPreorder Instance r]

theorem pure (a : α) : Quietly r (Pure.pure a : M α) :=
  Relates.pure a

theorem bind (h : Quietly r m) (hf : ∀ a, Quietly r (f a)) : Quietly r (m >>= f) :=
  Relates.bind h hf

theorem onlyIf {p : Prop} [Decidable p] {m : M Unit} (h : p → Quietly r m) :
    Quietly r (onlyIf p m) :=
  Relates.onlyIf h

theorem assert (e : Abort) (p : Prop) [Decidable p] : Quietly r (assert e p) :=
  Relates.assert e p

theorem ask : Quietly r ask :=
  fun s => ⟨refl_of r s.inst, rfl⟩

theorem record_transmitted : Quietly r (record .transmitted) := by
  refine fun s => ⟨refl_of r s.inst, ?_⟩
  change (s.history ++ [Action.transmitted]).count .accepted = s.history.count .accepted
  rw [List.count_append]
  rfl

theorem removeTimeout (id : ℕ) : Quietly r (removeTimeout id) := by
  intro s
  rw [Ends, NtpCore.removeTimeout]
  split
  · exact ⟨refl_of r s.inst, rfl⟩
  · trivial

theorem addTimeout (add : Sched.State Handler Arg →
    Except Sched.Abort (Sched.State Handler Arg × Sched.TimerQueueEntry Handler Arg)) :
    Quietly r (addTimeout add) := by
  intro s
  rw [Ends, NtpCore.addTimeout]
  split
  · exact ⟨refl_of r s.inst, rfl⟩
  · trivial

theorem addTimeoutInClass (minDelay separation randomness : ℚ) (cls : Sched.TimeoutClass)
    (handler : Handler) :
    Quietly r (addTimeoutInClass minDelay separation randomness cls handler) :=
  ask.bind fun _ => addTimeout _

theorem addTimeoutByDelay (delay : ℚ) (handler : Handler) :
    Quietly r (addTimeoutByDelay delay handler) :=
  ask.bind fun _ => addTimeout _

end Quietly

theorem Quietly.kept {m : M α} (h : Quietly Rests m) : Quietly Kept m :=
  h.mono fun _ _ => Rests.toKept

/-! ### Timers and polling -/

theorem updateSource_rests : Quietly Rests updateSource := by
  refine .bind .ask fun a s => ?_
  show Rests s.inst (a.slews.foldl State.slew s).inst ∧ (a.slews.foldl State.slew s).accepted = _
  refine List.foldlRecOn a.slews State.slew
    (motive := fun s' => Rests s.inst s'.inst ∧ s'.accepted = s.accepted)
    ⟨refl_of Rests s.inst, rfl⟩ fun s' h' slew _ => ?_
  exact ⟨trans_of Rests h'.1 (.slewTimes slew s'.inst), h'.2⟩

theorem adjustPoll_rests (adj : ℚ) : Quietly Rests (adjustPoll adj) := by
  refine .bind .ask fun a => .modifyInst fun inst => .of_localPoll fun p => ?_
  exact Instance.adjustPoll_mem
    ⟨p.minPoll_le_minpoll, p.minpoll_le_maxpoll.trans p.maxpoll_le_maxPoll⟩
    ⟨p.minPoll_le_minpoll.trans p.minpoll_le_maxpoll, p.maxpoll_le_maxPoll⟩ adj a.reachable
    a.lanDelay

theorem accumulateSample_rests : Quietly Rests accumulateSample :=
  updateSource_rests.bind fun _ => .bind .ask fun a => adjustPoll_rests a.pollAdj

theorem processSample_rests (sample : Bool) : Quietly Rests (processSample sample) := by
  refine .getInst fun inst => ?_
  split
  · exact .onlyIf fun _ => accumulateSample_rests
  · refine .bind (.modifyInst fun _ => .of_eq rfl) fun _ => .bind .ask fun a => ?_
    refine .onlyIf fun _ => .bind (.modifyInst fun _ => .of_eq rfl) fun _ => ?_
    exact accumulateSample_rests

theorem getTransmitDelay_rests (onTx : Bool) : Quietly Rests (getTransmitDelay onTx) := by
  refine .getInst fun inst => .bind .ask fun a => .bind ?_ fun d => .pure _
  unfold delayOfMode
  split
  · exact .throw _
  · split
    · exact .pure _
    · exact .pure _
  · exact .pure _
  · exact .pure _

theorem restartTimeout_rests (delay : ℚ) : Quietly Rests (restartTimeout delay) := by
  refine .getInst fun inst => .ite (fun _ => .assert _ _) fun _ => ?_
  refine .bind (.removeTimeout _) fun _ => .bind (.modifyInst fun _ => .of_eq rfl) fun _ => ?_
  refine .bind (.removeTimeout _) fun _ => .bind (.bind (.assert _ _) fun _ => .pure _) fun _ => ?_
  exact .bind (.addTimeoutInClass _ _ _ _ _) fun _ => .modifyInst fun _ => .of_eq rfl

theorem startInitialTimeout_rests : Quietly Rests startInitialTimeout := by
  refine .getInst fun inst => .ite (fun _ => ?_) fun _ => ?_
  · exact (getTransmitDelay_rests false).bind fun _ => restartTimeout_rests _
  · exact .bind (.pure 0) fun _ => restartTimeout_rests _

theorem closeClientSocket_rests : Quietly Rests closeClientSocket := by
  refine .bind (.modifyInst fun inst => ?_) fun _ => .getInst fun inst => ?_
  · rw [Instance.closeSocket]
    split
    · exact .of_eq rfl
    · exact refl_of Rests inst
  · refine .bind (.removeTimeout _) fun _ => .bind (.modifyInst fun _ => .of_eq rfl) fun _ => ?_
    exact .onlyIf fun _ => .bind (.removeTimeout _) fun _ => .modifyInst Rests.clearSavedTimeout

theorem reset_rests : Quietly Rests (modifyInst (·.reset)) :=
  .modifyInst Rests.reset

theorem resetPoll_rests : Quietly Rests resetPoll := by
  refine .bind (.modifyInst fun _ => .of_eq rfl) fun _ s => ?_
  refine getInst_ends (.onlyIf (fun _ => ?_) fun _ => ⟨refl_of Rests s.inst, rfl⟩)
  have hmin : Rests s.inst { s.inst with localPoll := s.inst.minpoll } :=
    .of_localPoll fun p => ⟨p.minPoll_le_minpoll, p.minpoll_le_maxpoll.trans p.maxpoll_le_maxPoll⟩
  refine modifyInst_ends (.onlyIf (fun _ => ?_) fun _ => ⟨hmin, rfl⟩)
  have hrestart : Quietly Rests (do
      let delay ← getTransmitDelay false
      restartTimeout delay) :=
    (getTransmitDelay_rests false).bind restartTimeout_rests
  exact (hrestart _).mono fun _ s' h => ⟨trans_of Rests hmin h.1, h.2⟩

theorem replaceSocket_rests : Quietly Rests replaceSocket := by
  refine .getInst fun inst => ?_
  split
  · exact closeClientSocket_rests
  · exact .bind .ask fun a => .modifyInst fun _ => .of_eq rfl

theorem Quietly.reset {m : M Unit} (h : Quietly Rests m) :
    Quietly Resets (do NtpCore.modifyInst (·.reset); m) := by
  intro s
  refine modifyInst_ends ((h _).mono fun _ s' h' => ⟨⟨?_, ?_, ?_⟩, h'.2⟩)
  · exact trans_of Rests (Rests.reset s.inst) h'.1
  · exact h'.1.cleared s.inst.cleared_reset
  · exact h'.1.idle ⟨rfl, rfl⟩

theorem resetInstance_resets : Quietly Resets (do modifyInst (·.reset); resetPoll) :=
  resetPoll_rests.reset

theorem changeRemoteAddress_resets (remoteAddr : RemoteAddress) :
    Quietly Resets (changeRemoteAddress remoteAddr) := by
  refine Quietly.reset (.bind (.modifyInst fun _ => .of_eq rfl) fun _ => ?_)
  refine replaceSocket_rests.bind fun _ => .bind .ask fun a => ?_
  refine .bind (.onlyIf fun _ => resetPoll_rests) fun _ => updateSource_rests.bind fun _ => ?_
  exact .modifyInst fun _ => .of_eq rfl

theorem changeRemoteAddress_rests (remoteAddr : RemoteAddress) :
    Quietly Rests (changeRemoteAddress remoteAddr) :=
  (changeRemoteAddress_resets remoteAddr).mono fun _ _ => Resets.toRests

theorem takeOffline_rests : Quietly Rests takeOffline := by
  refine .bind (.modifyInst fun _ => .of_eq rfl) fun _ => .getInst fun inst => ?_
  refine .bind (.removeTimeout _) fun _ => .bind (.modifyInst fun _ => .of_eq rfl) fun _ => ?_
  exact updateSource_rests.bind fun _ => closeClientSocket_rests.bind fun _ => reset_rests

theorem initiateSampleBurst_rests (nGoodSamples nTotalSamples : ℤ) :
    Quietly Rests (initiateSampleBurst nGoodSamples nTotalSamples) := by
  refine .getInst fun inst => ?_
  split
  · exact .pure _
  · exact .pure _
  · exact .pure _
  · exact .bind (.modifyInst fun _ => .of_eq rfl) fun _ => startInitialTimeout_rests

theorem setConnectivity_rests (connectivity : Connectivity) :
    Quietly Rests (setConnectivity connectivity) := by
  refine .bind .ask fun a => .getInst fun inst => .ite (fun _ => ?_) fun _ => ?_
  · split
    · exact .pure _
    · refine .bind (.modifyInst fun _ => .of_eq rfl) fun _ => reset_rests.bind fun _ => ?_
      refine startInitialTimeout_rests.bind fun _ => ?_
      exact .onlyIf fun _ => initiateSampleBurst_rests _ _
    · exact .pure _
    · exact .modifyInst fun _ => .of_eq rfl
  · split
    · exact takeOffline_rests
    · exact .pure _
    · exact .modifyInst fun _ => .of_eq rfl
    · exact .pure _

/-! ### Requests -/

theorem updateOpmode_rests : Quietly Rests updateOpmode := by
  refine .getInst fun inst => ?_
  split
  · exact .onlyIf fun _ => .modifyInst fun _ => .of_eq rfl
  · exact .onlyIf fun _ => takeOffline_rests
  · exact .onlyIf fun _ => initiateSampleBurst_rests _ _
  · exact .pure _

theorem prepareRequestAuth_rests : Quietly Rests prepareRequestAuth := by
  refine .bind .ask fun a => ?_
  split
  · exact .pure _
  · exact (changeRemoteAddress_rests _).bind fun _ => .pure _

theorem openClientSocket_rests : Quietly Rests openClientSocket := by
  refine .getInst fun inst => ?_
  split
  · exact .pure _
  · refine closeClientSocket_rests.bind fun _ => .getInst fun _ => .bind (.assert _ _) fun _ => ?_
    exact .bind .ask fun a => .modifyInst fun _ => .of_eq rfl

/-- A request is known after a transmission. -/
theorem transmitPacket_kept : Quietly Kept transmitPacket := by
  refine .bind .ask fun a => .bind .record_transmitted fun _ => ?_
  split
  · exact .pure _
  · refine .bind (.modifyInst fun inst => ⟨rfl, fun p => ?_, fun c => ?_, id⟩) fun _ => .pure _
    · exact ⟨p.minPoll_le_minpoll, p.minpoll_le_maxpoll, p.maxpoll_le_maxPoll,
        p.minPoll_le_localPoll, p.localPoll_le_maxPoll⟩
    · exact ⟨c.remoteNtpRx, c.remoteNtpTx, c.localRx, c.initRemoteNtpTx, c.initLocalRx⟩

theorem missResponse_rests (sent : Bool) : Quietly Rests (missResponse sent) := by
  refine .getInst fun inst => .onlyIf fun _ => .bind .ask fun a => ?_
  refine .bind (.onlyIf fun _ => adjustPoll_rests _) fun _ => updateSource_rests.bind fun _ => ?_
  exact processSample_rests false

theorem countBurstRequest_rests (sent : Bool) : Quietly Rests (countBurstRequest sent) := by
  refine .bind .ask fun a => .modifyInst fun inst => .of_eq ?_
  split
  · split <;> rfl
  all_goals rfl

theorem restartTimers_rests : Quietly Rests restartTimers := by
  refine (getTransmitDelay_rests true).bind fun _ => (restartTimeout_rests _).bind fun _ => ?_
  refine .getInst fun inst => ?_
  split
  · exact .pure _
  · exact .bind (.addTimeoutByDelay _ _) fun _ => .modifyInst fun _ => .of_eq rfl

theorem sendRequest_kept : Quietly Kept sendRequest := by
  refine openClientSocket_rests.kept.bind fun _ => ?_
  refine .bind (.modifyInst fun _ => Kept.of_eq rfl) fun _ => ?_
  refine transmitPacket_kept.bind fun sent => ?_
  refine .bind (.modifyInst fun _ => Kept.of_eq rfl) fun _ => ?_
  refine (missResponse_rests sent).kept.bind fun _ => .getInst fun inst => ?_
  refine .bind (.onlyIf fun _ => (setConnectivity_rests _).kept) fun _ => ?_
  refine (countBurstRequest_rests sent).kept.bind fun _ => .getInst fun inst => .onlyIf fun _ => ?_
  exact restartTimers_rests.kept

/-- **A transmission** accepts no response and sets no protocol timestamp. -/
theorem transmitRequest_kept : Quietly Kept transmitRequest := by
  refine updateOpmode_rests.kept.bind fun _ => .getInst fun inst => .onlyIf fun _ => ?_
  refine prepareRequestAuth_rests.kept.bind fun _ => .ite (fun _ => sendRequest_kept) fun _ => ?_
  refine (updateSource_rests.bind fun _ => (getTransmitDelay_rests true).bind fun _ => ?_).kept
  exact (restartTimeout_rests _).bind fun _ => processSample_rests false

/-! ### Events -/

theorem startInstance_rests : Quietly Rests startInstance := by
  refine .bind (.modifyInst fun _ => .of_eq rfl) fun _ => .getInst fun inst => ?_
  exact .onlyIf fun _ => startInitialTimeout_rests

theorem destroyInstance_rests : Quietly Rests destroyInstance := by
  refine .getInst fun inst => .bind (.onlyIf fun _ => takeOffline_rests) fun _ => ?_
  exact updateSource_rests

theorem Rests.modifyMinpoll (inst : Instance) (newMinpoll : ℤ) :
    Rests inst (inst.modifyMinpoll newMinpoll) := by
  rw [Instance.modifyMinpoll]
  split
  · exact refl_of Rests inst
  next hrange =>
      rw [not_or, not_lt, not_lt] at hrange
      refine ⟨⟨rfl, fun p => ?_, fun c => ?_, id⟩, id⟩
      · have hmax := p.maxpoll_le_maxPoll
        refine ⟨hrange.1, ?_, ?_, p.minPoll_le_localPoll, p.localPoll_le_maxPoll⟩
        · dsimp only
          split <;> omega
        · dsimp only
          split <;> omega
      · exact ⟨c.remoteNtpRx, c.remoteNtpTx, c.localRx, c.initRemoteNtpTx, c.initLocalRx⟩

theorem Rests.modifyMaxpoll (inst : Instance) (newMaxpoll : ℤ) :
    Rests inst (inst.modifyMaxpoll newMaxpoll) := by
  rw [Instance.modifyMaxpoll]
  split
  · exact refl_of Rests inst
  next hrange =>
      rw [not_or, not_lt, not_lt] at hrange
      refine ⟨⟨rfl, fun p => ?_, fun c => ?_, id⟩, id⟩
      · have hmin := p.minPoll_le_minpoll
        refine ⟨?_, ?_, hrange.2, p.minPoll_le_localPoll, p.localPoll_le_maxPoll⟩
        · dsimp only
          split <;> omega
        · dsimp only
          split <;> omega
      · exact ⟨c.remoteNtpRx, c.remoteNtpTx, c.localRx, c.initRemoteNtpTx, c.initLocalRx⟩

end Chrony.NtpCore
