import Chrony.NtpCore.Quiet

/-!
# Polling Intervals

The limits of the polling interval can be changed at any time by commands, and the polling
interval itself is limited only when it is adjusted. All of them stay in the range from
`MIN_POLL` to `MAX_POLL`, which is what `get_separation` asserts. The number of samples in an
automatic burst is computed by a shift by the difference between the polling interval and its
minimum, which can be one bit too far.

## Main results

* `run_polls`: the polling intervals are in their ranges in every run.
* `run_autoBurst_iff`: when the number of samples in an automatic burst is right.
* `run_autoBurst_overflows`: a run in which it is not.
-/

namespace Chrony.NtpCore

open Lib Program

variable {α β : Type} {s s' : State} {w w' : World}

/-! ### Responses -/

/-- The polling intervals stay in their ranges. -/
structure PollsKept (inst inst' : Instance) : Prop where
  polls : inst.PollsInRange → inst'.PollsInRange

instance : IsPreorder Instance PollsKept where
  refl _ := ⟨id⟩
  trans _ _ _ h h' := ⟨h'.polls ∘ h.polls⟩

theorem Quietly.pollsKept {m : M α} (h : Quietly Kept m) : Alters PollsKept m :=
  (h.mono fun _ _ hkept => PollsKept.mk hkept.polls).alters

theorem PollsKept.of_eq {inst inst' : Instance} (h : inst'.minpoll = inst.minpoll)
    (hmax : inst'.maxpoll = inst.maxpoll) (hlocal : inst'.localPoll = inst.localPoll) :
    PollsKept inst inst' := by
  refine ⟨fun p => ⟨?_, ?_, ?_, ?_, ?_⟩⟩
  · exact h ▸ p.minPoll_le_minpoll
  · exact h ▸ hmax ▸ p.minpoll_le_maxpoll
  · exact hmax ▸ p.maxpoll_le_maxPoll
  · exact hlocal ▸ p.minPoll_le_localPoll
  · exact hlocal ▸ p.localPoll_le_maxPoll

theorem copyStratum_rests (syncedPacket : Bool) : Quietly Rests (copyStratum syncedPacket) := by
  refine .getInst fun inst => .onlyIf fun _ => .ite (fun _ => ?_) fun _ => updateSource_rests
  exact .modifyInst fun _ => .of_eq rfl

theorem countBurstSample_rests : Quietly Rests countBurstSample := by
  refine .getInst fun inst => ?_
  split
  · exact .pure _
  · exact .pure _
  · exact .modifyInst fun _ => .of_eq rfl
  · exact .bind (.modifyInst fun _ => .of_eq rfl) fun _ => .onlyIf fun _ => takeOffline_rests

theorem processMeasurement_rests (u : SampleTests) : Quietly Rests (processMeasurement u) := by
  refine .ite (fun _ => ?_) fun _ => ?_
  · exact (processSample_rests true).bind fun _ => countBurstSample_rests
  · exact (adjustPoll_rests _).bind fun _ => processSample_rests false

theorem requeueTimer_rests (saved kodRate : Bool) : Quietly Rests (requeueTimer saved kodRate) := by
  refine .getInst fun inst => .onlyIf fun _ => (getTransmitDelay_rests false).bind fun _ => ?_
  refine .bind (.modifyInst fun inst => ?_) fun _ => .bind (.assert _ _) fun _ => ?_
  · split
    · exact .of_eq rfl
    · exact refl_of Rests inst
  · exact restartTimeout_rests _

theorem acceptResponse_pollsKept (saved : Bool) (r : Response) (t : Tests) (u : SampleTests) :
    Alters PollsKept (acceptResponse saved r t u) := by
  refine .bind (.modifyInst fun _ => .of_eq rfl rfl rfl) fun _ => ?_
  refine updateSource_rests.kept.pollsKept.bind fun _ => ?_
  refine (copyStratum_rests _).kept.pollsKept.bind fun _ => ?_
  refine (processMeasurement_rests u).kept.pollsKept.bind fun _ => ?_
  refine closeClientSocket_rests.kept.pollsKept.bind fun _ => ?_
  refine .bind (.modifyInst fun _ => .of_eq rfl rfl rfl) fun _ => ?_
  refine (requeueTimer_rests _ _).kept.pollsKept.bind fun _ => ?_
  exact .bind (.modifyInst fun _ => .of_eq rfl rfl rfl) fun _ => .record _

theorem updateTimestamps_pollsKept (r : Response) (t : Tests) (goodPacket : Bool)
    (inst : Instance) : PollsKept inst (updateTimestamps r t goodPacket inst) := by
  rw [updateTimestamps]
  split
  · exact .of_eq rfl rfl rfl
  · split
    · exact .of_eq rfl rfl rfl
    · exact refl_of PollsKept inst

theorem finishResponse_pollsKept (saved : Bool) (r : Response) (t : Tests) :
    Alters PollsKept (finishResponse saved r t) := by
  refine .getInst fun inst => .bind .ask fun a => ?_
  refine .bind (.modifyInst fun _ => updateTimestamps_pollsKept ..) fun _ => ?_
  refine .getInst fun inst => .ite (fun _ => .pure _) fun _ => .ite (fun _ => ?_) fun _ => .pure _
  refine .bind (.modifyInst fun _ => .of_eq rfl rfl rfl) fun _ => .bind ?_ fun _ => .pure _
  exact acceptResponse_pollsKept _ _ _ _

theorem processSavedResponse_pollsKept : Alters PollsKept processSavedResponse := by
  refine .getInst fun inst => ?_
  split
  · exact .throw _
  · refine .bind (.removeTimeout _) fun _ => ?_
    refine .bind (.modifyInst fun _ => .of_eq rfl rfl rfl) fun _ => ?_
    exact .getInst fun inst => .bind (finishResponse_pollsKept _ _ _) fun _ => .pure _

theorem saveResponse_pollsKept (r : Response) : Alters PollsKept (saveResponse r) := by
  refine .bind .ask fun a => .ite (fun _ => .pure _) fun _ => .getInst fun inst => ?_
  refine .ite (fun _ => processSavedResponse_pollsKept.bind fun _ => .pure _) fun _ => ?_
  refine .bind (.addTimeoutByDelay _ _) fun _ => ?_
  exact .bind (.modifyInst fun _ => .of_eq rfl rfl rfl) fun _ => .pure _

theorem processResponse_pollsKept (r : Response) : Alters PollsKept (processResponse r) := by
  refine .getInst fun inst => .bind .ask fun a => .ite (fun _ => ?_) fun _ => ?_
  · refine (saveResponse_pollsKept r).bind fun isSaved => .ite (fun _ => .pure _) fun _ => ?_
    exact finishResponse_pollsKept _ _ _
  · exact finishResponse_pollsKept _ _ _

theorem processRxKnown_pollsKept (localAddr : LocalAddress) (rxTs : LocalTimestamp)
    (message : Option Message) : Alters PollsKept (processRxKnown localAddr rxTs message) := by
  refine .bind (.modifyInst fun _ => .of_eq rfl rfl rfl) fun _ => .getInst fun inst => ?_
  split
  · exact .pure _
  · exact .ite (fun _ => processResponse_pollsKept _) fun _ => .pure _

theorem updateTxTimestamp_pollsKept (txTs : LocalTimestamp) (message : Message)
    (inst : Instance) : PollsKept inst (updateTxTimestamp txTs message inst) := by
  rw [updateTxTimestamp]
  split
  · exact refl_of PollsKept inst
  · split
    · exact refl_of PollsKept inst
    · dsimp only
      split
      · exact refl_of PollsKept inst
      · exact .of_eq rfl rfl rfl

theorem processTxKnown_pollsKept (txTs : LocalTimestamp) (message : Option Message) :
    Alters PollsKept (processTxKnown txTs message) := by
  unfold processTxKnown
  split
  · exact .pure _
  · refine .onlyIf fun _ => .bind (.modifyInst fun _ => updateTxTimestamp_pollsKept ..) fun _ => ?_
    exact .getInst fun _ => .onlyIf fun _ => processSavedResponse_pollsKept

/-! ### Events -/

/-- **Every event** keeps the polling intervals in their ranges. -/
theorem Event.program_pollsKept (event : Event) : Alters PollsKept event.program := by
  cases event with
  | start => exact startInstance_rests.kept.pollsKept
  | setConnectivity connectivity => exact (setConnectivity_rests connectivity).kept.pollsKept
  | initiateSampleBurst nGood nTotal => exact (initiateSampleBurst_rests _ _).kept.pollsKept
  | reset => exact reset_rests.kept.pollsKept
  | resetPoll => exact resetPoll_rests.kept.pollsKept
  | changeRemoteAddress remoteAddr => exact (changeRemoteAddress_rests remoteAddr).kept.pollsKept
  | modifyMinpoll newMinpoll =>
      exact Alters.modifyInst (r := PollsKept) fun inst => ⟨(Rests.modifyMinpoll inst _).polls⟩
  | modifyMaxpoll newMaxpoll =>
      exact Alters.modifyInst (r := PollsKept) fun inst => ⟨(Rests.modifyMaxpoll inst _).polls⟩
  | modifyMaxdelay newMaxDelay =>
      have hkept : ∀ inst : Instance,
          PollsKept inst { inst with maxDelay := clampMaxDelay newMaxDelay } :=
        fun _ => .of_eq rfl rfl rfl
      exact .modifyInst hkept
  | processRxKnown localAddr rxTs message =>
      exact (processRxKnown_pollsKept localAddr rxTs message).bind fun _ => .pure _
  | processTxKnown txTs message => exact processTxKnown_pollsKept txTs message
  | create => exact .pure _
  | destroy => exact .pure _
  | dispatch => exact .pure _
  | slew => exact .pure _
  | unknownStep => exact .pure _
  | addOther => exact .pure _
  | removeOther => exact .pure _

theorem transmitTimeout_pollsKept : Alters PollsKept transmitTimeout := by
  refine .bind (.modifyInst fun _ => .of_eq rfl rfl rfl) fun _ => .getInst fun inst => ?_
  refine .ite (fun _ => ?_) fun _ => transmitRequest_kept.pollsKept
  refine processSavedResponse_pollsKept.bind fun _ => .getInst fun inst => .onlyIf fun _ => ?_
  exact transmitRequest_kept.pollsKept

theorem Handler.program_pollsKept (k : Handler) : Alters PollsKept k.program := by
  cases k with
  | transmitTimeout => exact transmitTimeout_pollsKept
  | receiveTimeout =>
      refine .bind (.modifyInst fun _ => .of_eq rfl rfl rfl) fun _ => ?_
      exact closeClientSocket_rests.kept.pollsKept
  | savedResponseTimeout =>
      refine .bind (.modifyInst fun _ => .of_eq rfl rfl rfl) fun _ => ?_
      exact processSavedResponse_pollsKept
  | other => exact .pure _

/-- The polling intervals of a new association. -/
theorem Params.pollsInRange_toInstance (params : Params) (remoteAddr : RemoteAddress)
    (sockFd : ℤ) : (params.toInstance remoteAddr sockFd).PollsInRange := by
  have hlimit : ∀ default poll, minPoll ≤ default → default ≤ maxPoll →
      minPoll ≤ limitPoll default poll ∧ limitPoll default poll ≤ maxPoll := by
    intro default poll hmin hmax
    rw [limitPoll]
    split
    · exact ⟨hmin, hmax⟩
    · split
      · exact ⟨by decide, le_rfl⟩
      · omega
  have hminpoll := hlimit defaultMinpoll params.minpoll (by decide) (by decide)
  have hmaxpoll := hlimit defaultMaxpoll params.maxpoll (by decide) (by decide)
  have hnonlan : minNonlanPoll ≤ maxPoll := by decide
  rw [Params.toInstance]
  refine ⟨hminpoll.1, ?_, ?_, ?_, ?_⟩
  · dsimp only [Instance.reset]
    split <;> omega
  · dsimp only [Instance.reset]
    split
    · exact hminpoll.2
    · exact hmaxpoll.2
  · exact hminpoll.1.trans (le_max_left _ _)
  · exact max_le hminpoll.2 hnonlan

/-! ### Runs -/

/-- The polling intervals of the association, if it exists. -/
def World.PollsInRange (w : World) : Prop :=
  ∀ inst, w.inst = some inst → inst.PollsInRange

theorem World.PollsInRange.of_inst_eq (hw : w.PollsInRange) (h : w'.inst = w.inst) :
    w'.PollsInRange := by
  intro inst hinst
  exact hw inst (h.symm.trans hinst)

/-- The association after a function which keeps the polling intervals. -/
theorem PollsKept.pollsInRange {inst : Instance} (hp : inst.PollsInRange)
    (h : ∃ inst', w'.inst = some inst' ∧ PollsKept inst inst') : w'.PollsInRange := by
  obtain ⟨inst', hinst', hkept⟩ := h
  intro inst₁ hinst₁
  obtain rfl := Option.some.inj (hinst'.symm.trans hinst₁)
  exact hkept.polls hp

theorem dispatch_polls (hw : w.Invariant) (hp : w.PollsInRange) {answers : ℕ → Answers} {now : ℚ}
    (h : w.dispatch answers now = .ok w') : w'.PollsInRange := by
  rcases World.dispatch_eq_ok hw h with
    ⟨hsame, -⟩ | ⟨inst, ptr, rest, q, s', hinst, -, -, -, -, -, hs', hinst', -⟩
  · exact hp.of_inst_eq hsame
  · have hkept := (Handler.program_pollsKept ptr.handler _).value hs'
    exact PollsKept.pollsInRange (hp inst hinst) ⟨s'.inst, hinst', hkept⟩

theorem changeClock_polls (hp : w.PollsInRange) {answers : ℕ → Answers} {cooked : Timespec}
    {dfreq doffset : ℚ} {changeType : Sched.ChangeType}
    (h : w.changeClock answers cooked dfreq doffset changeType = .ok w') : w'.PollsInRange := by
  rw [World.changeClock] at h
  dsimp only at h
  split at h
  next hnone =>
      obtain rfl := Except.ok.inj h
      exact hp
  next inst hinst =>
      split at h
      · have hkept : Alters PollsKept (do modifyInst (·.reset); resetPoll) :=
          (reset_rests.bind fun _ => resetPoll_rests).kept.pollsKept
        exact PollsKept.pollsInRange (hp inst hinst) (World.exec_alters hkept h)
      · obtain rfl := Except.ok.inj h
        exact PollsKept.pollsInRange (hp inst hinst) ⟨_, rfl, ⟨(Rests.slewTimes _ inst).polls⟩⟩

/-- **Every step keeps the polling intervals in their ranges.** -/
theorem step_polls (hw : w.Invariant) (hp : w.PollsInRange) {event : Event × (ℕ → Answers)}
    (h : step w event = .ok w') : w'.PollsInRange := by
  obtain ⟨event, answers⟩ := event
  rw [step] at h
  dsimp only at h
  split at h
  next params remoteAddr sockFd hnone =>
      refine PollsKept.pollsInRange (params.pollsInRange_toInstance remoteAddr sockFd) ?_
      exact World.exec_alters (setConnectivity_rests _).kept.pollsKept h
  · exact Except.ok.inj h ▸ hp
  · exact Except.ok.inj h ▸ hp
  · rw [bind_eq_ok_iff] at h
    obtain ⟨w₁, -, h⟩ := h
    obtain rfl := Except.ok.inj h
    intro inst hinst
    cases hinst
  · exact dispatch_polls hw hp h
  · exact changeClock_polls hp h
  · exact changeClock_polls hp h
  · rw [bind_eq_ok_iff] at h
    obtain ⟨_, -, h⟩ := h
    exact Except.ok.inj h ▸ hp
  · split at h
    · rw [bind_eq_ok_iff] at h
      obtain ⟨_, -, h⟩ := h
      exact Except.ok.inj h ▸ hp
    · exact Except.ok.inj h ▸ hp
  next inst _ _ _ _ _ _ _ hinst =>
      exact PollsKept.pollsInRange (hp inst hinst)
        (World.exec_alters (Event.program_pollsKept _) h)
  · exact Except.ok.inj h ▸ hp

theorem run_pollsInRange {now : ℚ} {events : List (Event × (ℕ → Answers))}
    (h : run now events = .ok w) : w.PollsInRange := by
  refine (foldlM_invariant (P := fun w => w.Invariant ∧ w.PollsInRange) ?_ ?_ h).2
  · intro w event w' hw hstep
    exact ⟨((step_returns hw.1 event).value hstep).1, step_polls hw.1 hw.2 hstep⟩
  · refine ⟨initialise_invariant now, fun inst hinst => ?_⟩
    cases hinst

/-! ### Limits of the polling interval -/

mutual

/-- `NCR_ModifyMinpoll`, with the depth of the stack. -/
def ncrModifyMinpoll : ℕ → Instance → ℤ → Option Instance
  | 0, _, _ => none
  | depth + 1, inst, newMinpoll =>
      if newMinpoll < minPoll ∨ newMinpoll > maxPoll then some inst
      else
        let inst := { inst with minpoll := newMinpoll }
        if inst.maxpoll < inst.minpoll then ncrModifyMaxpoll depth inst inst.minpoll
        else some inst

/-- `NCR_ModifyMaxpoll`, with the depth of the stack. -/
def ncrModifyMaxpoll : ℕ → Instance → ℤ → Option Instance
  | 0, _, _ => none
  | depth + 1, inst, newMaxpoll =>
      if newMaxpoll < minPoll ∨ newMaxpoll > maxPoll then some inst
      else
        let inst := { inst with maxpoll := newMaxpoll }
        if inst.minpoll > inst.maxpoll then ncrModifyMinpoll depth inst inst.maxpoll
        else some inst

end

/-- **The recursion ends in the nested call**, which finds the two limits equal. -/
theorem ncrModifyMinpoll_eq (depth : ℕ) (inst : Instance) (newMinpoll : ℤ) :
    ncrModifyMinpoll (depth + 2) inst newMinpoll = some (inst.modifyMinpoll newMinpoll) := by
  rw [ncrModifyMinpoll, Instance.modifyMinpoll]
  split
  · rfl
  next hrange =>
      dsimp only
      split
      · rw [ncrModifyMaxpoll, if_neg hrange]
        dsimp only
        rw [if_neg (lt_irrefl newMinpoll)]
      · rfl

theorem ncrModifyMaxpoll_eq (depth : ℕ) (inst : Instance) (newMaxpoll : ℤ) :
    ncrModifyMaxpoll (depth + 2) inst newMaxpoll = some (inst.modifyMaxpoll newMaxpoll) := by
  rw [ncrModifyMaxpoll, Instance.modifyMaxpoll]
  split
  · rfl
  next hrange =>
      dsimp only
      split
      · rw [ncrModifyMinpoll, if_neg hrange]
        dsimp only
        rw [if_neg (lt_irrefl newMaxpoll)]
      · rfl

/-- **The interval of the next transmission** of a peer depends on the interval of the other
peer. -/
theorem Instance.PollsInRange.getTransmitPoll_mem {inst : Instance} (h : inst.PollsInRange)
    (reachable : Bool) :
    minPoll ≤ getTransmitPoll inst reachable ∧ getTransmitPoll inst reachable ≤ maxPoll := by
  rw [getTransmitPoll]
  split
  next hpeer =>
      have hremote : inst.remotePoll ≤ maxPoll := hpeer.2.1.le.trans h.localPoll_le_maxPoll
      have hminpoll : inst.minpoll ≤ maxPoll := h.minpoll_le_maxpoll.trans h.maxpoll_le_maxPoll
      exact ⟨h.minPoll_le_minpoll.trans (le_max_right _ _), max_le hremote hminpoll⟩
  · exact ⟨h.minPoll_le_localPoll, h.localPoll_le_maxPoll⟩

/-- **The polling intervals are in their ranges in every run**: the limits, the interval of the
association and the one used for the next transmission. The functions which change the limits
return, and the assertion of `get_separation` does not fail. -/
theorem run_polls (now : ℚ) (events : List (Event × (ℕ → Answers))) :
    (∀ w inst, run now events = .ok w → w.inst = some inst →
      inst.PollsInRange ∧ ∀ reachable,
        minPoll ≤ getTransmitPoll inst reachable ∧ getTransmitPoll inst reachable ≤ maxPoll) ∧
    (∀ inst newPoll depth,
      ncrModifyMinpoll (depth + 2) inst newPoll = some (inst.modifyMinpoll newPoll) ∧
      ncrModifyMaxpoll (depth + 2) inst newPoll = some (inst.modifyMaxpoll newPoll)) ∧
    run now events ≠ .error .separation := by
  refine ⟨fun w inst h hinst => ?_, fun inst newPoll depth => ?_, fun h => ?_⟩
  · have hpolls := run_pollsInRange h inst hinst
    exact ⟨hpolls, hpolls.getTransmitPoll_mem⟩
  · exact ⟨ncrModifyMinpoll_eq depth inst newPoll, ncrModifyMaxpoll_eq depth inst newPoll⟩
  · have houtOfIds := (run_invariant now events).error h
    cases houtOfIds

/-! ### Automatic bursts -/

/-- `transmit_timeout` before the operating mode is changed: the saved response is processed. It
returns whether the function goes on. -/
def beforeRequest : M Bool := do
  modifyInst ({ · with txTimeoutId := 0 })
  let inst ← getInst
  if inst.hasSavedResponse then
    processSavedResponse
    let inst ← getInst
    pure (inst.txTimeoutId = 0)
  else pure true

theorem transmitTimeout_eq :
    transmitTimeout = beforeRequest >>= fun goesOn => onlyIf goesOn transmitRequest := by
  rw [transmitTimeout, beforeRequest]
  simp only [bind_assoc]
  congr 1
  funext _
  congr 1
  funext inst
  split
  · simp only [bind_assoc]
    congr 1
    funext _
    congr 1
    funext inst
    simp only [onlyIf, decide_eq_true_eq, pure_bind]
  · simp only [onlyIf, if_true, pure_bind]

theorem beforeRequest_pollsKept : Alters PollsKept beforeRequest := by
  refine .bind (.modifyInst fun _ => .of_eq rfl rfl rfl) fun _ => .getInst fun inst => ?_
  refine .ite (fun _ => ?_) fun _ => .pure _
  exact processSavedResponse_pollsKept.bind fun _ => .getInst fun inst => .pure _

/-- The number of samples in an automatic burst. -/
def Instance.burstTotal (inst : Instance) : ℤ :=
  min (shiftOne (inst.localPoll - inst.minpoll)) maxBurstTotalSamples

/-- `1 << n` is defined: the result is representable in a signed 32-bit integer. -/
def ShiftDefined (n : ℤ) : Prop :=
  0 ≤ n ∧ 2 ^ n.toNat < (2 : ℤ) ^ 31

/-- **The size of an automatic burst is right**: it is computed without overflow, and it has at
least two samples and no more than the maximum. -/
def Instance.SaneBurst (inst : Instance) : Prop :=
  ShiftDefined (inst.localPoll - inst.minpoll) ∧ 2 ≤ inst.burstTotal ∧
    inst.burstTotal ≤ maxBurstTotalSamples

theorem shiftOne_eq {n : ℕ} (h : n < 31) : shiftOne n = 2 ^ n := by
  have hall : ∀ n < 31, shiftOne (n : ℕ) = 2 ^ n := by decide
  exact hall n h

/-- A shift by at least one bit, which is defined. -/
theorem Instance.saneBurst_of_lt {inst : Instance} (hpos : inst.localPoll > inst.minpoll)
    (hlt : inst.localPoll - inst.minpoll < 31) : inst.SaneBurst := by
  obtain ⟨n, hn⟩ := Int.eq_ofNat_of_zero_le (sub_nonneg.mpr hpos.le)
  have hn31 : n < 31 := by omega
  have hn1 : 1 ≤ n := by omega
  have hpow : (2 : ℤ) ≤ 2 ^ n := le_self_pow₀ one_le_two (by omega)
  rw [Instance.SaneBurst, Instance.burstTotal, ShiftDefined, hn, shiftOne_eq hn31]
  refine ⟨⟨Int.natCast_nonneg n, ?_⟩, le_min hpow (by decide), min_le_right _ _⟩
  rw [Int.toNat_natCast]
  exact pow_lt_pow_right₀ one_lt_two hn31

/-- The largest difference between the interval and its minimum, which is one bit too far. -/
theorem Instance.not_saneBurst {inst : Instance} (hlocal : inst.localPoll = maxPoll)
    (hmin : inst.minpoll = minPoll) : ¬inst.SaneBurst := by
  rintro ⟨hdefined, -⟩
  rw [hlocal, hmin] at hdefined
  exact absurd hdefined.2 (by decide)

/-- **An automatic burst has a right size unless the interval is the maximum and its limit is
the minimum.** -/
theorem Instance.PollsInRange.saneBurst_iff {inst : Instance} (h : inst.PollsInRange)
    (hpos : inst.localPoll > inst.minpoll) :
    inst.SaneBurst ↔ ¬(inst.localPoll = maxPoll ∧ inst.minpoll = minPoll) := by
  constructor
  · rintro hsane ⟨hlocal, hmin⟩
    exact Instance.not_saneBurst hlocal hmin hsane
  · intro hne
    refine Instance.saneBurst_of_lt hpos ?_
    have hminpoll := h.minPoll_le_minpoll
    have hlocal := h.localPoll_le_maxPoll
    rw [minPoll] at hne hminpoll
    rw [maxPoll] at hne hlocal
    omega

theorem updateOpmode_startsBurst (h : s.inst.StartsBurst) :
    updateOpmode s = initiateSampleBurst burstGoodSamples s.inst.burstTotal s := by
  obtain ⟨-, hmode, hauto, hpos⟩ := h
  rw [updateOpmode, show ∀ f : Instance → M Unit, (getInst >>= f) s = f s.inst s from
    fun _ => rfl, hmode]
  dsimp only
  rw [onlyIf, if_pos ⟨hauto, hpos⟩]
  rfl

/-- **Automatic bursts in every run**: the transmit timeout of a reached association goes on in
the state `s` after a saved response was processed. If it starts an automatic burst, then the
number of samples it initiates is right if and only if the polling interval and its minimum in
that state are not `MAX_POLL` and `MIN_POLL`. -/
theorem run_autoBurst_iff {now : ℚ} {events : List (Event × (ℕ → Answers))} {inst : Instance}
    (h : run now events = .ok w) (hinst : w.inst = some inst) {answers : ℕ → Answers}
    {q : Sched.State Handler Arg}
    (hbefore : beforeRequest { w.state inst answers with sched := q } = .ok (true, s))
    (hstarts : s.inst.StartsBurst) :
    transmitTimeout { w.state inst answers with sched := q } = transmitRequest s ∧
      updateOpmode s = initiateSampleBurst burstGoodSamples s.inst.burstTotal s ∧
      (s.inst.SaneBurst ↔ ¬(s.inst.localPoll = maxPoll ∧ s.inst.minpoll = minPoll)) := by
  refine ⟨?_, updateOpmode_startsBurst hstarts, ?_⟩
  · rw [transmitTimeout_eq]
    change (beforeRequest _ >>= fun r => (onlyIf r.1 transmitRequest : M Unit) r.2) = _
    rw [hbefore]
    rfl
  · have hpolls := (beforeRequest_pollsKept _).value hbefore
    exact (hpolls.polls (run_pollsInRange h inst hinst)).saneBurst_iff hstarts.2.2.2

/-- An association with the `burst` option is created with one interval as both limits, it is
started, and its minimum interval is changed. -/
def autoBurstEvents (poll newMinpoll : ℤ) : List (Event × (ℕ → Answers)) :=
  [(.create ⟨.client, false, poll, poll, 100, 3, false, true, false, false, 0, .online⟩
      ⟨.inet4 2, 123⟩ 0, sampleAnswers false 7),
    (.start, sampleAnswers false 7),
    (.modifyMinpoll newMinpoll, sampleAnswers false 7)]

/-- What is read from the reached state: whether the transmit timeout is the first one in the
queue, whether a burst would start and no response is saved, and the polling intervals. -/
def autoBurstView (w : World) : Option Bool × Option (Bool × ℤ × ℤ) :=
  (w.sched.timerQueue.head?.map fun ptr =>
      decide (20000 ≥ ptr.ts ∧ ptr.arg = .inst ∧ ptr.handler = .transmitTimeout),
    w.inst.map fun inst => (decide (inst.hasSavedResponse = false ∧ inst.mode = .client ∧
      inst.opmode = .online ∧ inst.autoBurst = true), inst.localPoll, inst.minpoll))

theorem beforeRequest_of_not_saved (h : s.inst.hasSavedResponse = false) :
    beforeRequest s = .ok (true, { s with inst := { s.inst with txTimeoutId := 0 } }) := by
  change (if s.inst.hasSavedResponse then _ else _ : M Bool) _ = _
  rw [h]
  rfl

/-- The transmit timeout in the reached state starts a burst. -/
theorem autoBurst_spec (poll newMinpoll localPoll minpoll : ℤ) (hpos : minpoll < localPoll)
    (hview : (run 0 (autoBurstEvents poll newMinpoll)).toOption.map autoBurstView =
      some (some true, some (true, localPoll, minpoll))) :
    ∃ w inst s, run 0 (autoBurstEvents poll newMinpoll) = .ok w ∧ w.inst = some inst ∧
      w.TransmitTimeout (.dispatch 20000, sampleAnswers false 7) ∧
      beforeRequest { w.state inst (sampleAnswers false 7) with sched := w.sched } =
        .ok (true, s) ∧
      s.inst.StartsBurst ∧ s.inst.localPoll = localPoll ∧ s.inst.minpoll = minpoll := by
  obtain ⟨w, hrun, hw⟩ := exists_ok_of_map_toOption hview
  obtain ⟨htimer, hfields⟩ := Prod.mk.inj hw
  obtain ⟨ptr, hptr, htimer⟩ := Option.map_eq_some_iff.mp htimer
  obtain ⟨rest, hqueue⟩ := List.head?_eq_some_iff.mp hptr
  obtain ⟨inst, hinst, hfields⟩ := Option.map_eq_some_iff.mp hfields
  simp only [Prod.mk.injEq, decide_eq_true_eq] at hfields
  obtain ⟨⟨hsaved, hmode, hopmode, hauto⟩, hlocal, hmin⟩ := hfields
  have htimeout : w.TransmitTimeout (.dispatch 20000, sampleAnswers false 7) :=
    ⟨20000, ptr, rest, rfl, hqueue, of_decide_eq_true htimer⟩
  refine ⟨w, inst, _, hrun, hinst, htimeout, beforeRequest_of_not_saved hsaved, ?_, hlocal, hmin⟩
  refine ⟨hmode, hopmode, hauto, ?_⟩
  change inst.minpoll < inst.localPoll
  rw [hlocal, hmin]
  exact hpos

/-- The minimum is lowered from 6 to 4, and a burst of four samples starts. -/
theorem run_autoBurst_four : ∃ w inst s, run 0 (autoBurstEvents 6 4) = .ok w ∧
    w.inst = some inst ∧
    beforeRequest { w.state inst (sampleAnswers false 7) with sched := w.sched } = .ok (true, s) ∧
    s.inst.StartsBurst ∧ s.inst.burstTotal = 4 ∧ s.inst.SaneBurst := by
  obtain ⟨w, inst, s, hrun, hinst, -, hbefore, hstarts, hlocal, hmin⟩ :=
    autoBurst_spec 6 4 6 4 (by decide) (by decide +kernel)
  refine ⟨w, inst, s, hrun, hinst, hbefore, hstarts, ?_, ?_⟩
  · rw [Instance.burstTotal, hlocal, hmin]
    decide
  · refine (run_autoBurst_iff hrun hinst hbefore hstarts).2.2.mpr ?_
    rw [hlocal, hmin]
    decide

/-- **The number of samples overflows** when the interval is the maximum and its limit is
lowered to the minimum: the burst is initiated with `INT_MIN` samples. -/
theorem run_autoBurst_overflows : ∃ w inst s, run 0 (autoBurstEvents 24 (-7)) = .ok w ∧
    w.inst = some inst ∧ w.TransmitTimeout (.dispatch 20000, sampleAnswers false 7) ∧
    beforeRequest { w.state inst (sampleAnswers false 7) with sched := w.sched } = .ok (true, s) ∧
    s.inst.StartsBurst ∧
    updateOpmode s = initiateSampleBurst burstGoodSamples s.inst.burstTotal s ∧
    s.inst.burstTotal = -2147483648 ∧ ¬s.inst.SaneBurst := by
  obtain ⟨w, inst, s, hrun, hinst, htimeout, hbefore, hstarts, hlocal, hmin⟩ :=
    autoBurst_spec 24 (-7) 24 (-7) (by decide) (by decide +kernel)
  refine ⟨w, inst, s, hrun, hinst, htimeout, hbefore, hstarts, updateOpmode_startsBurst hstarts,
    ?_, Instance.not_saneBurst hlocal hmin⟩
  rw [Instance.burstTotal, hlocal, hmin]
  decide

end Chrony.NtpCore
