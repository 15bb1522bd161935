import Chrony.NtpCore.Timers

/-!
# What the Functions Change

Each function of an association is described by what it does to its timers and to the
fields which decide about its operating mode and about the acceptance of responses
(`State.control`). Functions which change none of them satisfy `Keeps`.

## Main results

* `Keeps.bind`: sequences of functions which keep everything do the same.
* `restartTimeout_ends`, `closeClientSocket_ends`, `takeOffline_ends`: the timers which are
  left by these functions.
-/

namespace Chrony.NtpCore

open Lib Program

/-- The polling intervals and the maximum delay are in their ranges. -/
structure Instance.Ranges (inst : Instance) : Prop where
  localPoll : minPoll ≤ inst.localPoll ∧ inst.localPoll ≤ maxPoll
  minpoll : minPoll ≤ inst.minpoll ∧ inst.minpoll ≤ maxPoll
  maxpoll : minPoll ≤ inst.maxpoll ∧ inst.maxpoll ≤ maxPoll
  maxDelay : 0 ≤ inst.maxDelay

/-- What decides about the operating mode and the acceptance of responses. -/
structure Control where
  mode : Mode
  txSuspended : Bool
  opmode : OperatingMode
  burstGoodSamplesToGo : ℤ
  validRx : Bool
  localNtpRx : BitVec 64
  localNtpTx : BitVec 64
  history : List Action

/-- The fields of `Control` in a state. -/
def State.control (s : State) : Control where
  mode := s.inst.mode
  txSuspended := s.inst.txSuspended
  opmode := s.inst.opmode
  burstGoodSamplesToGo := s.inst.burstGoodSamplesToGo
  validRx := s.inst.validRx
  localNtpRx := s.inst.localNtpRx
  localNtpTx := s.inst.localNtpTx
  history := s.history

/-- What holds in all states, also inside of the functions. -/
structure Base (s : State) : Prop where
  timers : Timers s.sched s.inst.timeoutId
  ranges : s.inst.Ranges

/-- Neither the timers nor the control change. -/
structure Still (s s' : State) : Prop where
  base : Base s'
  control : s'.control = s.control
  timeoutId : s'.inst.timeoutId = s.inst.timeoutId

theorem Still.refl {s : State} (h : Base s) : Still s s :=
  ⟨h, rfl, rfl⟩

theorem Still.trans {s s' s'' : State} (h : Still s s') (h' : Still s' s'') : Still s s'' :=
  ⟨h'.base, h'.control.trans h.control, h'.timeoutId.trans h.timeoutId⟩

/-- **The function keeps the timers and the control.** -/
def Keeps {α : Type} (m : M α) : Prop :=
  ∀ s, Base s → Ends OutOfIds m s fun _ s' => Still s s'

namespace Keeps

variable {α β : Type} {m : M α} {f : α → M β}

theorem pure (a : α) : Keeps (Pure.pure a : M α) :=
  fun _ hs => .refl hs

/-- **The rule for a sequence.** -/
theorem bind (h : Keeps m) (hf : ∀ a, Keeps (f a)) : Keeps (m >>= f) := by
  intro s hs
  refine (h s hs).bind fun a s₁ h₁ => ?_
  exact (hf a s₁ h₁.base).mono fun _ _ h₂ => h₁.trans h₂

theorem ask {f : Answers → M β} (hf : ∀ a, Keeps (f a)) : Keeps (NtpCore.ask >>= f) := by
  intro s hs
  refine ask_ends fun a n => ?_
  refine (hf a { s with asked := n } ⟨hs.timers, hs.ranges⟩).mono fun _ s' h => ?_
  exact ⟨h.base, h.control, h.timeoutId⟩

theorem getInst {f : Instance → M β} (hf : ∀ inst, Keeps (f inst)) :
    Keeps (NtpCore.getInst >>= f) :=
  fun s hs => hf s.inst s hs

theorem onlyIf {p : Prop} [Decidable p] {m : M Unit} (h : Keeps m) : Keeps (onlyIf p m) :=
  fun s hs => .onlyIf (fun _ => h s hs) fun _ => .refl hs

/-- Assignments which concern neither the timers nor the control. -/
theorem modifyInst {g : Instance → Instance} (hranges : ∀ inst, inst.Ranges → (g inst).Ranges)
    (hcontrol : ∀ s : State, { s with inst := g s.inst }.control = s.control)
    (htimeout : ∀ inst, (g inst).timeoutId = inst.timeoutId) : Keeps (modifyInst g) := by
  intro s hs
  refine ⟨⟨?_, hranges s.inst hs.ranges⟩, hcontrol s, htimeout s.inst⟩
  rw [htimeout]
  exact hs.timers

end Keeps

/-! ### Functions which keep everything -/

theorem slewTimes_timeoutId (slew : Slew) (inst : Instance) :
    (slewTimes slew inst).timeoutId = inst.timeoutId := by
  have hsaved : (slewTimes slew inst).savedTimeoutId = inst.savedTimeoutId := by
    rw [Instance.savedTimeoutId, slewTimes]
    dsimp only
    split
    · rw [Option.map_map]
      rfl
    · rfl
  funext k
  cases k with
  | savedResponseTimeout => exact hsaved
  | transmitTimeout => rfl
  | receiveTimeout => rfl
  | other => rfl

theorem updateSource_keeps : Keeps updateSource := by
  refine .ask fun a s hs => ?_
  show Still s (a.slews.foldl State.slew s)
  refine List.foldlRecOn a.slews State.slew (motive := fun s' => Still s s') (.refl hs) ?_
  intro s' h' slew _
  refine h'.trans ⟨⟨?_, ?_⟩, rfl, slewTimes_timeoutId slew s'.inst⟩
  · rw [State.slew, slewTimes_timeoutId]
    exact h'.base.timers.handleSlew ..
  · have hranges := h'.base.ranges
    exact ⟨hranges.localPoll, hranges.minpoll, hranges.maxpoll, hranges.maxDelay⟩

theorem Instance.clampPoll_mem {inst : Instance}
    (hmin : minPoll ≤ inst.minpoll ∧ inst.minpoll ≤ maxPoll)
    (hmax : minPoll ≤ inst.maxpoll ∧ inst.maxpoll ≤ maxPoll) (localPoll : ℤ) (pollScore : ℚ) :
    minPoll ≤ (inst.clampPoll localPoll pollScore).1 ∧
      (inst.clampPoll localPoll pollScore).1 ≤ maxPoll := by
  rw [Instance.clampPoll]
  split
  · exact hmin
  · split
    · exact hmax
    · dsimp only
      omega

/-- **The polling interval stays in its range** when it is adjusted. -/
theorem Instance.adjustPoll_mem {inst : Instance}
    (hmin : minPoll ≤ inst.minpoll ∧ inst.minpoll ≤ maxPoll)
    (hmax : minPoll ≤ inst.maxpoll ∧ inst.maxpoll ≤ maxPoll) (adj : ℚ) (reachable lanDelay : Bool) :
    minPoll ≤ (inst.adjustPoll adj reachable lanDelay).localPoll ∧
      (inst.adjustPoll adj reachable lanDelay).localPoll ≤ maxPoll := by
  have hlan : ∀ (n : ℤ) (c : Prop) [Decidable c], minPoll ≤ n ∧ n ≤ maxPoll →
      minPoll ≤ (if c then minNonlanPoll else n) ∧ (if c then minNonlanPoll else n) ≤ maxPoll := by
    intro n c _ hn
    split
    · exact ⟨by decide, by decide⟩
    · exact hn
  exact hlan _ _ (Instance.clampPoll_mem hmin hmax _ _)

theorem Instance.Ranges.adjustPoll {inst : Instance} (h : inst.Ranges) (adj : ℚ)
    (reachable lanDelay : Bool) : (inst.adjustPoll adj reachable lanDelay).Ranges :=
  ⟨Instance.adjustPoll_mem h.minpoll h.maxpoll adj reachable lanDelay, h.minpoll, h.maxpoll,
    h.maxDelay⟩

theorem adjustPoll_keeps (adj : ℚ) : Keeps (adjustPoll adj) :=
  .ask fun _ => .modifyInst (fun _ h => h.adjustPoll ..) (fun _ => rfl) fun _ => rfl

theorem accumulateSample_keeps : Keeps accumulateSample :=
  updateSource_keeps.bind fun _ => .ask fun a => adjustPoll_keeps a.pollAdj

theorem setFilterCount_keeps (n : ℕ) : Keeps (modifyInst ({ · with filterCount := n })) :=
  .modifyInst (fun _ h => ⟨h.localPoll, h.minpoll, h.maxpoll, h.maxDelay⟩) (fun _ => rfl)
    fun _ => rfl

theorem processSample_keeps (sample : Bool) : Keeps (processSample sample) := by
  refine .getInst fun inst => ?_
  split
  · exact .onlyIf accumulateSample_keeps
  · refine (setFilterCount_keeps _).bind fun _ => .ask fun a => .onlyIf ?_
    exact (setFilterCount_keeps 0).bind fun _ => accumulateSample_keeps

/-! ### Delays -/

theorem log2ToDouble_pos (l : ℤ) : 0 < log2ToDouble l :=
  zpow_pos (by norm_num) l

/-- **The delay is computed only when the association is not offline.** -/
theorem getTransmitDelay_ends {s : State} {β : Type} {f : ℚ → M β} {R : β → State → Prop}
    (onTx : Bool) (hmode : s.inst.opmode ≠ .offline)
    (h : ∀ d n, 0 ≤ d → Ends OutOfIds (f d) { s with asked := n } R) :
    Ends OutOfIds (getTransmitDelay onTx >>= f) s R := by
  rw [getTransmitDelay, bind_assoc]
  refine getInst_ends ?_
  rw [bind_assoc]
  refine ask_ends fun a n => ?_
  dsimp only
  rw [bind_assoc]
  generalize (if !onTx ∧ s.inst.localTx.ts ≠ .zero then
    a.eventTime.diffToDouble s.inst.localTx.ts else 0) = lastTx
  obtain ⟨d, hd⟩ : ∃ d, delayOfMode s.inst onTx lastTx
      (log2ToDouble (getTransmitPoll s.inst a.reachable)) a.ourStratum = pure d := by
    unfold delayOfMode
    split
    · contradiction
    · split
      · exact ⟨_, rfl⟩
      · exact ⟨_, rfl⟩
    · exact ⟨_, rfl⟩
    · exact ⟨_, rfl⟩
  have hnonneg : ∀ x : ℚ, 0 ≤ if x < 0 then 0 else x := by
    intro x
    split
    · exact le_refl (0 : ℚ)
    next hlt => exact not_lt.mp hlt
  rw [hd]
  exact h _ n (hnonneg _)

/-! ### Timers -/

theorem setTx_timeoutId (inst : Instance) (id : ℕ) :
    { inst with txTimeoutId := id }.timeoutId =
      Function.update inst.timeoutId .transmitTimeout id := by
  funext k
  cases k <;> rfl

theorem setRx_timeoutId (inst : Instance) (id : ℕ) :
    { inst with rxTimeoutId := id }.timeoutId =
      Function.update inst.timeoutId .receiveTimeout id := by
  funext k
  cases k <;> rfl

/-- What `restart_timeout` leaves. -/
structure Restarted (s s' : State) : Prop where
  base : Base s'
  control : s'.control = s.control
  saved : s'.inst.savedTimeoutId = s.inst.savedTimeoutId
  suspended : s.inst.txSuspended = true → s'.inst.timeoutId = s.inst.timeoutId
  running : s.inst.txSuspended = false → s'.inst.txTimeoutId ≠ 0 ∧ s'.inst.rxTimeoutId = 0

theorem restartTimeout_ends {s : State} {delay : ℚ} (hs : Base s)
    (hsuspended : s.inst.txSuspended = true → s.inst.txTimeoutId = 0) (hdelay : 0 ≤ delay) :
    Ends OutOfIds (restartTimeout delay) s fun _ s' => Restarted s s' := by
  rw [restartTimeout]
  refine getInst_ends ?_
  split
  next htx =>
      rw [assert, if_pos (hsuspended htx)]
      exact ⟨hs, rfl, rfl, fun _ => rfl, fun hf =>
        absurd htx (by rw [hf]; exact Bool.false_ne_true)⟩
  next htx =>
      refine removeTimeout_ends .receiveTimeout hs.timers fun q₁ h₁ => ?_
      refine modifyInst_ends ?_
      refine removeTimeout_ends .transmitTimeout h₁ fun q₂ h₂ => ?_
      rw [getSeparation, bind_assoc]
      refine Ends.assert hs.ranges.localPoll ?_
      rw [pure_bind]
      refine addTimeoutInClass_ends .transmitTimeout h₂ rfl hdelay fun q₃ id n hid h₃ => ?_
      refine ⟨⟨?_, ?_⟩, rfl, rfl, fun hf => absurd hf htx, fun _ => ⟨hid, rfl⟩⟩
      · rw [Function.update_idem] at h₃
        exact h₃.of_eq ((setTx_timeoutId _ id).trans
          (congrArg (Function.update · _ id) (setRx_timeoutId s.inst 0)))
      · have hranges := hs.ranges
        exact ⟨hranges.localPoll, hranges.minpoll, hranges.maxpoll, hranges.maxDelay⟩

/-- What `close_client_socket` leaves. -/
structure Closed (s s' : State) : Prop where
  base : Base s'
  control : s'.control = s.control
  tx : s'.inst.txTimeoutId = s.inst.txTimeoutId
  rx : s'.inst.rxTimeoutId = 0
  saved : s'.inst.savedTimeoutId = 0
  sockFd : s.inst.mode = .client → s'.inst.localAddr.sockFd = invalidSockFd

theorem clearSavedTimeout_timeoutId (inst : Instance) :
    inst.clearSavedTimeout.timeoutId = Function.update inst.timeoutId .savedResponseTimeout 0 := by
  funext k
  cases k with
  | transmitTimeout => rfl
  | receiveTimeout => rfl
  | savedResponseTimeout =>
      rw [Function.update_self, Instance.timeoutId, Instance.savedTimeoutId,
        Instance.clearSavedTimeout]
      cases inst.savedResponse <;> rfl
  | other => rfl

theorem clearSavedTimeout_savedTimeoutId (inst : Instance) :
    inst.clearSavedTimeout.savedTimeoutId = 0 :=
  (congrFun (clearSavedTimeout_timeoutId inst) .savedResponseTimeout).trans
    (Function.update_self ..)

theorem closeSocket_still {s : State} (hs : Base s) :
    Still s { s with inst := s.inst.closeSocket } := by
  rw [Instance.closeSocket]
  split
  · have hranges := hs.ranges
    exact ⟨⟨hs.timers, hranges.localPoll, hranges.minpoll, hranges.maxpoll, hranges.maxDelay⟩,
      rfl, rfl⟩
  · exact .refl hs

theorem closeClientSocket_ends {s : State} (hs : Base s) :
    Ends OutOfIds closeClientSocket s fun _ s' => Closed s s' := by
  have hstill := closeSocket_still hs
  have hsock : s.inst.mode = .client → s.inst.closeSocket.localAddr.sockFd = invalidSockFd := by
    intro hmode
    rw [Instance.closeSocket, if_pos hmode]
  have htx : s.inst.closeSocket.txTimeoutId = s.inst.txTimeoutId :=
    congrFun hstill.timeoutId .transmitTimeout
  obtain ⟨⟨hT, hranges⟩, hcontrol, -⟩ := hstill
  rw [closeClientSocket]
  refine modifyInst_ends (getInst_ends ?_)
  refine removeTimeout_ends .receiveTimeout hT fun q₁ h₁ => ?_
  refine modifyInst_ends ?_
  dsimp only at hT hranges ⊢
  refine .onlyIf (fun hsaved => ?_) fun hsaved => ?_
  · refine removeTimeout_ends .savedResponseTimeout h₁ fun q₂ h₂ => ?_
    refine ⟨⟨?_, hranges.localPoll, hranges.minpoll, hranges.maxpoll, hranges.maxDelay⟩,
      hcontrol, htx, rfl, clearSavedTimeout_savedTimeoutId _, hsock⟩
    exact h₂.of_eq ((clearSavedTimeout_timeoutId _).trans
      (congrArg (Function.update · _ 0) (setRx_timeoutId _ 0)))
  · have hzero : s.inst.closeSocket.savedTimeoutId = 0 := by
      simpa [Instance.hasSavedResponse] using hsaved
    refine ⟨⟨?_, hranges.localPoll, hranges.minpoll, hranges.maxpoll, hranges.maxDelay⟩,
      hcontrol, htx, rfl, hzero, hsock⟩
    exact h₁.of_eq (setRx_timeoutId _ 0)

/-- What `take_offline` leaves. -/
structure TakenOffline (s s' : State) : Prop where
  base : Base s'
  control : s'.control = { s.control with
    opmode := .offline, validRx := false, localNtpRx := 0, localNtpTx := 0 }
  timeoutId : ∀ k, s'.inst.timeoutId k = 0

theorem timeoutId_eq_zero {inst : Instance} (htx : inst.txTimeoutId = 0)
    (hrx : inst.rxTimeoutId = 0) (hsaved : inst.savedTimeoutId = 0) (k : Handler) :
    inst.timeoutId k = 0 := by
  cases k with
  | transmitTimeout => exact htx
  | receiveTimeout => exact hrx
  | savedResponseTimeout => exact hsaved
  | other => rfl

theorem takeOffline_ends {s : State} (hs : Base s) :
    Ends OutOfIds takeOffline s fun _ s' => TakenOffline s s' := by
  have hranges := hs.ranges
  rw [takeOffline]
  refine modifyInst_ends (getInst_ends ?_)
  refine removeTimeout_ends .transmitTimeout hs.timers fun q₁ h₁ => ?_
  refine modifyInst_ends ?_
  refine Ends.bind (updateSource_keeps _ ?_) fun _ s₂ h₂ => ?_
  · exact ⟨h₁.of_eq (setTx_timeoutId _ 0), hranges.localPoll, hranges.minpoll, hranges.maxpoll,
      hranges.maxDelay⟩
  refine (closeClientSocket_ends h₂.base).bind fun _ s₃ h₃ => ?_
  have htx : s₃.inst.txTimeoutId = 0 := h₃.tx.trans (congrFun h₂.timeoutId .transmitTimeout)
  have hranges₃ := h₃.base.ranges
  have hcontrol := h₃.control.trans h₂.control
  refine ⟨⟨h₃.base.timers, hranges₃.localPoll, hranges₃.minpoll, hranges₃.maxpoll,
    hranges₃.maxDelay⟩, ?_, timeoutId_eq_zero htx h₃.rx h₃.saved⟩
  exact congrArg (fun c : Control => { c with
    validRx := false, localNtpRx := 0, localNtpTx := 0 }) hcontrol

end Chrony.NtpCore
