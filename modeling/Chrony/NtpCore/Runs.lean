import Chrony.NtpCore.Requests

/-!
# The Invariants of an Association

What holds after every event in the life of an association, from its creation to its
destruction and the creation of another one.

## Main results

* `run_timers`: the timers agree with the operating mode, every stored identifier is in the
  queue of the scheduler, and no assertion fails.
* `run_accepts_at_most_one`: at most one response is accepted between two transmissions, as
  long as no response is received in the last sample of a burst when another one is saved.
-/

namespace Chrony.NtpCore

open Lib Program

variable {s s' : State} {w w' : World}

/-! ### Operations -/

theorem startInstance_ends (hs : Sound s) :
    Ends OutOfIds startInstance s fun _ s' => Handled s s' := by
  have hranges := hs.base.ranges
  have hsound : Sound { s with inst := { s.inst with txSuspended := false } } :=
    hs.of_fields rfl ⟨hranges.localPoll, hranges.minpoll, hranges.maxpoll, hranges.maxDelay⟩ id
      fun h => absurd h Bool.false_ne_true
  rw [startInstance]
  refine modifyInst_ends (getInst_ends (.onlyIf (fun hmode => ?_) fun hmode => ?_))
  · refine (startInitialTimeout_ends hsound hmode).mono fun _ s' ⟨h, harmed⟩ => ?_
    exact ⟨h.sound, harmed, h.toStep.atMostOne⟩
  · exact ⟨hsound, fun hne => absurd (not_not.mp hmode) hne, id⟩

/-- **A destroyed association has no timers.** -/
theorem destroyInstance_ends (hs : Sound s) :
    Ends OutOfIds destroyInstance s fun _ s' => Step s s' ∧ ∀ k, s'.inst.timeoutId k = 0 := by
  rw [destroyInstance]
  refine getInst_ends ?_
  refine Ends.bind (Q := fun _ s' => Step s s' ∧ ∀ k, s'.inst.timeoutId k = 0)
    (.onlyIf (fun _ => ?_) fun hmode => ?_) ?_
  · exact (takeOffline_ends hs.base).mono fun _ s' h => ⟨h.step, h.timeoutId⟩
  · exact ⟨hs.stay.toStep, hs.offline (not_not.mp hmode)⟩
  · rintro _ s₁ ⟨h₁, hzero⟩
    refine (updateSource_keeps s₁ h₁.sound.base).mono fun _ s' h' => ?_
    refine ⟨Frame.trans h₁ (h'.stay h₁.sound).toStep, fun k => ?_⟩
    rw [h'.timeoutId]
    exact hzero k

theorem modifyMinpoll_keeps (newMinpoll : ℤ) :
    Keeps (modifyInst (·.modifyMinpoll newMinpoll)) := by
  refine .modifyInst (fun inst h => ?_) (fun s => ?_) fun inst => ?_
  · rw [Instance.modifyMinpoll]
    split
    · exact h
    next hrange =>
        have hnew : minPoll ≤ newMinpoll ∧ newMinpoll ≤ maxPoll := by omega
        refine ⟨h.localPoll, hnew, ?_, h.maxDelay⟩
        dsimp only
        split
        · exact hnew
        · exact h.maxpoll
  · rw [Instance.modifyMinpoll]
    split <;> rfl
  · rw [Instance.modifyMinpoll]
    split <;> rfl

theorem modifyMaxpoll_keeps (newMaxpoll : ℤ) :
    Keeps (modifyInst (·.modifyMaxpoll newMaxpoll)) := by
  refine .modifyInst (fun inst h => ?_) (fun s => ?_) fun inst => ?_
  · rw [Instance.modifyMaxpoll]
    split
    · exact h
    next hrange =>
        have hnew : minPoll ≤ newMaxpoll ∧ newMaxpoll ≤ maxPoll := by omega
        refine ⟨h.localPoll, ?_, hnew, h.maxDelay⟩
        dsimp only
        split
        · exact hnew
        · exact h.minpoll
  · rw [Instance.modifyMaxpoll]
    split <;> rfl
  · rw [Instance.modifyMaxpoll]
    split <;> rfl

theorem modifyMaxdelay_keeps (newMaxDelay : ℚ) :
    Keeps (modifyInst ({ · with maxDelay := clampMaxDelay newMaxDelay })) :=
  .modifyInst (fun _ h => ⟨h.localPoll, h.minpoll, h.maxpoll, le_max_left _ _⟩) (fun _ => rfl)
    fun _ => rfl

/-! ### Packets -/

/-- **A received response is handled while another one is saved**, when the next good sample
is the last one in a burst of an association which will be offline. The saved response is
processed inside of the call for the received one, and if it is good, the association is
reset before the received response is accepted. -/
def Reenters (inst : Instance) (event : Event × (ℕ → Answers)) : Prop :=
  match event.1 with
  | .processRxKnown localAddr _ (some message) =>
      (procPacket inst.mode message.mode = true ∧ localAddr.sockFd = inst.localAddr.sockFd) ∧
        inst.hasSavedResponse = true ∧
        (inst.opmode = .burstWasOffline ∧ inst.burstGoodSamplesToGo ≤ 1) ∧
        isSavable inst (packetTests inst (event.2 0).checkAuth message)
          (event.2 0).hwTsEnabled = true
  | _ => False

/-- What is left by an event, where `P` says that a response is handled inside of another
one. -/
structure HandledUnless (P : Prop) (s s' : State) : Prop where
  sound : Sound s'
  armed : Armed s'
  atMostOne : ¬P → AtMostOne s → AtMostOne s'

theorem Handled.unless (h : Handled s s') (P : Prop) : HandledUnless P s s' :=
  ⟨h.sound, h.armed, fun _ => h.atMostOne⟩

theorem processRxKnown_ends (hs : Sound s) (harmed : Armed s) (localAddr : LocalAddress)
    (rxTs : LocalTimestamp) (message : Option Message) (answers : ℕ → Answers)
    (hanswers : s.answers s.asked = answers 0) :
    Ends OutOfIds (processRxKnown localAddr rxTs message) s fun _ s' =>
      HandledUnless (Reenters s.inst (.processRxKnown localAddr rxTs message, answers)) s s' := by
  have hranges := hs.base.ranges
  have hsound : Sound { s with inst := { s.inst with totalRxCount := s.inst.totalRxCount + 1 } } :=
    hs.of_fields rfl ⟨hranges.localPoll, hranges.minpoll, hranges.maxpoll, hranges.maxDelay⟩ id id
  rw [processRxKnown]
  refine modifyInst_ends (getInst_ends ?_)
  split
  · exact ⟨hsound, harmed, fun _ => id⟩
  next message =>
      split
      next hproc =>
          obtain ⟨hproc, hsock, hmode⟩ := hproc
          refine (processResponse_ends hsound harmed (fun hoff => hmode (.inl hoff)) ?_ _).mono
            fun _ s' ⟨h₁, h₂, h₃⟩ => ⟨h₁, h₂, fun hre => h₃ fun ⟨hsaved, hlast, hsavable⟩ => ?_⟩
          · by_contra hsus
            exact hmode (.inr (by simpa using hsus))
          · refine hre ⟨⟨hproc, hsock⟩, hsaved, hlast, ?_⟩
            dsimp only
            rw [← hanswers]
            exact hsavable
      next => exact ⟨hsound, harmed, fun _ => id⟩

theorem updateTxTimestamp_keeps (txTs : LocalTimestamp) (message : Message) :
    Keeps (modifyInst (updateTxTimestamp txTs message)) := by
  refine .modifyInst (fun inst h => ?_) (fun s => ?_) fun inst => ?_
  · rw [updateTxTimestamp]
    dsimp only
    split_ifs
    · exact h
    · exact h
    · exact h
    · exact ⟨h.localPoll, h.minpoll, h.maxpoll, h.maxDelay⟩
  · rw [updateTxTimestamp]
    dsimp only
    split_ifs <;> rfl
  · rw [updateTxTimestamp]
    dsimp only
    split_ifs <;> rfl

theorem processTxKnown_ends (hs : Sound s) (harmed : Armed s) (txTs : LocalTimestamp)
    (message : Option Message) :
    Ends OutOfIds (processTxKnown txTs message) s fun _ s' => Handled s s' := by
  have hhandled : Handled s s := ⟨hs, harmed, id⟩
  unfold processTxKnown
  split
  · exact hhandled
  next message =>
      refine .onlyIf (fun _ => ?_) fun _ => hhandled
      refine (updateTxTimestamp_keeps txTs message s hs.base).bind fun _ s₁ h₁ => ?_
      have h₁ := h₁.stay hs
      refine getInst_ends (.onlyIf (fun hsaved => ?_) fun _ => ?_)
      · refine (processSavedResponse_ends h₁.sound
          (savedResponse_isSome (hasSavedResponse_iff.mp hsaved.2))).mono fun _ s' h' => ?_
        exact ⟨h'.sound, h'.armed (h₁.armed harmed), h'.atMostOne ∘ h₁.toStep.atMostOne⟩
      · exact h₁.toStep.handled (h₁.armed harmed)

theorem Maintains.handled {m : M Unit} (h : Maintains Step m) (hs : Sound s) (harmed : Armed s) :
    Ends OutOfIds m s fun _ s' => Handled s s' :=
  (h s hs).mono fun _ _ hstep => hstep.handled (hstep.armed harmed)

theorem Maintains.step {m : M Unit} (h : Maintains Stay m) : Maintains Step m :=
  fun s hs => (h s hs).mono fun _ _ hstay => hstay.toStep

/-- **Every event is handled**, whatever the order of the events. -/
theorem Event.program_ends (hs : Sound s) (harmed : Armed s) (event : Event)
    (answers : ℕ → Answers) (hanswers : s.answers s.asked = answers 0) :
    Ends OutOfIds event.program s fun _ s' =>
      HandledUnless (Reenters s.inst (event, answers)) s s' := by
  have hsteps : ∀ m : M Unit, Maintains Step m → Ends OutOfIds m s fun _ s' =>
      HandledUnless (Reenters s.inst (event, answers)) s s' :=
    fun m hm => (hm.handled hs harmed).mono fun _ _ h => h.unless _
  cases event with
  | start => exact (startInstance_ends hs).mono fun _ _ h => h.unless _
  | setConnectivity connectivity => exact hsteps _ (setConnectivity_steps connectivity)
  | initiateSampleBurst nGood nTotal => exact hsteps _ (initiateSampleBurst_steps nGood nTotal)
  | reset => exact hsteps _ reset_stays.step
  | resetPoll => exact hsteps _ resetPoll_stays.step
  | changeRemoteAddress remoteAddr => exact hsteps _ (changeRemoteAddress_stays remoteAddr).step
  | modifyMinpoll newMinpoll => exact hsteps _ (.of_keeps (modifyMinpoll_keeps newMinpoll))
  | modifyMaxpoll newMaxpoll => exact hsteps _ (.of_keeps (modifyMaxpoll_keeps newMaxpoll))
  | modifyMaxdelay newMaxDelay => exact hsteps _ (.of_keeps (modifyMaxdelay_keeps newMaxDelay))
  | processRxKnown localAddr rxTs message =>
      exact (processRxKnown_ends hs harmed localAddr rxTs message answers hanswers).bind
        fun _ _ h => h
  | processTxKnown txTs message =>
      exact (processTxKnown_ends hs harmed txTs message).mono fun _ _ h => h.unless _
  | create => exact hsteps _ (.pure ())
  | destroy => exact hsteps _ (.pure ())
  | dispatch => exact hsteps _ (.pure ())
  | slew => exact hsteps _ (.pure ())
  | unknownStep => exact hsteps _ (.pure ())
  | addOther => exact hsteps _ (.pure ())
  | removeOther => exact hsteps _ (.pure ())

/-! ### Steps -/

/-- The state in which an event is handled. -/
def World.state (w : World) (inst : Instance) (answers : ℕ → Answers) : State :=
  ⟨w.sched, inst, w.history, answers, 0⟩

/-- **The invariant of the association**, and of the scheduler when there is none. -/
def World.Invariant (w : World) : Prop :=
  match w.inst with
  | none => Timers w.sched fun _ => 0
  | some inst => ∀ answers, Sound (w.state inst answers) ∧ Armed (w.state inst answers)

/-- At most one response was accepted for each request. -/
def World.AtMostOne (w : World) : Prop :=
  match w.inst with
  | none => OnePerRequest w.history ∧ acceptedSince w.history ≤ 1
  | some inst => ∀ answers, NtpCore.AtMostOne (w.state inst answers)

theorem World.AtMostOne.onePerRequest (h : w.AtMostOne) : OnePerRequest w.history := by
  rw [World.AtMostOne] at h
  split at h
  · exact h.1
  · exact (h default).1

/-- What one event does. -/
def World.Next (P : Prop) (w w' : World) : Prop :=
  w'.Invariant ∧ (¬P → w.AtMostOne → w'.AtMostOne)

theorem World.exec_returns {inst : Instance} {answers : ℕ → Answers} {m : M Unit} {P : Prop}
    {R : World → Prop} (hm : Ends OutOfIds m (w.state inst answers) fun _ s' =>
      HandledUnless P (w.state inst answers) s')
    (hR : ∀ w' : World, w'.Invariant →
      (¬P → NtpCore.AtMostOne (w.state inst answers) → w'.AtMostOne) → R w') :
    Returns OutOfIds (w.exec inst answers m) R := by
  refine Returns.map (Returns.mono hm fun r h => ?_)
  exact hR _ (fun _ => ⟨⟨⟨h.sound.base.timers, h.sound.base.ranges⟩, h.sound.offline,
    h.sound.suspended⟩, h.armed⟩) fun hP hone _ => h.atMostOne hP hone

theorem World.exec_next {inst : Instance} (hinst : w.inst = some inst) {answers : ℕ → Answers}
    {m : M Unit} {P : Prop} (hm : Ends OutOfIds m (w.state inst answers) fun _ s' =>
      HandledUnless P (w.state inst answers) s') :
    Returns OutOfIds (w.exec inst answers m) (World.Next P w) := by
  refine World.exec_returns hm fun w' hinv hone => ⟨hinv, fun hP h => hone hP ?_⟩
  rw [World.AtMostOne, hinst] at h
  exact h answers

/-- **The sources can be created** in any state of the scheduler. -/
theorem Params.toInstance_sound (params : Params) (remoteAddr : RemoteAddress) (sockFd : ℤ)
    {q : Sched.State Handler Arg} (hT : Timers q fun _ => 0) (hs : s.sched = q)
    (hinst : s.inst = params.toInstance remoteAddr sockFd) : Sound s ∧ Armed s := by
  have hlimit : ∀ default poll : ℤ, minPoll ≤ default ∧ default ≤ maxPoll →
      minPoll ≤ limitPoll default poll ∧ limitPoll default poll ≤ maxPoll := by
    intro default poll hdefault
    rw [limitPoll]
    have hrange : minPoll ≤ maxPoll := by decide
    split
    · exact hdefault
    · split <;> omega
  have hmin := hlimit defaultMinpoll params.minpoll (by decide)
  have hmax := hlimit defaultMaxpoll params.maxpoll (by decide)
  have hids : s.inst.timeoutId = fun _ => 0 := by
    rw [hinst]
    funext k
    cases k <;> rfl
  have hranges : s.inst.Ranges := by
    rw [hinst]
    refine ⟨⟨?_, ?_⟩, hmin, ?_, le_max_left _ _⟩
    · exact hmin.1.trans (le_max_left _ _)
    · exact max_le hmin.2 (by decide)
    · show minPoll ≤ ite _ _ _ ∧ ite _ _ _ ≤ maxPoll
      split
      · exact hmin
      · exact hmax
  subst hs
  refine ⟨⟨⟨hT.of_eq hids, hranges⟩, fun _ k => congrFun hids k, fun _ => ?_⟩, fun hne => ?_⟩
  · exact congrFun hids .transmitTimeout
  · refine absurd ?_ hne
    rw [hinst]
    rfl

theorem create_returns (hinst : w.inst = none) (hw : w.Invariant) (params : Params)
    (remoteAddr : RemoteAddress) (sockFd : ℤ) (answers : ℕ → Answers) :
    Returns OutOfIds (w.exec (params.toInstance remoteAddr sockFd) answers
      (setConnectivity params.connectivity)) (World.Next False w) := by
  rw [World.Invariant, hinst] at hw
  obtain ⟨hsound, harmed⟩ := params.toInstance_sound remoteAddr sockFd hw rfl
    (s := w.state (params.toInstance remoteAddr sockFd) answers) rfl
  refine World.exec_returns (((setConnectivity_steps _).handled hsound harmed).mono
    fun _ _ h => h.unless False) fun w' hinv hone => ⟨hinv, fun hP h => hone hP ?_⟩
  rw [World.AtMostOne, hinst] at h
  refine ⟨h.1, ?_⟩
  rcases Nat.le_one_iff_eq_zero_or_eq_one.mp h.2 with hzero | hone
  · exact .inl hzero
  · exact .inr ⟨hone, .inr rfl⟩

theorem destroy_returns {inst : Instance} (hinst : w.inst = some inst) (hw : w.Invariant)
    (answers : ℕ → Answers) :
    Returns OutOfIds (do
      let w' ← w.exec inst answers destroyInstance
      pure { w' with inst := none }) (World.Next False w) := by
  rw [World.Invariant, hinst] at hw
  refine Returns.bind (P := fun w' => World.Next False w { w' with inst := none }) ?_
    fun w' (h : World.Next False w { w' with inst := none }) => h
  refine Returns.map (Returns.mono (destroyInstance_ends (hw answers).1) fun r hr => ?_)
  obtain ⟨hstep, hzero⟩ := hr
  refine ⟨hstep.sound.base.timers.of_eq (funext fun k => (hzero k).symm), fun _ hone => ?_⟩
  rw [World.AtMostOne, hinst] at hone
  obtain ⟨hhistory, hlast⟩ := hstep.atMostOne (hone answers)
  exact ⟨hhistory, hlast.elim (fun h => h.trans_le (Nat.zero_le 1)) fun h => h.1.le⟩

/-- A change of the queue alone, which keeps the timers of the association. -/
theorem World.next_of_sched {q : Sched.State Handler Arg} (hw : w.Invariant)
    (hT : ∀ ids, Timers w.sched ids → Timers q ids) : World.Next False w { w with sched := q } := by
  refine ⟨?_, fun _ hone => ?_⟩
  · rw [World.Invariant] at hw ⊢
    dsimp only
    split
    next hinst =>
        rw [hinst] at hw
        exact hT _ hw
    next inst hinst =>
        rw [hinst] at hw
        intro answers
        obtain ⟨hsound, harmed⟩ := hw answers
        exact ⟨⟨⟨hT _ hsound.base.timers, hsound.base.ranges⟩, hsound.offline, hsound.suspended⟩,
          harmed⟩
  · exact hone

theorem lastClassDispatch_timers {q : Sched.State Handler Arg} {ids : Handler → ℕ}
    (h : Timers q ids) (last : Sched.TimeoutClass → ℚ) :
    Timers { q with lastClassDispatch := last } ids :=
  Timers.iff_owners.mpr ((Timers.iff_owners.mp h).setLastClassDispatch last)

theorem World.Invariant.timers (hw : w.Invariant) : ∃ ids, Timers w.sched ids := by
  rw [World.Invariant] at hw
  split at hw
  · exact ⟨_, hw⟩
  · exact ⟨_, (hw default).1.base.timers⟩

/-- The handler of a stored timeout is called after it is removed from the queue. -/
theorem handler_returns {inst : Instance} (hinst : w.inst = some inst) (hw : w.Invariant)
    {k : Handler} (hk : inst.timeoutId k ≠ 0) {q : Sched.State Handler Arg}
    (hT : Timers q (Function.update inst.timeoutId k 0)) (answers : ℕ → Answers) :
    Returns OutOfIds (World.exec { w with sched := q } inst answers k.program)
      (World.Next False w) := by
  rw [World.Invariant, hinst] at hw
  obtain ⟨hsound, harmed⟩ := hw answers
  refine World.exec_returns (P := False) ((Handler.program_ends hsound harmed hk hT).mono
    fun _ s' h => ⟨h.sound, h.armed, fun _ => h.atMostOne⟩)
    fun w' hinv hone => ⟨hinv, fun hP h => hone hP ?_⟩
  rw [World.AtMostOne, hinst] at h
  exact h answers

/-- **The timeout which is dispatched belongs to the association**, or to another object. -/
theorem dispatch_returns (hw : w.Invariant) (answers : ℕ → Answers) (now : ℚ) :
    Returns OutOfIds (w.dispatch answers now) (World.Next False w) := by
  rw [World.dispatch]
  split
  · exact ⟨hw, fun _ h => h⟩
  next ptr rest hqueue =>
      have hmem : ptr ∈ w.sched.timerQueue := by
        rw [hqueue]
        exact List.mem_cons_self
      split
      · have hlast : ∀ ids, Timers w.sched ids → Timers { w.sched with
            lastClassDispatch := Function.update w.sched.lastClassDispatch ptr.cls now } ids :=
          fun ids hT => lastClassDispatch_timers hT _
        cases harg : ptr.arg with
        | other =>
            obtain ⟨ids, hT⟩ := hw.timers
            obtain ⟨q, hq, -⟩ := (hlast ids hT).remove_other hmem harg
            rw [hq]
            refine World.next_of_sched hw fun ids hT => ?_
            obtain ⟨q', hq', hT'⟩ := (hlast ids hT).remove_other hmem harg
            rw [hq] at hq'
            obtain rfl := Except.ok.inj hq'
            exact hT'
        | inst =>
            have hw' := hw
            rw [World.Invariant] at hw'
            cases hinst : w.inst with
            | none =>
                rw [hinst] at hw'
                obtain ⟨hne, hzero⟩ := (hw'.owned_iff ptr.id ptr.handler).mp
                  ⟨ptr, hmem, harg, rfl, rfl⟩
                exact absurd hzero.symm hne
            | some inst =>
                rw [hinst] at hw'
                have hT := (hw' answers).1.base.timers
                obtain ⟨hne, hid⟩ := (hT.owned_iff ptr.id ptr.handler).mp
                  ⟨ptr, hmem, harg, rfl, rfl⟩
                obtain ⟨q, hq, hT'⟩ := (hlast _ hT).remove ptr.handler
                rw [hid] at hq
                rw [hq]
                exact handler_returns hinst hw (hid ▸ hne) hT' answers
      · exact ⟨hw, fun _ h => h⟩

theorem slewTimes_next {inst : Instance} (hw : w.Invariant) (hinst : w.inst = some inst)
    (slew : Slew) : World.Next False w { w with inst := some (slewTimes slew inst) } := by
  rw [World.Invariant, hinst] at hw
  refine ⟨fun answers => ?_, fun _ hone answers => ?_⟩
  · obtain ⟨hsound, harmed⟩ := hw answers
    have hranges := hsound.base.ranges
    have hstill : Still (w.state inst answers) (w.state (slewTimes slew inst) answers) := by
      refine ⟨⟨?_, hranges.localPoll, hranges.minpoll, hranges.maxpoll, hranges.maxDelay⟩, rfl,
        slewTimes_timeoutId slew inst⟩
      exact hsound.base.timers.of_eq (slewTimes_timeoutId slew inst)
    have hstay := hstill.stay hsound
    exact ⟨hstay.sound, hstay.armed harmed⟩
  · rw [World.AtMostOne, hinst] at hone
    exact hone answers

/-- After an unknown step of the clock, the association is reset. -/
theorem unknownStep_returns {inst : Instance} (hw : w.Invariant) (hinst : w.inst = some inst)
    (answers : ℕ → Answers) :
    Returns OutOfIds (w.exec inst answers do
      modifyInst (·.reset)
      resetPoll) (World.Next False w) := by
  have hstays : Maintains Stay (do modifyInst (·.reset); resetPoll) :=
    reset_stays.bind fun _ => resetPoll_stays
  rw [World.Invariant, hinst] at hw
  obtain ⟨hsound, harmed⟩ := hw answers
  exact World.exec_next hinst ((hstays.step.handled hsound harmed).mono fun _ _ h => h.unless _)

theorem World.Next.trans {P : Prop} {w'' : World} (h : World.Next False w w')
    (h' : World.Next P w' w'') : World.Next P w w'' :=
  ⟨h'.1, fun hP hone => h'.2 hP (h.2 not_false hone)⟩

theorem changeClock_returns (hw : w.Invariant) (answers : ℕ → Answers) (cooked : Timespec)
    (dfreq doffset : ℚ) (changeType : Sched.ChangeType) :
    Returns OutOfIds (w.changeClock answers cooked dfreq doffset changeType)
      (World.Next False w) := by
  rw [World.changeClock]
  have h₁ := World.next_of_sched hw fun ids hT =>
    hT.handleSlew (cooked.toNsec / Chrony.nsecPerSec) dfreq doffset changeType
  dsimp only
  split
  · exact h₁
  next inst hinst =>
      split
      · exact (unknownStep_returns h₁.1 hinst answers).mono fun w' h' => h₁.trans h'
      · exact h₁.trans (slewTimes_next h₁.1 hinst _)

theorem addOther_returns (hw : w.Invariant) (ts : ℚ) (cls : Sched.TimeoutClass)
    (handler : Handler) :
    Returns OutOfIds (do
      let r ← liftSched (Sched.link w.sched (fun ptr => ts < ptr.ts) ts cls handler .other)
      pure { w with sched := r.1 }) (World.Next False w) := by
  cases hlink : Sched.link w.sched (fun ptr => ts < ptr.ts) ts cls handler Arg.other with
  | error e => exact congrArg Abort.sched (Sched.link_ne_error hlink)
  | ok r =>
      exact World.next_of_sched hw fun ids hT => hT.add_other (fun _ => decide_eq_true_iff) hlink

theorem removeOther_returns (hw : w.Invariant) (id : ℕ) :
    Returns OutOfIds (if w.sched.timerQueue.any fun e => e.id == id && e.arg == .other then do
        let sched ← liftSched (Sched.removeTimeout w.sched id)
        pure { w with sched }
      else pure w) (World.Next False w) := by
  split
  next hany =>
      obtain ⟨e, he, hids⟩ := List.any_eq_true.mp hany
      obtain ⟨hid, harg⟩ := Bool.and_eq_true_iff.mp hids
      obtain rfl := beq_iff_eq.mp hid
      have harg := beq_iff_eq.mp harg
      obtain ⟨ids, hT⟩ := hw.timers
      obtain ⟨q, hq, -⟩ := hT.remove_other he harg
      rw [hq]
      refine World.next_of_sched hw fun ids hT => ?_
      obtain ⟨q', hq', hT'⟩ := hT.remove_other he harg
      rw [hq] at hq'
      obtain rfl := Except.ok.inj hq'
      exact hT'
  · exact ⟨hw, fun _ h => h⟩

/-- A response is handled inside of the call for another one, if there is an association. -/
def World.Reenters (w : World) (event : Event × (ℕ → Answers)) : Prop :=
  ∃ inst, w.inst = some inst ∧ NtpCore.Reenters inst event

/-- **Every event keeps the invariant.** -/
theorem step_returns (hw : w.Invariant) (event : Event × (ℕ → Answers)) :
    Returns OutOfIds (step w event) (World.Next (w.Reenters event) w) := by
  have hweaken : ∀ x, Returns OutOfIds x (World.Next False w) →
      Returns OutOfIds x (World.Next (w.Reenters event) w) :=
    fun x hx => hx.mono fun w' h => ⟨h.1, fun _ => h.2 not_false⟩
  have hsame : World.Next (w.Reenters event) w w := ⟨hw, fun _ h => h⟩
  obtain ⟨event, answers⟩ := event
  rw [step]
  dsimp only
  split
  next hinst => exact hweaken _ (create_returns hinst hw _ _ _ answers)
  · exact hsame
  · exact hsame
  next inst hinst => exact hweaken _ (destroy_returns hinst hw answers)
  · exact hweaken _ (dispatch_returns hw answers _)
  · exact hweaken _ (changeClock_returns hw answers _ _ _ _)
  · exact hweaken _ (changeClock_returns hw answers _ _ _ _)
  · exact hweaken _ (addOther_returns hw _ _ _)
  · exact hweaken _ (removeOther_returns hw _)
  next inst _ _ _ _ _ _ _ hinst =>
      have hinv := hw
      rw [World.Invariant, hinst] at hinv
      obtain ⟨hsound, harmed⟩ := hinv answers
      refine (World.exec_next hinst (Event.program_ends hsound harmed _ answers rfl)).mono
        fun w' h => ⟨h.1, fun hre => h.2 fun hre' => hre ⟨inst, hinst, hre'⟩⟩
  · exact hsame

/-! ### Runs -/

theorem initialise_invariant (now : ℚ) :
    World.Invariant ⟨Sched.initialise now, none, []⟩ := by
  refine ⟨(Sched.initialise_good now).invariant, fun id k => ⟨?_, ?_⟩⟩
  · rintro ⟨e, he, -⟩
    exact absurd he List.not_mem_nil
  · rintro ⟨hne, hzero⟩
    exact absurd hzero.symm hne

theorem run_invariant (now : ℚ) (events : List (Event × (ℕ → Answers))) :
    Returns OutOfIds (run now events) World.Invariant :=
  Returns.foldlM (fun _ event hw => (step_returns hw event).mono fun _ h => h.1) events
    (initialise_invariant now)

/-- **The timers and the operating mode of an association**, when no handler is executing. -/
structure World.Consistent (w : World) : Prop where
  offline : ∀ inst, w.inst = some inst → inst.opmode = .offline →
    inst.txTimeoutId = 0 ∧ inst.rxTimeoutId = 0 ∧ inst.hasSavedResponse = false
  running : ∀ inst, w.inst = some inst → inst.opmode ≠ .offline → inst.txSuspended = false →
    inst.txTimeoutId ≠ 0
  suspended : ∀ inst, w.inst = some inst → inst.txSuspended = true → inst.txTimeoutId = 0
  live : ∀ inst, w.inst = some inst → ∀ k, inst.timeoutId k ≠ 0 →
    ∃ e ∈ w.sched.timerQueue, e.id = inst.timeoutId k ∧ e.handler = k ∧ e.arg = .inst
  destroyed : w.inst = none → ∀ e ∈ w.sched.timerQueue, e.arg ≠ .inst

theorem World.Invariant.consistent (hw : w.Invariant) : w.Consistent := by
  have hsome : ∀ inst, w.inst = some inst →
      Sound (w.state inst default) ∧ Armed (w.state inst default) := by
    intro inst hinst
    rw [World.Invariant, hinst] at hw
    exact hw default
  refine ⟨fun inst hinst hoff => ?_, fun inst hinst => (hsome inst hinst).2,
    fun inst hinst => (hsome inst hinst).1.suspended, fun inst hinst k hk => ?_,
    fun hnone e he harg => ?_⟩
  · have hzero := (hsome inst hinst).1.offline hoff
    refine ⟨hzero .transmitTimeout, hzero .receiveTimeout, Bool.eq_false_iff.mpr fun hsaved => ?_⟩
    exact hasSavedResponse_iff.mp hsaved (hzero .savedResponseTimeout)
  · have hT := (hsome inst hinst).1.base.timers
    obtain ⟨e, he, harg, hid, hhandler⟩ := (hT.owned_iff (inst.timeoutId k) k).mpr ⟨hk, rfl⟩
    exact ⟨e, he, hid, hhandler, harg⟩
  · rw [World.Invariant, hnone] at hw
    obtain ⟨hne, hzero⟩ := (hw.owned_iff e.id e.handler).mp ⟨e, he, harg, rfl, rfl⟩
    exact hne hzero.symm

/-- **The timers of an association agree with its operating mode in every run**, a destroyed
association has no timers, and no assertion fails: a run can end only when the scheduler has
no identifier for a new timeout. -/
theorem run_timers (now : ℚ) (events : List (Event × (ℕ → Answers))) :
    (∀ w, run now events = .ok w → w.Consistent) ∧
      ∀ e, run now events = .error e → e = .sched .noFreeId :=
  ⟨fun _ h => ((run_invariant now events).value h).consistent,
    fun _ h => (run_invariant now events).error h⟩

/-- **At most one response is accepted for each request**, in every run in which no response
is received in the last sample of a burst when another one is saved. -/
theorem run_accepts_at_most_one {now : ℚ} {events : List (Event × (ℕ → Answers))}
    (hsafe : ∀ before event after w, events = before ++ event :: after →
      run now before = .ok w → ¬w.Reenters event)
    {w : World} (h : run now events = .ok w) : OnePerRequest w.history := by
  have hone : w.AtMostOne := by
    induction events using List.reverseRecOn generalizing w with
    | nil =>
        cases h
        refine ⟨fun l₁ l₂ l₃ heq _ => ?_, Nat.zero_le 1⟩
        rw [List.append_assoc, List.nil_eq_append_iff, List.append_eq_nil_iff] at heq
        rw [heq.2.1]
        exact Nat.zero_le 1
    | append_singleton events event ih =>
        rw [run, List.foldlM_append, bind_eq_ok_iff] at h
        obtain ⟨w₁, hw₁, h⟩ := h
        rw [List.foldlM_cons, bind_eq_ok_iff] at h
        obtain ⟨w₂, hw₂, h⟩ := h
        obtain rfl := Except.ok.inj h
        have hinv := (run_invariant now events).value hw₁
        refine ((step_returns hinv event).value hw₂).2 ?_ (ih ?_ hw₁)
        · exact hsafe events event [] w₁ rfl hw₁
        · rintro before event' after w' rfl hw'
          exact hsafe before event' (after ++ [event]) w' (by simp) hw'
  exact hone.onePerRequest

/-- A server which responds to every request, with or without hardware timestamping. -/
def sampleAnswers (hwTsEnabled : Bool) (transmitTs : BitVec 64) : ℕ → Answers := fun _ =>
  { reachable := true
    syncPeer := false
    ourStratum := 3
    eventTime := ⟨1000, 0⟩
    rawTime := 0
    random := 0
    connectable := true
    sockFd := 5
    prepareAuth := true
    ntsAddress := none
    checkAuth := true
    hwTsEnabled
    hwTsTimeout := 1 / 1000
    transmission := some ⟨⟨1000, 0⟩, 0, transmitTs, true⟩
    testA := true
    testB := true
    testC := true
    testD := true
    filteredSample := false
    pollAdj := 0
    lanDelay := true
    slews := [] }

/-- A response to the request which was sent with the timestamp. -/
def sampleResponse (originateTs receiveTs transmitTs : BitVec 64) : Event :=
  .processRxKnown ⟨.inet4 1, 0, 5⟩ ⟨⟨1001, 0⟩, .kernel⟩
    (some ⟨.normal, .server, 1, 6, 0, 0, 1, originateTs, receiveTs, transmitTs⟩)

/-- A client is created offline, and makes one good measurement in a burst. -/
def sampleBurst (hwTsEnabled : Bool) : List (Event × (ℕ → Answers)) :=
  [(.create ⟨.client, false, 6, 10, 100, 3, false, false, false, false, 0, .offline⟩
      ⟨.inet4 2, 123⟩ 0, sampleAnswers hwTsEnabled 7),
    (.start, sampleAnswers hwTsEnabled 7),
    (.initiateSampleBurst 1 4, sampleAnswers hwTsEnabled 7),
    (.dispatch 10, sampleAnswers hwTsEnabled 7),
    (sampleResponse 7 1 2, sampleAnswers hwTsEnabled 7)]

theorem sampleBurst_safe : ∀ before event after w,
    sampleBurst false = before ++ event :: after → run 0 before = .ok w → ¬w.Reenters event := by
  rintro before event after w heq - ⟨inst, -, hre⟩
  have hmem : event ∈ sampleBurst false := by
    rw [heq]
    simp
  simp only [sampleBurst, List.mem_cons, List.not_mem_nil, or_false] at hmem
  rcases hmem with rfl | rfl | rfl | rfl | rfl
  · exact hre
  · exact hre
  · exact hre
  · exact hre
  · simp [Reenters, sampleResponse, sampleAnswers, isSavable] at hre

theorem run_accepts_at_most_one_sampleBurst : ∃ w, run 0 (sampleBurst false) = .ok w ∧
    w.history = [.transmitted, .accepted] ∧ OnePerRequest w.history := by
  obtain ⟨w, hw, hhistory⟩ := exists_ok_of_map_toOption
    (x := run 0 (sampleBurst false)) (f := World.history)
    (b := [.transmitted, .accepted]) (by decide +kernel)
  exact ⟨w, hw, hhistory, run_accepts_at_most_one sampleBurst_safe hw⟩

/-- In the next burst, the response is received twice before the hardware timestamp of the
request. -/
def duplicatedResponse : List (Event × (ℕ → Answers)) :=
  sampleBurst true ++
    [(.initiateSampleBurst 1 4, sampleAnswers true 8),
      (.dispatch 20000, sampleAnswers true 8),
      (sampleResponse 8 3 4, sampleAnswers true 8),
      (sampleResponse 8 3 4, sampleAnswers true 8)]

/-- **Both of the responses are accepted.** -/
theorem run_accepts_duplicatedResponse : ∃ w, run 0 duplicatedResponse = .ok w ∧
    ¬OnePerRequest w.history := by
  obtain ⟨w, hw, hhistory⟩ := exists_ok_of_map_toOption
    (x := run 0 duplicatedResponse) (f := World.history)
    (b := [.transmitted, .accepted, .transmitted, .accepted, .accepted]) (by decide +kernel)
  refine ⟨w, hw, fun hone => ?_⟩
  have hcount := hone [.transmitted, .accepted, .transmitted] [.accepted, .accepted] [] hhistory
    (by decide)
  exact absurd hcount (by decide)

end Chrony.NtpCore
