import Chrony.Reference.Leap
import Chrony.Sched.Invariant

/-!
# Leap Seconds Over Runs

A leap second is armed for the midnight that follows the current time, after a check that it
is allowed on this day. After a step of the clock the check may be suppressed because a leap
second is close, and the timeout is set for the next midnight all the same. An update of the
reference which steps the clock itself arms the leap second with the time before the step.
In every run where neither happens, leap seconds are armed before the midnights where they
are allowed, and started there.

## Main results

* `Inv.updateLeapStatus`: what an update of the status keeps.
* `run_leapMidnight`: leap seconds over runs.
* `run_leapMidnight_stepAcross`: the suppressed check.
* `setReference_stepPast`: the time before the step.
-/

namespace Chrony.Reference

open Chrony.Lib Chrony.Sched

variable {s s' : State}

/-! ### Midnights -/

/-- **The midnights where a leap second is allowed** end a 30 June or a 31 December. -/
def AllowedMidnight (t : ℤ) : Prop :=
  ∃ year, t = ((Civil.Date.mk year 6 30).days + 1) * 86400 ∨
    t = ((Civil.Date.mk year 12 31).days + 1) * 86400

/-- The times for which `set_leap_timeout` finds the next midnight, if they are on a day that
may end with a leap second. Before 1970 the division rounds up. -/
def TimeOk (now : ℤ) : Prop :=
  isLeapSecondDay now → 0 ≤ now ∨ now % 86400 = 0

instance (now : ℤ) : Decidable (TimeOk now) :=
  inferInstanceAs (Decidable (_ → _))

theorem leapMidnight_eq {now : ℤ} (h : 0 ≤ now ∨ now % 86400 = 0) :
    leapMidnight now = (now / 86400 + 1) * 86400 := by
  change (now.tdiv 86400 + 1) * 86400 = _
  rcases h with h | h
  · rw [Int.tdiv_eq_ediv_of_nonneg h]
  · rw [Int.tdiv_eq_ediv_of_dvd (Int.dvd_of_emod_eq_zero h)]

theorem lt_leapMidnight (now : ℤ) : now < leapMidnight now :=
  Int.lt_tdiv_add_one_mul_self now (by norm_num)

theorem gmtime_eq {t : ℤ} {stm : Civil.Date} (h : gmtime t = some stm) :
    stm = Civil.ofDays (t / 86400) := by
  obtain ⟨-, hdate⟩ := Option.ite_none_right_eq_some.mp h
  exact (Option.some.inj hdate).symm

/-- A day with a leap second ends at an allowed midnight. -/
theorem allowedMidnight_leapMidnight {now : ℤ} (h : TimeOk now) (hday : isLeapSecondDay now) :
    AllowedMidnight (leapMidnight now) := by
  rw [leapMidnight_eq (h hday)]
  rw [isLeapSecondDay, Option.any_eq_true] at hday
  obtain ⟨stm, hgmtime, hday⟩ := hday
  rw [decide_eq_true_iff] at hday
  have hdays := Civil.days_ofDays (now / 86400)
  rw [← gmtime_eq hgmtime] at hdays
  obtain ⟨year, month, day⟩ := stm
  refine ⟨year, ?_⟩
  rcases hday with ⟨rfl, rfl⟩ | ⟨rfl, rfl⟩
  · exact .inl (by rw [hdays])
  · exact .inr (by rw [hdays])

/-- A leap second is found only on a day when it is allowed. -/
theorem isLeapSecondDay_of_leapAt (ldb : LeapDb) (leap : Leap) {now : ℤ}
    (h : (leapAt ldb leap now).2.1 ≠ 0) : isLeapSecondDay now := by
  by_contra hday
  refine h ?_
  rw [leapAt]
  dsimp only
  rw [if_neg hday]
  generalize (if leap = .normal then _ else leap) = leap'
  split
  · rfl
  · rfl

/-! ### The invariant -/

/-- The timeouts of the module in the queue: there is at most the one with the identifier. -/
structure TimerOk (s : State) : Prop where
  queue : Invariant s.sched
  own : ∀ e ∈ s.sched.timerQueue, e.handler ≠ .other → e.id = s.leapTimeoutId
  live : s.leapTimeoutId = 0 ∨ ∃ e ∈ s.sched.timerQueue, e.id = s.leapTimeoutId

/-- The handler of the timeout. -/
def State.expected (s : State) : Handler :=
  if s.leapInProgress then .leapEndTimeout else .leapStartTimeout

/-- **A leap second was started where it is allowed**: the timeout was set before the midnight,
and it was not dispatched before its time. -/
structure LeapStart.Ok (leapMode : LeapMode) (start : LeapStart) : Prop where
  midnight : AllowedMidnight start.leapWhen
  armedAt : start.armedAt < start.leapWhen
  time : leapStartTime leapMode start.leapSec start.leapWhen ≤ start.time

/-- What does not depend on the time of the timeout, which the scheduler shifts first when the
clock is stepped. -/
structure Armed (s : State) : Prop extends TimerOk s where
  kind : ∀ e ∈ s.sched.timerQueue, e.id = s.leapTimeoutId → e.handler = s.expected
  armed : s.leapTimeoutId ≠ 0 ↔ s.ourLeapSec ≠ 0 ∨ s.leapInProgress = true
  midnight : s.ourLeapSec ≠ 0 → s.leapInProgress = false →
    AllowedMidnight s.leapWhen ∧ s.armedAt < s.leapWhen
  started : ∀ start ∈ s.started, start.Ok s.leapMode

/-- **The invariant.** The timeout is set for the leap second. -/
structure Inv (s : State) : Prop extends Armed s where
  due : s.ourLeapSec ≠ 0 → s.leapInProgress = false → ∀ e ∈ s.sched.timerQueue,
    e.id = s.leapTimeoutId → e.ts = leapStartTime s.leapMode s.ourLeapSec s.leapWhen

/-- The only failure: no identifier is left for a new timeout. -/
def NoId (a : Abort) : Prop :=
  a = .noFreeId

theorem inv_initialise (now : ℚ) (leapMode : LeapMode) : Inv (initialise now leapMode) where
  queue := (initialise_good now).invariant
  own := fun _ he => absurd he List.not_mem_nil
  live := .inl rfl
  kind := fun _ he => absurd he List.not_mem_nil
  armed := ⟨fun h => absurd rfl h, fun h => (h.elim (absurd rfl) Bool.false_ne_true).elim⟩
  midnight := fun h => absurd rfl h
  started := fun _ ht => absurd ht List.not_mem_nil
  due := fun h => absurd rfl h

/-- What the invariant depends on is the same in both states, up to the times in the queue. -/
structure SameLeap (s s' : State) : Prop where
  ourLeapSec : s'.ourLeapSec = s.ourLeapSec
  leapWhen : s'.leapWhen = s.leapWhen
  leapInProgress : s'.leapInProgress = s.leapInProgress
  leapTimeoutId : s'.leapTimeoutId = s.leapTimeoutId
  leapMode : s'.leapMode = s.leapMode
  armedAt : s'.armedAt = s.armedAt
  started : s'.started = s.started

/-- The queues have the same entries, up to their times. -/
structure SameTimers (q q' : Sched.State Handler Unit) : Prop where
  invariant : Invariant q'
  old : ∀ e ∈ q'.timerQueue, ∃ x ∈ q.timerQueue, e.id = x.id ∧ e.handler = x.handler
  kept : ∀ x ∈ q.timerQueue, ∃ e ∈ q'.timerQueue, e.id = x.id ∧ e.handler = x.handler

theorem SameTimers.refl {q : Sched.State Handler Unit} (h : Invariant q) : SameTimers q q :=
  ⟨h, fun e he => ⟨e, he, rfl, rfl⟩, fun x hx => ⟨x, hx, rfl, rfl⟩⟩

theorem SameTimers.handleSlew {q : Sched.State Handler Unit} (h : Invariant q)
    (cooked dfreq doffset : ℚ) (changeType : ChangeType) :
    SameTimers q (Sched.handleSlew q cooked dfreq doffset changeType) := by
  refine ⟨handleSlew_invariant h cooked dfreq doffset changeType, ?_, ?_⟩
  · rw [Sched.handleSlew]
    split
    · intro e he
      obtain ⟨x, hx, rfl⟩ := List.mem_map.mp he
      exact ⟨x, hx, rfl, rfl⟩
    · exact fun e he => ⟨e, he, rfl, rfl⟩
  · rw [Sched.handleSlew]
    split
    · exact fun x hx => ⟨_, List.mem_map_of_mem hx, rfl, rfl⟩
    · exact fun x hx => ⟨x, hx, rfl, rfl⟩

/-- A change of the times in the queue. -/
theorem Armed.same (hs : Armed s) (h : SameLeap s s') (hsched : SameTimers s.sched s'.sched) :
    Armed s' where
  queue := hsched.invariant
  own := by
    intro e he hother
    obtain ⟨x, hx, hid, hhandler⟩ := hsched.old e he
    rw [hhandler] at hother
    rw [hid, h.leapTimeoutId]
    exact hs.own x hx hother
  live := by
    rw [h.leapTimeoutId]
    refine hs.live.imp_right ?_
    rintro ⟨x, hx, hid⟩
    obtain ⟨e, he, hid', -⟩ := hsched.kept x hx
    exact ⟨e, he, hid'.trans hid⟩
  kind := by
    intro e he hid
    obtain ⟨x, hx, hid', hhandler⟩ := hsched.old e he
    rw [hhandler, State.expected, h.leapInProgress]
    rw [hid', h.leapTimeoutId] at hid
    exact hs.kind x hx hid
  armed := by
    rw [h.leapTimeoutId, h.ourLeapSec, h.leapInProgress]
    exact hs.armed
  midnight := by
    rw [h.ourLeapSec, h.leapInProgress, h.leapWhen, h.armedAt]
    exact hs.midnight
  started := by
    rw [h.started, h.leapMode]
    exact hs.started

/-- The invariant is kept if the queue does not change. -/
theorem Inv.same (hs : Inv s) (h : SameLeap s s') (hinv : Invariant s'.sched)
    (hqueue : s'.sched.timerQueue = s.sched.timerQueue) : Inv s' where
  toArmed := hs.toArmed.same h
    ⟨hinv, fun e he => ⟨e, hqueue ▸ he, rfl, rfl⟩, fun x hx => ⟨x, hqueue ▸ hx, rfl, rfl⟩⟩
  due := by
    rw [h.ourLeapSec, h.leapInProgress, h.leapWhen, h.leapTimeoutId, h.leapMode, hqueue]
    exact hs.due

/-! ### The status -/

/-- **A new timeout** of the module in a queue that has none. -/
theorem inv_addTimeout {p : TimerQueueEntry Handler Unit → Bool} {ts : ℚ} {cls : TimeoutClass}
    {handler : Handler} (leapWhen : ℤ) (armedAt : ℚ) (hqueue : Invariant s.sched)
    (hnone : ∀ e ∈ s.sched.timerQueue, e.handler = .other) (hp : ∀ x, p x = true ↔ ts < x.ts)
    (hkind : handler = s.expected) (harmed : s.ourLeapSec ≠ 0 ∨ s.leapInProgress = true)
    (hmidnight : s.leapInProgress = false → (AllowedMidnight leapWhen ∧ armedAt < leapWhen) ∧
      ts = leapStartTime s.leapMode s.ourLeapSec leapWhen)
    (hstarted : ∀ start ∈ s.started, start.Ok s.leapMode) :
    Returns NoId (link s.sched p ts cls handler ()) fun r =>
      Inv { s with sched := r.1, leapWhen, leapTimeoutId := r.2.id, armedAt } := by
  cases hlink : link s.sched p ts cls handler () with
  | error a => exact link_ne_error hlink
  | ok r =>
      obtain ⟨sched, entry⟩ := r
      obtain ⟨hid, -, hfresh, hentry, -⟩ := link_spec hlink
      have hmem := mem_link_iff hlink
      have hhandler : entry.handler = handler := by rw [hentry]
      have hts : entry.ts = ts := by rw [hentry]
      have hown : ∀ e ∈ sched.timerQueue, e.id = entry.id → e = entry := by
        intro e he heq
        exact ((hmem e).mp he).resolve_right fun he => absurd heq (hfresh e he)
      refine ⟨⟨⟨link_invariant hqueue hp hlink, ?_, ?_⟩, ?_, ?_, fun _ h => (hmidnight h).1,
        hstarted⟩, ?_⟩
      · intro e he hother
        rcases (hmem e).mp he with rfl | he
        · rfl
        · exact absurd (hnone e he) hother
      · exact .inr ⟨entry, (hmem entry).mpr (.inl rfl), rfl⟩
      · intro e he heq
        rw [hown e he heq]
        exact hhandler.trans hkind
      · exact ⟨fun _ => harmed, fun _ => hid⟩
      · intro _ hprogress e he heq
        rw [hown e he heq]
        exact hts.trans (hmidnight hprogress).2

/-- **`set_leap_timeout`** arms the leap second, or there is none. -/
theorem TimerOk.setLeapTimeout (h : TimerOk s) {now : ℤ}
    (hday : s.ourLeapSec ≠ 0 → AllowedMidnight (leapMidnight now) ∧ s.rawTime < leapMidnight now)
    (hstarted : ∀ start ∈ s.started, start.Ok s.leapMode) :
    Returns NoId (s.setLeapTimeout now) Inv := by
  obtain ⟨sched, hremove, hqueue, hmem⟩ := removeTimeout_succeeds h.queue h.live
  have hnone : ∀ e ∈ sched.timerQueue, e.handler = .other := by
    intro e he
    by_contra hother
    exact ((hmem e).mp he).2 (h.own e ((hmem e).mp he).1 hother)
  rw [State.setLeapTimeout, hremove]
  change Returns NoId (if s.ourLeapSec = 0 then _ else _) Inv
  split
  next hsec =>
      refine ⟨⟨⟨hqueue, ?_, .inl rfl⟩, ?_, ?_, fun hne => absurd hsec hne, hstarted⟩,
        fun hne => absurd hsec hne⟩
      · exact fun e he hother => absurd (hnone e he) hother
      · exact fun e he hid => absurd hid (hqueue.id_range e he).1
      · exact ⟨fun hne => absurd rfl hne,
          fun harmed => (harmed.elim (absurd hsec) Bool.false_ne_true).elim⟩
  next hsec =>
      refine Returns.bind (inv_addTimeout (s := { s with
        sched, leapTimeoutId := 0, leapInProgress := false }) (leapMidnight now) _ hqueue hnone
        (fun x => decide_eq_true_iff) rfl (.inl hsec) (fun _ => ⟨hday hsec, rfl⟩) hstarted) ?_
      exact fun r hr => hr

/-- **`update_leap_status`** sets the timeout for a leap second of the day, or only the status
changes. The timeout must not be reset on a day without leap seconds while the check is
suppressed. -/
theorem Armed.updateLeapStatus (h : Armed s) (ldb : LeapDb) (leap : Leap) {now : ℤ} {reset : Bool}
    (hnow : TimeOk now) (hraw : (leapAt ldb leap now).2.1 ≠ 0 → s.rawTime < leapMidnight now)
    (hreset : reset = true → s.ourLeapSec ≠ 0 ∧ s.rawTime < leapMidnight now ∧
      (s.isLeapSecondClose none 0 → isLeapSecondDay now)) :
    Returns NoId (s.updateLeapStatus ldb leap now reset) fun s' =>
      Inv s' ∨ reset = false ∧ ∃ ourLeapStatus, s' = { s with ourLeapStatus } := by
  have hstatus : ∀ (leap : Leap) (s : State), Inv s → Inv { s with ourLeapStatus := leap } :=
    fun leap s hs => hs.same ⟨rfl, rfl, rfl, rfl, rfl, rfl, rfl⟩ hs.queue rfl
  have hallowed : isLeapSecondDay now → AllowedMidnight (leapMidnight now) :=
    allowedMidnight_leapMidnight hnow
  have hleap := fun hsec => hallowed (isLeapSecondDay_of_leapAt ldb leap hsec)
  rw [State.updateLeapStatus]
  generalize leapAt ldb leap now = found at hleap hraw
  obtain ⟨leap', leapSec, taiOffset⟩ := found
  dsimp only at hleap hraw ⊢
  split
  next =>
      refine Returns.bind ?_ fun s' hs' => .inl (hstatus leap' s' hs')
      exact TimerOk.setLeapTimeout
        (s := { s with ourLeapSec := leapSec, ourTaiOffset := taiOffset, systemLeap := _ })
        ⟨h.queue, h.own, h.live⟩ (fun hsec => ⟨hleap hsec, hraw hsec⟩) h.started
  next hsame =>
      split
      next hreset' =>
          obtain ⟨hsec, hraw', hclose⟩ := hreset hreset'
          refine Returns.bind ?_ fun s' hs' => .inl (hstatus leap' s' hs')
          refine TimerOk.setLeapTimeout h.toTimerOk (fun _ => ⟨?_, hraw'⟩) h.started
          by_cases hclose' : s.isLeapSecondClose none 0 = true
          · exact hallowed (hclose hclose')
          · -- Without a suppressed check the leap second is that of the day.
            have heq : leapSec = s.ourLeapSec := by
              by_contra hne
              exact hsame ⟨.inl hne, hclose'⟩
            exact hleap (heq ▸ hsec)
      next hreset' => exact .inr ⟨Bool.not_eq_true _ ▸ hreset', leap', rfl⟩

/-- An update without a reset of the timeout keeps the invariant. -/
theorem Inv.updateLeapStatus (h : Inv s) (ldb : LeapDb) (leap : Leap) {now : ℤ}
    (hnow : TimeOk now) (hraw : (leapAt ldb leap now).2.1 ≠ 0 → s.rawTime < leapMidnight now) :
    Returns NoId (s.updateLeapStatus ldb leap now false) Inv := by
  refine (h.toArmed.updateLeapStatus ldb leap hnow hraw fun hreset => by cases hreset).mono ?_
  rintro s' (hs' | ⟨-, leap', rfl⟩)
  · exact hs'
  · exact h.same ⟨rfl, rfl, rfl, rfl, rfl, rfl, rfl⟩ h.queue rfl

/-- Without synchronisation there is no leap second, unless the check is suppressed. -/
theorem setUnsynchronised_cases {ldb : LeapDb} (h : s.setUnsynchronised ldb = .ok s') :
    s'.ourLeapSec = 0 ∨
      ∃ ourLeapStatus areWeSynchronised, s' = { s with ourLeapStatus, areWeSynchronised } := by
  rw [State.setUnsynchronised] at h
  split at h
  next =>
      cases h
      exact .inr ⟨_, _, rfl⟩
  next =>
      rw [bind_eq_ok_iff] at h
      obtain ⟨s₁, hupdate, h⟩ := h
      cases h
      have hfound : leapAt ldb .unsynchronised 0 = (.unsynchronised, 0, 0) := rfl
      rw [State.updateLeapStatus, hfound] at hupdate
      dsimp only at hupdate
      split at hupdate
      next =>
          rw [bind_eq_ok_iff] at hupdate
          obtain ⟨s₂, hset, hupdate⟩ := hupdate
          cases hupdate
          rw [State.setLeapTimeout, bind_eq_ok_iff] at hset
          obtain ⟨sched, -, hset⟩ := hset
          rw [if_pos rfl] at hset
          cases hset
          exact .inl rfl
      next =>
          rw [if_neg Bool.false_ne_true] at hupdate
          cases hupdate
          exact .inr ⟨_, _, rfl⟩

theorem Armed.setUnsynchronised (h : Armed s) (ldb : LeapDb) :
    Returns NoId (s.setUnsynchronised ldb) Armed := by
  rw [State.setUnsynchronised]
  split
  next => exact h
  next =>
      refine Returns.bind (h.updateLeapStatus ldb .unsynchronised (fun _ => .inl le_rfl)
        (fun hsec => absurd rfl hsec) (fun hreset => by cases hreset)) fun s' hs' => ?_
      have hsame : Armed s' := by
        rcases hs' with hs' | ⟨-, leap', rfl⟩
        · exact hs'.toArmed
        · exact h.same ⟨rfl, rfl, rfl, rfl, rfl, rfl, rfl⟩ (.refl h.queue)
      exact hsame.same ⟨rfl, rfl, rfl, rfl, rfl, rfl, rfl⟩ (.refl hsame.queue)

theorem Inv.setUnsynchronised (h : Inv s) (ldb : LeapDb) :
    Returns NoId (s.setUnsynchronised ldb) Inv := by
  cases hset : s.setUnsynchronised ldb with
  | error a => exact (h.toArmed.setUnsynchronised ldb).error hset
  | ok s' =>
      rcases setUnsynchronised_cases hset with hsec | ⟨_, _, rfl⟩
      · exact ⟨(h.toArmed.setUnsynchronised ldb).value hset, fun hne => absurd hsec hne⟩
      · exact h.same ⟨rfl, rfl, rfl, rfl, rfl, rfl, rfl⟩ h.queue rfl

/-! ### Changes of the clock -/

/-- **The condition on a change of the clock.** A step with an armed leap second which is
close goes to a day that may end with a leap second. -/
def State.ChangeOk (s : State) (change : Change) : Prop :=
  change.changeType ≠ .adjust → s.ourLeapSec ≠ 0 → s.leapInProgress = false →
    TimeOk change.now ∧
      ((s.shift change).isLeapSecondClose none 0 → isLeapSecondDay change.now)

instance (s : State) (change : Change) : Decidable (s.ChangeOk change) :=
  inferInstanceAs (Decidable (_ → _ → _ → _ ∧ _))

/-- The scheduler shifts the timeouts. -/
theorem Armed.shift (h : Armed s) (change : Change) : Armed (s.shift change) :=
  h.same ⟨rfl, rfl, rfl, rfl, rfl, rfl, rfl⟩
    (.handleSlew h.queue change.cooked change.dfreq change.doffset change.changeType)

/-- They are not shifted by an adjustment. -/
theorem Inv.shift (h : Inv s) {change : Change} (htype : change.changeType = .adjust) :
    Inv (s.shift change) := by
  refine h.same ⟨rfl, rfl, rfl, rfl, rfl, rfl, rfl⟩ (h.toArmed.shift change).queue ?_
  rw [State.shift, htype]
  rfl

/-- **`handle_slew`** undoes the shift of the timeout under the condition. -/
theorem Inv.invokeHandlers (h : Inv s) (ldb : LeapDb) {change : Change}
    (hok : s.ChangeOk change) : Returns NoId (s.invokeHandlers ldb change) Inv := by
  have hshift := h.toArmed.shift change
  rw [State.invokeHandlers, State.handleSlew]
  have hreset : ∀ s₁ : State, Armed s₁ → change.changeType ≠ .adjust → s₁.ourLeapSec = 0 ∨
      (∃ ourLeapStatus areWeSynchronised,
        s₁ = { s.shift change with ourLeapStatus, areWeSynchronised }) →
      Returns NoId (if change.changeType ≠ .adjust ∧ s₁.ourLeapSec ≠ 0 ∧ ¬s₁.leapInProgress then
        s₁.updateLeapStatus ldb s₁.ourLeapStatus change.now true else .ok s₁) Inv := by
    intro s₁ h₁ htype hcases
    split
    next hcond =>
        obtain ⟨-, hsec, hprogress⟩ := hcond
        obtain ⟨leap', sync, rfl⟩ := hcases.resolve_left hsec
        rw [Bool.not_eq_true] at hprogress
        obtain ⟨hnow, hday⟩ := hok htype hsec hprogress
        have hraw : (change.now : ℚ) < leapMidnight change.now := by
          exact_mod_cast lt_leapMidnight change.now
        refine (h₁.updateLeapStatus ldb _ hnow (fun _ => hraw)
          fun _ => ⟨hsec, hraw, hday⟩).mono ?_
        rintro s' (hs' | ⟨hfalse, -⟩)
        · exact hs'
        · cases hfalse
    next hcond =>
        refine ⟨h₁, fun hsec hprogress => absurd ⟨htype, hsec, ?_⟩ hcond⟩
        rw [hprogress]
        exact Bool.false_ne_true
  by_cases hunknown : change.changeType = .unknownStep
  · rw [if_pos hunknown]
    cases hset : (s.shift change).setUnsynchronised ldb with
    | error a => exact (hshift.setUnsynchronised ldb).error hset
    | ok s₁ =>
        exact hreset s₁ ((hshift.setUnsynchronised ldb).value hset) (by simp [hunknown])
          (setUnsynchronised_cases hset)
  · rw [if_neg hunknown]
    by_cases htype : change.changeType = .adjust
    · change Returns NoId (ite _ _ _) Inv
      rw [if_neg fun hcond => hcond.1 htype]
      exact h.shift htype
    · exact hreset (s.shift change) hshift htype (.inr ⟨_, _, rfl⟩)

theorem setLeapTimeout_rawTime {now : ℤ} (h : s.setLeapTimeout now = .ok s') :
    s'.rawTime = s.rawTime := by
  rw [State.setLeapTimeout, bind_eq_ok_iff] at h
  obtain ⟨sched, -, h⟩ := h
  dsimp only at h
  split at h
  · cases h
    rfl
  · rw [bind_eq_ok_iff] at h
    obtain ⟨r, -, h⟩ := h
    cases h
    rfl

theorem updateLeapStatus_rawTime {ldb : LeapDb} {leap : Leap} {now : ℤ} {reset : Bool}
    (h : s.updateLeapStatus ldb leap now reset = .ok s') : s'.rawTime = s.rawTime := by
  rw [State.updateLeapStatus] at h
  dsimp only at h
  split at h
  · rw [bind_eq_ok_iff] at h
    obtain ⟨s₁, hset, h⟩ := h
    have h₁ := setLeapTimeout_rawTime hset
    cases h
    exact h₁
  · split at h
    · rw [bind_eq_ok_iff] at h
      obtain ⟨s₁, hset, h⟩ := h
      have h₁ := setLeapTimeout_rawTime hset
      cases h
      exact h₁
    · cases h
      rfl

theorem setUnsynchronised_rawTime {ldb : LeapDb} (h : s.setUnsynchronised ldb = .ok s') :
    s'.rawTime = s.rawTime := by
  rw [State.setUnsynchronised] at h
  split at h
  · cases h
    rfl
  · rw [bind_eq_ok_iff] at h
    obtain ⟨s₁, hupdate, h⟩ := h
    have h₁ := updateLeapStatus_rawTime hupdate
    cases h
    exact h₁

/-- The raw time after a change of the clock. -/
theorem invokeHandlers_rawTime {ldb : LeapDb} {change : Change}
    (h : s.invokeHandlers ldb change = .ok s') : s'.rawTime = change.now := by
  have hreset : ∀ s₁ : State, s₁.rawTime = change.now →
      (if change.changeType ≠ .adjust ∧ s₁.ourLeapSec ≠ 0 ∧ ¬s₁.leapInProgress then
        s₁.updateLeapStatus ldb s₁.ourLeapStatus change.now true else .ok s₁) = .ok s' →
      s'.rawTime = change.now := by
    intro s₁ h₁ h
    split at h
    · exact (updateLeapStatus_rawTime h).trans h₁
    · cases h
      exact h₁
  rw [State.invokeHandlers, State.handleSlew] at h
  by_cases hunknown : change.changeType = .unknownStep
  · rw [if_pos hunknown, bind_eq_ok_iff] at h
    obtain ⟨s₁, hset, h⟩ := h
    exact hreset s₁ (setUnsynchronised_rawTime hset) h
  · rw [if_neg hunknown] at h
    exact hreset (s.shift change) rfl h

/-- An adjustment changes only the time of the last event. -/
theorem invokeHandlers_adjust (s : State) (ldb : LeapDb) {change : Change}
    (htype : change.changeType = .adjust) :
    s.invokeHandlers ldb change = .ok (s.shift change) := by
  rw [State.invokeHandlers, State.handleSlew, htype]
  rfl

/-! ### The timeouts -/

/-- While a leap second is in progress, a change of the clock only shifts the timeouts. -/
theorem invokeHandlers_inProgress (hprogress : s.leapInProgress = true) (ldb : LeapDb)
    {change : Change} (htype : change.changeType ≠ .unknownStep) :
    s.invokeHandlers ldb change = .ok (s.shift change) := by
  rw [State.invokeHandlers, State.handleSlew, if_neg htype]
  refine if_neg fun hcond => hcond.2.2 ?_
  exact hprogress

/-- A leap second is in progress, and its timeout is not set yet. -/
structure Starting (s : State) : Prop where
  queue : Invariant s.sched
  none : ∀ e ∈ s.sched.timerQueue, e.handler = .other
  inProgress : s.leapInProgress = true
  started : ∀ start ∈ s.started, start.Ok s.leapMode

theorem Starting.invokeHandlers (h : Starting s) (ldb : LeapDb) {change : Change}
    (htype : change.changeType ≠ .unknownStep) :
    Returns NoId (s.invokeHandlers ldb change) Starting := by
  rw [invokeHandlers_inProgress h.inProgress ldb htype]
  have hsame := SameTimers.handleSlew h.queue change.cooked change.dfreq change.doffset
    change.changeType
  refine ⟨hsame.invariant, fun e he => ?_, h.inProgress, h.started⟩
  obtain ⟨x, hx, -, hhandler⟩ := hsame.old e he
  rw [hhandler]
  exact h.none x hx

theorem Starting.correctLeap (h : Starting s) (ldb : LeapDb) (input : StartInput) :
    Returns NoId (s.correctLeap ldb input) Starting := by
  rw [State.correctLeap]
  split
  next => exact h
  next =>
      refine Returns.bind (P := Starting) (h.invokeHandlers ldb (by simp)) fun s₁ h₁ => ?_
      split
      · exact h₁.invokeHandlers ldb (by simp)
      · exact h₁
  next =>
      refine Returns.bind (P := Starting) (h.invokeHandlers ldb (by simp)) fun s₁ h₁ => ?_
      split
      · exact h₁.invokeHandlers ldb (by simp)
      · exact h₁
  next => exact h

/-- The clock is corrected, and the end of the leap second is awaited. -/
theorem leapStartTimeout_inv (hqueue : Invariant s.sched)
    (hnone : ∀ e ∈ s.sched.timerQueue, e.handler = .other)
    (hstart : LeapStart.Ok s.leapMode ⟨s.ourLeapSec, s.leapWhen, s.armedAt, s.rawTime⟩)
    (hstarted : ∀ start ∈ s.started, start.Ok s.leapMode) (ldb : LeapDb) (input : StartInput) :
    Returns NoId (s.leapStartTimeout ldb input) Inv := by
  have hstarting : Starting { s with
      leapInProgress := true
      started := ⟨s.ourLeapSec, s.leapWhen, s.armedAt, s.rawTime⟩ :: s.started } :=
    ⟨hqueue, hnone, rfl, List.forall_mem_cons.mpr ⟨hstart, hstarted⟩⟩
  have hend : ∀ s₁ : State, Starting s₁ → Returns NoId (
      addTimeoutByDelay s₁.sched input.nowEnd 2 .leapEndTimeout () >>= fun r =>
        .ok { s₁ with sched := r.1, leapTimeoutId := r.2.id }) Inv := by
    intro s₁ h₁
    rw [addTimeoutByDelay, if_neg (by norm_num), if_neg (by linarith), addTimeout]
    refine Returns.bind (inv_addTimeout s₁.leapWhen s₁.armedAt h₁.queue h₁.none
      (fun x => decide_eq_true_iff) ?_ (.inr h₁.inProgress) ?_ h₁.started) fun r hr => hr
    · rw [State.expected, h₁.inProgress]
      rfl
    · intro hprogress
      rw [h₁.inProgress] at hprogress
      cases hprogress
  rw [State.leapStartTimeout]
  exact Returns.bind (hstarting.correctLeap ldb input) hend

/-- A timeout of another module is taken from the queue. -/
theorem Inv.removeOther (h : Inv s) {ptr : TimerQueueEntry Handler Unit}
    (hptr : ptr ∈ s.sched.timerQueue) (hhandler : ptr.handler = .other)
    {sched : Sched.State Handler Unit} (rawTime : ℚ) (hsched : Invariant sched)
    (hmem : ∀ x, x ∈ sched.timerQueue ↔ x ∈ s.sched.timerQueue ∧ x.id ≠ ptr.id) :
    Inv { s with sched, rawTime } where
  queue := hsched
  own := fun e he => h.own e ((hmem e).mp he).1
  live := by
    refine h.live.imp_right ?_
    rintro ⟨e, he, hid⟩
    refine ⟨e, (hmem e).mpr ⟨he, fun heq => ?_⟩, hid⟩
    have hkind := h.kind e he hid
    rw [h.queue.eq_of_id_eq he hptr heq, hhandler, State.expected] at hkind
    split at hkind
    · cases hkind
    · cases hkind
  kind := fun e he => h.kind e ((hmem e).mp he).1
  armed := h.armed
  midnight := h.midnight
  started := h.started
  due := fun hsec hprogress e he => h.due hsec hprogress e ((hmem e).mp he).1

/-- What is left of the queue when the timeout of the module is dispatched. -/
theorem Inv.dispatched (h : Inv s) {ptr : TimerQueueEntry Handler Unit}
    (hptr : ptr ∈ s.sched.timerQueue) (hown : ptr.handler ≠ .other)
    {sched : Sched.State Handler Unit}
    (hmem : ∀ x, x ∈ sched.timerQueue ↔ x ∈ s.sched.timerQueue ∧ x.id ≠ ptr.id) :
    ptr.id = s.leapTimeoutId ∧ ptr.handler = s.expected ∧ s.leapTimeoutId ≠ 0 ∧
      ∀ e ∈ sched.timerQueue, e.handler = .other := by
  have hid := h.own ptr hptr hown
  refine ⟨hid, h.kind ptr hptr hid, ?_, fun e he => ?_⟩
  · rw [← hid]
    exact (h.queue.id_range ptr hptr).1
  · by_contra hother
    obtain ⟨he', hne⟩ := (hmem e).mp he
    exact hne ((h.own e he' hother).trans hid.symm)

/-- **The dispatch of a timeout** keeps the invariant. -/
theorem Inv.dispatch (h : Inv s) (ldb : LeapDb) (now : ℚ) (input : StartInput) :
    Returns NoId (s.dispatch ldb now input) Inv := by
  rw [State.dispatch]
  split
  next => exact h
  next ptr rest hqueue =>
      split
      next hnow =>
          have hptr : ptr ∈ s.sched.timerQueue := by
            rw [hqueue]
            exact List.mem_cons_self
          have hinv : Invariant { s.sched with
              lastClassDispatch := Function.update s.sched.lastClassDispatch ptr.cls now } :=
            ⟨h.queue.sorted, h.queue.count, h.queue.id_range, h.queue.id_nodup⟩
          obtain ⟨sched, hremove, hsched, hmem⟩ :=
            removeTimeout_succeeds hinv (.inr ⟨ptr, hptr, rfl⟩)
          rw [hremove]
          cases hhandler : ptr.handler with
          | leapStartTimeout =>
              obtain ⟨hptrid, hkind, hid, hnone⟩ :=
                h.dispatched hptr (by rw [hhandler]; decide) hmem
              rw [hhandler, State.expected] at hkind
              have hprogress : s.leapInProgress = false := by
                cases hcase : s.leapInProgress with
                | false => rfl
                | true =>
                    rw [hcase] at hkind
                    cases hkind
              have hsec : s.ourLeapSec ≠ 0 := (h.armed.mp hid).resolve_right (by simp [hprogress])
              obtain ⟨hmidnight, harmed⟩ := h.midnight hsec hprogress
              have hdue := h.due hsec hprogress ptr hptr hptrid
              exact leapStartTimeout_inv (s := { s with sched, rawTime := now }) hsched hnone
                ⟨hmidnight, harmed, hdue ▸ hnow⟩ h.started ldb input
          | leapEndTimeout =>
              obtain ⟨-, -, -, hnone⟩ := h.dispatched hptr (by rw [hhandler]; decide) hmem
              refine ⟨⟨⟨hsched, ?_, .inl rfl⟩, ?_, ?_, fun hne => absurd rfl hne, h.started⟩,
                fun hne => absurd rfl hne⟩
              · exact fun e he hother => absurd (hnone e he) hother
              · exact fun e he hid => absurd hid (hsched.id_range e he).1
              · exact ⟨fun hne => absurd rfl hne,
                  fun harmed => (harmed.elim (absurd rfl) Bool.false_ne_true).elim⟩
          | other => exact h.removeOther hptr hhandler now hsched hmem
      next => exact h

/-! ### Runs -/

/-- **The condition on a step of a run**: the changes of the clock, and the times at which the
status is updated. When a leap second is found for the time of an update, the clock has not
passed the midnight yet, also not by the step that the update itself makes. -/
def State.StepOk (s : State) (ldb : LeapDb) : Op → Prop
  | .setReference input => s.normalMode → input.offsetOk →
      TimeOk input.rawNow ∧ ∀ change ∈ input.step.change,
        (s.shift input.adjustment).ChangeOk change ∧
          ((leapAt ldb input.leap input.rawNow).2.1 ≠ 0 → change.now < leapMidnight input.rawNow)
  | .updateLeapStatus leap => s.areWeSynchronised →
      TimeOk ⌊s.sched.lastSelectTsRaw⌋ ∧
        ((leapAt ldb leap ⌊s.sched.lastSelectTsRaw⌋).2.1 ≠ 0 →
          s.rawTime < leapMidnight ⌊s.sched.lastSelectTsRaw⌋)
  | .clockChange change => s.ChangeOk change
  | _ => True

instance (s : State) (ldb : LeapDb) : DecidablePred (s.StepOk ldb) := fun op =>
  match op with
  | .setReference input =>
      inferInstanceAs (Decidable (_ → _ → _ ∧ ∀ change ∈ input.step.change, _ ∧ (_ → _)))
  | .updateLeapStatus _ => inferInstanceAs (Decidable (_ → _ ∧ (_ → _)))
  | .clockChange change => inferInstanceAs (Decidable (s.ChangeOk change))
  | .setUnsynchronised | .setMode _ | .select _ _ | .dispatch _ _ | .addTimeout _
  | .removeTimeout _ => .isTrue trivial

/-- Every step of a run meets the condition. -/
def State.runOk (s : State) : List (LeapDb × Op) → Bool
  | [] => true
  | op :: ops =>
      decide (s.StepOk op.1 op.2) &&
        match s.step op.1 op.2 with
        | .ok s' => s'.runOk ops
        | .error _ => true

theorem Inv.setReference (h : Inv s) (ldb : LeapDb) {input : UpdateInput}
    (hok : s.StepOk ldb (.setReference input)) : Returns NoId (s.setReference ldb input) Inv := by
  rw [State.setReference]
  split
  next => exact h
  next hmode =>
      split
      next => exact h
      next hoffset =>
          obtain ⟨hnow, hchange⟩ := hok (not_not.mp hmode) (not_not.mp hoffset)
          have hsync : Inv
              { s with areWeSynchronised := decide (input.leap ≠ Leap.unsynchronised) } :=
            h.same ⟨rfl, rfl, rfl, rfl, rfl, rfl, rfl⟩ h.queue rfl
          have hchange' : ∀ change ∈ input.step.change, (State.shift
              { s with areWeSynchronised := decide (input.leap ≠ Leap.unsynchronised) }
              input.adjustment).ChangeOk change := fun change hmem => (hchange change hmem).1
          dsimp only
          generalize { s with
            areWeSynchronised := decide (input.leap ≠ Leap.unsynchronised) } = s₀ at hsync hchange'
          rw [invokeHandlers_adjust s₀ ldb rfl]
          have hshift : Inv (s₀.shift input.adjustment) := hsync.shift rfl
          change Returns NoId ((s₀.shift input.adjustment).applyStep ldb input.step >>= fun s =>
            s.updateLeapStatus ldb input.leap input.rawNow false) Inv
          refine Returns.bind (P := fun s₁ => Inv s₁ ∧
            ((leapAt ldb input.leap input.rawNow).2.1 ≠ 0 →
              s₁.rawTime < leapMidnight input.rawNow)) ?_ fun s₁ h₁ => ?_
          · rw [State.applyStep]
            cases hstep : input.step.change with
            | none =>
                have hraw : (input.rawNow : ℚ) < leapMidnight input.rawNow := by
                  exact_mod_cast lt_leapMidnight input.rawNow
                exact ⟨hshift, fun _ => hraw⟩
            | some change =>
                have hinvoke := hshift.invokeHandlers ldb (hchange' change hstep)
                dsimp only
                cases hresult : (s₀.shift input.adjustment).invokeHandlers ldb change with
                | error a => exact hinvoke.error hresult
                | ok s₁ =>
                    refine ⟨hinvoke.value hresult, fun hsec => ?_⟩
                    rw [invokeHandlers_rawTime hresult]
                    exact_mod_cast (hchange change hstep).2 hsec
          · exact h₁.1.updateLeapStatus ldb input.leap hnow h₁.2

/-- **Every step keeps the invariant.** -/
theorem step_inv (h : Inv s) (ldb : LeapDb) {op : Op} (hok : s.StepOk ldb op) :
    Returns NoId (s.step ldb op) Inv := by
  cases op with
  | setReference input => exact h.setReference ldb hok
  | setUnsynchronised => exact h.setUnsynchronised ldb
  | updateLeapStatus leap =>
      rw [State.step, State.refUpdateLeapStatus]
      split
      next => exact h
      next hsync =>
          obtain ⟨hnow, hraw⟩ := hok (not_not.mp hsync)
          exact h.updateLeapStatus ldb leap hnow hraw
  | setMode normal => exact h.same ⟨rfl, rfl, rfl, rfl, rfl, rfl, rfl⟩ h.queue rfl
  | clockChange change => exact h.invokeHandlers ldb hok
  | select cooked raw =>
      have hinv : Invariant { s.sched with lastSelectTs := cooked, lastSelectTsRaw := raw } :=
        ⟨h.queue.sorted, h.queue.count, h.queue.id_range, h.queue.id_nodup⟩
      exact h.same ⟨rfl, rfl, rfl, rfl, rfl, rfl, rfl⟩ hinv rfl
  | dispatch now input => exact h.dispatch ldb now input
  | addTimeout ts =>
      rw [State.step, addTimeout]
      cases hlink : link s.sched (fun ptr => decide (ts < ptr.ts)) ts .reservedTimeoutValue
          Handler.other () with
      | error a => exact link_ne_error hlink
      | ok r =>
          obtain ⟨sched, entry⟩ := r
          obtain ⟨-, -, hfresh, hentry, -⟩ := link_spec hlink
          have hmem := mem_link_iff hlink
          have hhandler : entry.handler = .other := by rw [hentry]
          have hother : ∀ e ∈ sched.timerQueue, e.id = s.leapTimeoutId →
              e ∈ s.sched.timerQueue := by
            intro e he heq
            rcases (hmem e).mp he with rfl | he
            · rcases h.live with hzero | ⟨x, hx, hid⟩
              · exact absurd (heq.trans hzero) (link_spec hlink).1
              · exact absurd (hid.trans heq.symm) (hfresh x hx)
            · exact he
          refine ⟨⟨⟨link_invariant h.queue (fun x => decide_eq_true_iff) hlink, ?_, ?_⟩, ?_,
            h.armed, h.midnight, h.started⟩, ?_⟩
          · intro e he hother
            rcases (hmem e).mp he with rfl | he
            · exact absurd hhandler hother
            · exact h.own e he hother
          · exact h.live.imp_right fun ⟨e, he, hid⟩ => ⟨e, (hmem e).mpr (.inr he), hid⟩
          · exact fun e he heq => h.kind e (hother e he heq) heq
          · exact fun hsec hprogress e he heq => h.due hsec hprogress e (hother e he heq) heq
  | removeTimeout id =>
      rw [State.step]
      split
      next hany =>
          obtain ⟨ptr, hptr, hcond⟩ := List.any_eq_true.mp hany
          obtain ⟨rfl, hhandler⟩ := of_decide_eq_true hcond
          obtain ⟨sched, hremove, hsched, hmem⟩ :=
            removeTimeout_succeeds h.queue (.inr ⟨ptr, hptr, rfl⟩)
          rw [hremove]
          exact h.removeOther hptr hhandler s.rawTime hsched hmem
      next => exact h

theorem run_inv (h : Inv s) {ops : List (LeapDb × Op)} (hok : s.runOk ops) :
    Returns NoId (run s ops) Inv := by
  induction ops generalizing s with
  | nil => exact h
  | cons op ops ih =>
      rw [State.runOk, Bool.and_eq_true, decide_eq_true_iff] at hok
      rw [run, List.foldlM_cons]
      cases hstep : s.step op.1 op.2 with
      | error a => exact (step_inv h op.1 hok.1).error hstep
      | ok s₁ =>
          rw [hstep] at hok
          exact ih ((step_inv h op.1 hok.1).value hstep) hok.2

/-- **Leap seconds over runs.** In every run that meets the condition, an armed leap second
has a pending timeout, which is set for the midnight that ends a 30 June or a 31 December
and was set before it. All leap seconds were started by such a timeout at or after its time,
and the identifier of the timeout is zero or that of an entry of the queue. The run fails
only if there is no identifier for a new timeout. -/
theorem run_leapMidnight (now : ℚ) (leapMode : LeapMode) (ops : List (LeapDb × Op))
    (hok : (initialise now leapMode).runOk ops) :
    Returns (fun a => a = .noFreeId) (run (initialise now leapMode) ops) fun s =>
      (s.ourLeapSec ≠ 0 → s.leapInProgress = false →
        (∃ e ∈ s.sched.timerQueue, e.id = s.leapTimeoutId ∧ e.handler = .leapStartTimeout ∧
          e.ts = leapStartTime s.leapMode s.ourLeapSec s.leapWhen) ∧
          AllowedMidnight s.leapWhen ∧ s.armedAt < s.leapWhen) ∧
      (∀ start ∈ s.started, AllowedMidnight start.leapWhen ∧ start.armedAt < start.leapWhen ∧
        leapStartTime s.leapMode start.leapSec start.leapWhen ≤ start.time) ∧
      (s.leapTimeoutId = 0 ∨ ∃ e ∈ s.sched.timerQueue, e.id = s.leapTimeoutId) := by
  refine (run_inv (inv_initialise now leapMode) hok).mono fun s h => ?_
  refine ⟨fun hsec hprogress => ⟨?_, h.midnight hsec hprogress⟩, fun start hstart => ?_, h.live⟩
  · obtain ⟨e, he, hid⟩ := h.live.resolve_left (h.armed.mpr (.inl hsec))
    refine ⟨e, he, hid, ?_, h.due hsec hprogress e he hid⟩
    rw [h.kind e he hid, State.expected, hprogress]
    rfl
  · obtain ⟨hmidnight, harmed, htime⟩ := h.started start hstart
    exact ⟨hmidnight, harmed, htime⟩

/-- No leap second is known from other data. -/
def noLeap : LeapDb := fun _ => (.normal, 0)

/-- A leap second is announced on 31 December 2016. -/
def announceOps : List (LeapDb × Op) :=
  [(noLeap, .select 1483228000 1483228000),
    (noLeap, .setReference ⟨.insertSecond, true, 1483228000, 1483228000, 0, 0, .none⟩)]

/-- The clock is stepped back on the same day, and the leap second is started at its end. -/
def insertOps : List (LeapDb × Op) :=
  announceOps ++
  [(noLeap, .clockChange ⟨1483228100, 0, 100, .step, 1483228000⟩),
    (noLeap, .dispatch 1483228800
      ⟨1483228800, 1483228800, 1483228800, 1483228799, true, 1483228799⟩)]

theorem run_leapMidnight_insert :
    (initialise 1483228000 .step).runOk insertOps ∧
      ∃ s, run (initialise 1483228000 .step) insertOps = .ok s ∧
        s.started = [⟨1, 1483228800, 1483228000, 1483228800⟩] ∧ AllowedMidnight 1483228800 := by
  have hok : (initialise 1483228000 .step).runOk insertOps := by decide +kernel
  obtain ⟨s, hrun, hstarted⟩ := exists_ok_of_map_toOption
    (show (run (initialise 1483228000 .step) insertOps).toOption.map (·.started) =
      some [⟨1, 1483228800, 1483228000, 1483228800⟩] by decide +kernel)
  have hall := (run_leapMidnight 1483228000 .step insertOps hok).value hrun
  exact ⟨hok, s, hrun, hstarted, (hall.2.1 _ (by rw [hstarted]; exact List.mem_singleton_self _)).1⟩

/-- The clock is stepped from three seconds before the leap second to two seconds after
midnight. -/
def stepAcrossOps : List (LeapDb × Op) :=
  announceOps ++
  [(noLeap, .select 1483228797 1483228797),
    (noLeap, .clockChange ⟨1483228797, 0, -5, .step, 1483228802⟩)]

/-- **The suppressed check.** After the step the leap second is armed for the end of
1 January, and nothing else has to happen for it to be started there. -/
theorem run_leapMidnight_stepAcross :
    ∃ s s', run (initialise 1483228000 .step) stepAcrossOps = .ok s ∧
      s.ourLeapSec = 1 ∧ s.leapInProgress = false ∧ s.leapWhen = 1483315200 ∧
      s.step noLeap (.dispatch 1483315200
        ⟨1483315200, 1483315200, 1483315200, 1483315199, true, 1483315199⟩) = .ok s' ∧
      s'.started.map (·.leapWhen) = [1483315200] ∧ ¬AllowedMidnight 1483315200 := by
  obtain ⟨s, hrun, hs⟩ := exists_ok_of_map_toOption
    (show (run (initialise 1483228000 .step) stepAcrossOps).toOption.map
        (fun s => (s.ourLeapSec, s.leapInProgress, s.leapWhen)) =
      some (1, false, 1483315200) by decide +kernel)
  obtain ⟨s', hrun', hs'⟩ := exists_ok_of_map_toOption
    (show ((run (initialise 1483228000 .step) stepAcrossOps).bind fun s =>
        s.step noLeap (.dispatch 1483315200
          ⟨1483315200, 1483315200, 1483315200, 1483315199, true, 1483315199⟩)).toOption.map
        (fun s => s.started.map (·.leapWhen)) = some [1483315200] by decide +kernel)
  rw [hrun] at hrun'
  simp only [Prod.mk.injEq] at hs
  refine ⟨s, s', hrun, hs.1, hs.2.1, hs.2.2, hrun', hs', ?_⟩
  rintro ⟨year, h⟩
  have hyear : year = 2015 ∨ year = 2016 ∨ year = 2017 := by
    rw [Civil.Date.days, Civil.Date.days, Civil.daysBeforeMonth, Civil.daysBeforeMonth,
      if_neg (by simp), if_neg (by simp), Civil.daysBeforeYear, Civil.leapDay] at h
    dsimp only at h
    split at h <;> omega
  rcases hyear with rfl | rfl | rfl
  · exact absurd h (by decide)
  · exact absurd h (by decide)
  · exact absurd h (by decide)

/-- The update which announces the leap second steps the clock by two days, and the first
timeout of the queue is dispatched one second later. -/
def stepPastOps : List (LeapDb × Op) :=
  [(noLeap, .select 1483228000 1483228000),
    (noLeap, .setReference ⟨.insertSecond, true, 1483228000, 1483228000, 0, 0,
      .stepped 1483228000 (-172800) 1483400800⟩),
    (noLeap, .dispatch 1483400801
      ⟨1483400801, 1483400801, 1483400801, 1483400800, true, 1483400800⟩)]

/-- **The time before the step.** The leap second is armed for a midnight in the past, and
it is started at once, on 2 January. -/
theorem setReference_stepPast :
    (run (initialise 1483228000 .step) stepPastOps).toOption.map (·.started) =
      some [⟨1, 1483228800, 1483400800, 1483400801⟩] := by
  decide +kernel

end Chrony.Reference
