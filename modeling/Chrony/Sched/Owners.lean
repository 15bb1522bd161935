import Chrony.Sched.Invariant

/-!
# Owners of Timeouts

A part of the program stores the identifiers of its timeouts, to be able to remove them. Each of
its timers has a name, which can be told from the handler and argument of a timeout, and the
timeouts of the queue with a name are those whose identifiers are stored under it (`Owners`).

## Main results

* `Owners.remove`, `Owners.add`: a stored timeout can be removed, and a new one is stored.
* `Owners.remove_other`, `Owners.add_other`: other timeouts have no effect.
-/

namespace Chrony.Sched

open Lib

variable {H A κ : Type}

/-- **The timeouts which have an owner are the stored ones.** A stored zero means that the timer
does not run. -/
structure Owners (owner : H → A → Option κ) (q : State H A) (ids : κ → ℕ) : Prop where
  invariant : Invariant q
  owned_iff : ∀ id k, (∃ e ∈ q.timerQueue, owner e.handler e.arg = some k ∧ e.id = id) ↔
    id ≠ 0 ∧ ids k = id

namespace Owners

variable {owner : H → A → Option κ} {q q' : State H A} {ids : κ → ℕ} {k : κ}

/-- A running timer has its timeout in the queue. -/
theorem exists_mem (h : Owners owner q ids) (hk : ids k ≠ 0) :
    ∃ e ∈ q.timerQueue, owner e.handler e.arg = some k ∧ e.id = ids k :=
  (h.owned_iff (ids k) k).mpr ⟨hk, rfl⟩

/-- A timeout in the queue is the stored one. -/
theorem id_eq (h : Owners owner q ids) {e : TimerQueueEntry H A} (he : e ∈ q.timerQueue)
    (hk : owner e.handler e.arg = some k) : e.id ≠ 0 ∧ ids k = e.id :=
  (h.owned_iff e.id k).mp ⟨e, he, hk, rfl⟩

/-- The identifiers of running timers are different. -/
theorem eq_of_ids_eq (h : Owners owner q ids) {k' : κ} (hk : ids k ≠ 0) (heq : ids k = ids k') :
    k = k' := by
  obtain ⟨e, he, howner, hid⟩ := h.exists_mem hk
  obtain ⟨e', he', howner', hid'⟩ := h.exists_mem (heq ▸ hk)
  obtain rfl := h.invariant.eq_of_id_eq he he' (hid.trans (heq.trans hid'.symm))
  exact Option.some.inj (howner.symm.trans howner')

/-- The last dispatch of a class of timeouts does not matter. -/
theorem setLastClassDispatch (h : Owners owner q ids) (last : TimeoutClass → ℚ) :
    Owners owner { q with lastClassDispatch := last } ids :=
  ⟨⟨h.invariant.sorted, h.invariant.count, h.invariant.id_range, h.invariant.id_nodup⟩,
    h.owned_iff⟩

/-- The expiry times do not matter. -/
theorem handleSlew (h : Owners owner q ids) (cooked dfreq doffset : ℚ) (changeType : ChangeType) :
    Owners owner (Sched.handleSlew q cooked dfreq doffset changeType) ids := by
  refine ⟨handleSlew_invariant h.invariant cooked dfreq doffset changeType, fun id k => ?_⟩
  rw [← h.owned_iff id k, Sched.handleSlew]
  split
  · constructor
    · rintro ⟨x, hx, hk, rfl⟩
      obtain ⟨y, hy, rfl⟩ := List.mem_map.mp hx
      exact ⟨y, hy, hk, rfl⟩
    · rintro ⟨y, hy, hk, rfl⟩
      exact ⟨_, List.mem_map_of_mem hy, hk, rfl⟩
  · exact Iff.rfl

/-- A timeout of another part of the program is added. -/
theorem add_other (h : Owners owner q ids) {p : TimerQueueEntry H A → Bool} {ts : ℚ}
    {cls : TimeoutClass} {handler : H} {arg : A} {e : TimerQueueEntry H A}
    (hp : ∀ x, p x = true ↔ ts < x.ts) (hother : owner handler arg = none)
    (hlink : link q p ts cls handler arg = .ok (q', e)) : Owners owner q' ids := by
  obtain ⟨-, -, -, he, -⟩ := link_spec hlink
  refine ⟨link_invariant h.invariant hp hlink, fun id k => ?_⟩
  have howner : owner e.handler e.arg ≠ some k := by
    rw [he]
    exact fun heq => Option.some_ne_none k (heq.symm.trans hother)
  simp only [mem_link_iff hlink, or_and_right, exists_or, exists_eq_left, h.owned_iff, howner,
    false_and, false_or]

/-- `SCH_AddTimeout`, for another part of the program. -/
theorem addTimeout_other (h : Owners owner q ids) (ts : ℚ) {handler : H} {arg : A}
    (hother : owner handler arg = none) :
    Returns (· = .noFreeId) (Sched.addTimeout q ts handler arg) fun r => Owners owner r.1 ids := by
  cases hlink : Sched.addTimeout q ts handler arg with
  | error e => exact link_ne_error hlink
  | ok r => exact h.add_other (fun _ => decide_eq_true_iff) hother hlink

/-- A timeout of another part of the program is removed. -/
theorem remove_other (h : Owners owner q ids) {e : TimerQueueEntry H A} (he : e ∈ q.timerQueue)
    (hother : owner e.handler e.arg = none) :
    ∃ q', removeTimeout q e.id = .ok q' ∧ Owners owner q' ids := by
  obtain ⟨q', hq', hinv, hmem⟩ := removeTimeout_succeeds h.invariant (.inr ⟨e, he, rfl⟩)
  refine ⟨q', hq', hinv, fun id k => ?_⟩
  rw [← h.owned_iff id k]
  constructor
  · rintro ⟨x, hx, hk, rfl⟩
    exact ⟨x, ((hmem x).mp hx).1, hk, rfl⟩
  · rintro ⟨x, hx, hk, rfl⟩
    refine ⟨x, (hmem x).mpr ⟨hx, fun hid => ?_⟩, hk, rfl⟩
    rw [h.invariant.eq_of_id_eq hx he hid, hother] at hk
    cases hk

variable [DecidableEq κ]

/-- **A stored timeout can be removed.** -/
theorem remove (h : Owners owner q ids) (k : κ) :
    ∃ q', removeTimeout q (ids k) = .ok q' ∧ Owners owner q' (Function.update ids k 0) := by
  have hstored : ids k = 0 ∨ ∃ e ∈ q.timerQueue, e.id = ids k := by
    refine (eq_or_ne (ids k) 0).imp_right fun hne => ?_
    obtain ⟨e, he, -, hid⟩ := h.exists_mem hne
    exact ⟨e, he, hid⟩
  obtain ⟨q', hq', hinv, hmem⟩ := removeTimeout_succeeds h.invariant hstored
  refine ⟨q', hq', hinv, fun id k' => ?_⟩
  have howned : (∃ e ∈ q'.timerQueue, owner e.handler e.arg = some k' ∧ e.id = id) ↔
      (id ≠ 0 ∧ ids k' = id) ∧ id ≠ ids k := by
    rw [← h.owned_iff id k']
    constructor
    · rintro ⟨e, he, hk', rfl⟩
      obtain ⟨he, hne⟩ := (hmem e).mp he
      exact ⟨⟨e, he, hk', rfl⟩, hne⟩
    · rintro ⟨⟨e, he, hk', rfl⟩, hne⟩
      exact ⟨e, (hmem e).mpr ⟨he, hne⟩, hk', rfl⟩
  rw [howned]
  by_cases hk : k' = k
  · subst hk
    rw [Function.update_self]
    constructor
    · rintro ⟨⟨-, rfl⟩, hne⟩
      exact absurd rfl hne
    · rintro ⟨hne, rfl⟩
      exact absurd rfl hne
  · rw [Function.update_of_ne hk]
    refine ⟨And.left, fun hid => ⟨hid, ?_⟩⟩
    rintro rfl
    exact hk (h.eq_of_ids_eq (hid.2 ▸ hid.1) hid.2)

/-- **A new timeout is stored**, when its timer does not run yet. -/
theorem add (h : Owners owner q ids) (hk : ids k = 0) {p : TimerQueueEntry H A → Bool} {ts : ℚ}
    {cls : TimeoutClass} {handler : H} {arg : A} {e : TimerQueueEntry H A}
    (hp : ∀ x, p x = true ↔ ts < x.ts) (howner : owner handler arg = some k)
    (hlink : link q p ts cls handler arg = .ok (q', e)) :
    e.id ≠ 0 ∧ Owners owner q' (Function.update ids k e.id) := by
  obtain ⟨hne, -, -, he, -⟩ := link_spec hlink
  refine ⟨hne, link_invariant h.invariant hp hlink, fun id k' => ?_⟩
  have hnew : owner e.handler e.arg = some k := by
    rw [he]
    exact howner
  simp only [mem_link_iff hlink, or_and_right, exists_or, exists_eq_left, h.owned_iff, hnew,
    Option.some.injEq]
  by_cases hk' : k' = k
  · subst hk'
    rw [Function.update_self, hk]
    constructor
    · rintro (⟨-, rfl⟩ | ⟨hne, rfl⟩)
      · exact ⟨hne, rfl⟩
      · exact absurd rfl hne
    · rintro ⟨-, rfl⟩
      exact .inl ⟨rfl, rfl⟩
  · rw [Function.update_of_ne hk']
    exact ⟨fun hor => hor.resolve_left fun heq => hk' heq.1.symm, .inr⟩

/-- `SCH_AddTimeout`, for a timer which does not run. -/
theorem addTimeout (h : Owners owner q ids) (hk : ids k = 0) (ts : ℚ) {handler : H} {arg : A}
    (howner : owner handler arg = some k) :
    Returns (· = .noFreeId) (Sched.addTimeout q ts handler arg) fun r =>
      r.2.id ≠ 0 ∧ Owners owner r.1 (Function.update ids k r.2.id) := by
  cases hlink : Sched.addTimeout q ts handler arg with
  | error e => exact link_ne_error hlink
  | ok r => exact h.add hk (fun _ => decide_eq_true_iff) howner hlink

/-- `SCH_AddTimeoutByDelay`, for a timer which does not run. -/
theorem addTimeoutByDelay (h : Owners owner q ids) (hk : ids k = 0) (now : ℚ) {delay : ℚ}
    (hdelay : 0 ≤ delay) {handler : H} {arg : A} (howner : owner handler arg = some k) :
    Returns (· = .noFreeId) (Sched.addTimeoutByDelay q now delay handler arg) fun r =>
      r.2.id ≠ 0 ∧ Owners owner r.1 (Function.update ids k r.2.id) := by
  rw [Sched.addTimeoutByDelay, if_neg hdelay.not_gt, if_neg (le_add_of_nonneg_right hdelay).not_gt]
  exact h.addTimeout hk (now + delay) howner

end Owners

end Chrony.Sched
