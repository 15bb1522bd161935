import Mathlib.Data.List.Nodup
import Mathlib.Data.Nat.ModEq
import Chrony.Sched.Queue

/-!
# The Timer Queue Invariant

Whatever is added to the queue, removed from it and dispatched from it, with handlers
that add and remove timeouts themselves, and however the clock is stepped, the queue
stays sorted by expiry time, its counter is right, and its identifiers are nonzero and
distinct, also after the identifier counter wraps (`Invariant`). The history of a run
accounts for every entry ever added (`Accounted`): it is still queued, or was removed
or dispatched, exactly once.

## Main results

* `tryTqeId_isSome`: the search for an identifier ends unless all of them are used.
* `run_good`: the invariant and the account hold at the end of every run.
* `run_timer_queue`: the two spelled out.
-/

namespace Chrony.Sched

open Chrony.Lib

variable {H A : Type}

/-! ### Linking and identifiers -/

/-- Linking adds exactly the new entry. -/
theorem insertBefore_perm (p : TimerQueueEntry H A → Bool) (e : TimerQueueEntry H A)
    (q : List (TimerQueueEntry H A)) : (insertBefore p e q).Perm (e :: q) := by
  induction q with
  | nil => exact List.Perm.refl _
  | cons x q ih =>
      rw [insertBefore]
      split
      · exact List.Perm.refl _
      · exact (ih.cons x).trans (List.Perm.swap e x q)

/-- Linking before the first entry that expires later keeps the queue sorted. -/
theorem insertBefore_sorted {p : TimerQueueEntry H A → Bool} {e : TimerQueueEntry H A}
    {q : List (TimerQueueEntry H A)} (hq : q.Pairwise fun a b => a.ts ≤ b.ts)
    (hp : ∀ x, p x = true ↔ e.ts < x.ts) :
    (insertBefore p e q).Pairwise fun a b => a.ts ≤ b.ts := by
  induction q with
  | nil => exact List.pairwise_singleton _ e
  | cons x q ih =>
      obtain ⟨hx, hq⟩ := List.pairwise_cons.mp hq
      rw [insertBefore]
      split
      · next h =>
          have hex : e.ts ≤ x.ts := ((hp x).mp h).le
          refine List.pairwise_cons.mpr ⟨?_, List.pairwise_cons.mpr ⟨hx, hq⟩⟩
          intro y hy
          rcases List.mem_cons.mp hy with rfl | hy
          · exact hex
          · exact hex.trans (hx y hy)
      · next h =>
          have hxe : x.ts ≤ e.ts := not_lt.mp fun hlt => h ((hp x).mpr hlt)
          refine List.pairwise_cons.mpr ⟨?_, ih hq⟩
          intro y hy
          rcases List.mem_cons.mp ((insertBefore_perm p e q).mem_iff.mp hy) with rfl | hy
          · exact hxe
          · exact hx y hy

/-- An identifier that the search returns is nonzero, fits in 32 bits and is not used
by any entry of the queue. -/
theorem tryTqeId_spec {q : List (TimerQueueEntry H A)} {tries next id : ℕ}
    (h : tryTqeId q tries next = some id) :
    id ≠ 0 ∧ id < 2 ^ 32 ∧ ∀ e ∈ q, e.id ≠ id := by
  induction tries generalizing next with
  | zero => simp only [tryTqeId, reduceCtorEq] at h
  | succ tries ih =>
      simp only [tryTqeId] at h
      split at h
      · exact ih h
      · next hzero =>
          split at h
          · exact ih h
          · next hused =>
              obtain rfl := Option.some.inj h
              refine ⟨hzero, Nat.mod_lt _ (by norm_num), ?_⟩
              intro e he heq
              exact hused (List.any_eq_true.mpr ⟨e, he, by simp [heq]⟩)

/-- A failed search has tried only zero and used identifiers. -/
theorem tryTqeId_none {q : List (TimerQueueEntry H A)} {tries next : ℕ}
    (h : tryTqeId q tries next = none) {i : ℕ} (hi : i < tries) :
    (next + 1 + i) % 2 ^ 32 ∈ 0 :: q.map (·.id) := by
  induction tries generalizing next i with
  | zero => omega
  | succ tries ih =>
      have hnext : (next + 1) % 2 ^ 32 ∈ 0 :: q.map (·.id) ∧
          tryTqeId q tries ((next + 1) % 2 ^ 32) = none := by
        simp only [tryTqeId] at h
        split at h
        · next hzero => exact ⟨by rw [hzero]; exact List.mem_cons_self, h⟩
        · split at h
          · next hused =>
              obtain ⟨e, he, heq⟩ := List.any_eq_true.mp hused
              refine ⟨List.mem_cons_of_mem _ (List.mem_map.mpr ⟨e, he, ?_⟩), h⟩
              simpa using heq
          · simp at h
      cases i with
      | zero => exact hnext.1
      | succ i =>
          have := ih hnext.2 (i := i) (by omega)
          have heq : ((next + 1) % 2 ^ 32 + 1 + i) % 2 ^ 32 = (next + 1 + (i + 1)) % 2 ^ 32 := by
            omega
          rwa [heq] at this

/-- **An identifier is found** unless all of them are used: more attempts than there
are used identifiers and zero meet a free one before they repeat. -/
theorem tryTqeId_isSome {q : List (TimerQueueEntry H A)} {next : ℕ}
    (hlen : q.length + 2 ≤ 2 ^ 32) : (tryTqeId q (q.length + 2) next).isSome := by
  by_contra hnone
  rw [Option.not_isSome_iff_eq_none] at hnone
  have hnodup : ((List.range (q.length + 2)).map fun i => (next + 1 + i) % 2 ^ 32).Nodup := by
    refine List.Nodup.map_on ?_ List.nodup_range
    intro i hi j hj hij
    rw [List.mem_range] at hi hj
    omega
  have hsub : ((List.range (q.length + 2)).map fun i => (next + 1 + i) % 2 ^ 32) ⊆
      0 :: q.map (·.id) := by
    intro x hx
    obtain ⟨i, hi, rfl⟩ := List.mem_map.mp hx
    exact tryTqeId_none hnone (List.mem_range.mp hi)
  have hle := (List.subperm_of_subset hnodup hsub).length_le
  simp at hle

/-- What linking a new entry does: the entry has a fresh identifier and the next
allocation number, and it is all that is added. -/
theorem link_spec {s s' : State H A} {p : TimerQueueEntry H A → Bool} {ts : ℚ}
    {cls : TimeoutClass} {handler : H} {arg : A} {e : TimerQueueEntry H A}
    (h : link s p ts cls handler arg = .ok (s', e)) :
    e.id ≠ 0 ∧ e.id < 2 ^ 32 ∧ (∀ x ∈ s.timerQueue, x.id ≠ e.id) ∧
      e = ⟨s.allocated, ts, e.id, cls, handler, arg⟩ ∧
      s' = { s with
        timerQueue := insertBefore p e s.timerQueue
        nTimerQueueEntries := s.nTimerQueueEntries + 1
        nextTqeId := e.id
        allocated := s.allocated + 1 } := by
  rw [link, bind_eq_ok_iff] at h
  obtain ⟨id, hid, h⟩ := h
  rw [getNewTqeId] at hid
  split at hid
  · next id' hid' =>
      cases hid
      obtain ⟨hne, hlt, hfresh⟩ := tryTqeId_spec hid'
      cases h
      exact ⟨hne, hlt, hfresh, rfl, rfl⟩
  · cases hid

/-- Linking aborts only when all identifiers are used. -/
theorem link_ne_error {s : State H A} {p : TimerQueueEntry H A → Bool} {ts : ℚ}
    {cls : TimeoutClass} {handler : H} {arg : A} {a : Abort}
    (h : link s p ts cls handler arg = .error a) : a = .noFreeId := by
  rw [link, bind_eq_error_iff] at h
  rcases h with h | ⟨id, -, h⟩
  · rw [getNewTqeId] at h
    split at h
    · cases h
    · cases h
      rfl
  · cases h

/-- What `removeTimeout` does: nothing for a zero identifier, and otherwise it unlinks
the first entry with the identifier, which exists. -/
theorem removeTimeout_cases {s s' : State H A} {id : ℕ} (h : removeTimeout s id = .ok s') :
    (id = 0 ∧ s' = s) ∨
    ∃ l₁ e l₂, id ≠ 0 ∧ e.id = id ∧ s.timerQueue = l₁ ++ e :: l₂ ∧
      s.timerQueue.find? (·.id == id) = some e ∧
      s' = { s with
        timerQueue := l₁ ++ l₂
        nTimerQueueEntries := s.nTimerQueueEntries - 1 } := by
  rw [removeTimeout] at h
  split at h
  · next hid =>
      cases h
      exact .inl ⟨hid, rfl⟩
  · next hid =>
      split at h
      · next hany =>
          cases h
          obtain ⟨x, hx, hxid⟩ := List.any_eq_true.mp hany
          obtain ⟨e, l₁, l₂, hl₁, he, hq, herase⟩ := 
            List.exists_of_eraseP (p := fun e => e.id == id) hx hxid
          refine .inr ⟨l₁, e, l₂, hid, by simpa using he, hq, ?_, by rw [herase]⟩
          rw [List.find?_eq_some_iff_append]
          refine ⟨he, l₁, l₂, hq, ?_⟩
          intro a ha
          simpa using hl₁ a ha
      · cases h

/-! ### The invariant and the account of the entries -/

/-- **The timer queue invariant.** The queue is sorted by expiry time, counted by
`nTimerQueueEntries`, and its identifiers are nonzero, fit in 32 bits and are pairwise
distinct. -/
structure Invariant (s : State H A) : Prop where
  sorted : s.timerQueue.Pairwise fun a b => a.ts ≤ b.ts
  count : s.nTimerQueueEntries = s.timerQueue.length
  id_range : ∀ e ∈ s.timerQueue, e.id ≠ 0 ∧ e.id < 2 ^ 32
  id_nodup : (s.timerQueue.map (·.id)).Nodup

/-- What identifies an entry and what it stands for: everything but its time, which a
step of the clock shifts. -/
def TimerQueueEntry.key (e : TimerQueueEntry H A) : ℕ × ℕ × TimeoutClass × H × A :=
  (e.tqe, e.id, e.cls, e.handler, e.arg)

/-- The entries added in a history, in order. -/
def added (log : List (Event H A)) : List (TimerQueueEntry H A) :=
  log.filterMap fun
    | .added e => some e
    | _ => none

/-- The entries removed or dispatched in a history, in order. -/
def finished (log : List (Event H A)) : List (TimerQueueEntry H A) :=
  log.filterMap fun
    | .added _ => none
    | .removed e => some e
    | .dispatched e => some e

/-- A history accounts for the entries of a state: they were added in the order of
their allocation, and together with the finished ones they are all that was added. -/
structure Accounted (s : State H A) (log : List (Event H A)) : Prop where
  order : (added log).map (·.tqe) = List.range s.allocated
  conserved : ((s.timerQueue ++ finished log).map (·.key)).Perm ((added log).map (·.key))

/-- The invariant of a state together with its account. -/
structure Good (st : State H A × List (Event H A)) : Prop where
  invariant : Invariant st.1
  accounted : Accounted st.1 st.2

@[simp] theorem added_append (l₁ l₂ : List (Event H A)) :
    added (l₁ ++ l₂) = added l₁ ++ added l₂ := List.filterMap_append

@[simp] theorem finished_append (l₁ l₂ : List (Event H A)) :
    finished (l₁ ++ l₂) = finished l₁ ++ finished l₂ := List.filterMap_append

@[simp] theorem added_added (e : TimerQueueEntry H A) : added [Event.added e] = [e] := rfl

@[simp] theorem added_removed (e : TimerQueueEntry H A) : added [Event.removed e] = [] := rfl

@[simp] theorem added_dispatched (e : TimerQueueEntry H A) :
    added [Event.dispatched e] = [] := rfl

@[simp] theorem finished_added (e : TimerQueueEntry H A) : finished [Event.added e] = [] := rfl

@[simp] theorem finished_removed (e : TimerQueueEntry H A) :
    finished [Event.removed e] = [e] := rfl

@[simp] theorem finished_dispatched (e : TimerQueueEntry H A) :
    finished [Event.dispatched e] = [e] := rfl

/-- The initialised scheduler has an empty queue and an empty history. -/
theorem initialise_good (now : ℚ) : Good (initialise now, ([] : List (Event H A))) where
  invariant := ⟨List.Pairwise.nil, rfl, by simp [initialise], List.nodup_nil⟩
  accounted := ⟨rfl, List.Perm.refl _⟩

/-- Linking a new entry before the first one that expires later keeps the invariant. -/
theorem link_invariant {s s' : State H A} {p : TimerQueueEntry H A → Bool} {ts : ℚ}
    {cls : TimeoutClass} {handler : H} {arg : A} {e : TimerQueueEntry H A} (hs : Invariant s)
    (hp : ∀ x, p x = true ↔ ts < x.ts) (h : link s p ts cls handler arg = .ok (s', e)) :
    Invariant s' := by
  obtain ⟨hne, hlt, hfresh, he, rfl⟩ := link_spec h
  have hts : e.ts = ts := by rw [he]
  have hperm := insertBefore_perm p e s.timerQueue
  refine ⟨insertBefore_sorted hs.sorted (by rwa [hts]), ?_, ?_, ?_⟩
  · simp [hperm.length_eq, hs.count]
  · intro x hx
    rcases List.mem_cons.mp (hperm.mem_iff.mp hx) with rfl | hx
    · exact ⟨hne, hlt⟩
    · exact hs.id_range x hx
  · refine (hperm.map (·.id)).nodup_iff.mpr (List.nodup_cons.mpr ⟨?_, hs.id_nodup⟩)
    intro hmem
    obtain ⟨x, hx, hxid⟩ := List.mem_map.mp hmem
    exact hfresh x hx hxid

/-- Linking a new entry is accounted for by an addition. -/
theorem link_accounted {s s' : State H A} {log : List (Event H A)}
    {p : TimerQueueEntry H A → Bool} {ts : ℚ} {cls : TimeoutClass} {handler : H} {arg : A}
    {e : TimerQueueEntry H A} (hs : Accounted s log)
    (h : link s p ts cls handler arg = .ok (s', e)) : Accounted s' (log ++ [.added e]) := by
  obtain ⟨-, -, -, he, rfl⟩ := link_spec h
  have htqe : e.tqe = s.allocated := by rw [he]
  refine ⟨?_, ?_⟩
  · simp [hs.order, htqe, List.range_succ]
  · have hperm := insertBefore_perm p e s.timerQueue
    simp only [added_append, added_added, finished_append, finished_added, List.append_nil]
    have h₁ : ((insertBefore p e s.timerQueue ++ finished log).map (·.key)).Perm
        (e.key :: (s.timerQueue ++ finished log).map (·.key)) :=
      (hperm.append_right (finished log)).map (·.key)
    have h₂ : ((added log ++ [e]).map (·.key)).Perm (e.key :: (added log).map (·.key)) := by
      rw [List.map_append]
      exact List.perm_append_singleton e.key ((added log).map (·.key))
    exact (h₁.trans (hs.conserved.cons e.key)).trans h₂.symm

/-- Unlinking one entry keeps the invariant. -/
theorem unlink_invariant {s : State H A} {l₁ l₂ : List (TimerQueueEntry H A)}
    {e : TimerQueueEntry H A} (hs : Invariant s) (hq : s.timerQueue = l₁ ++ e :: l₂) :
    Invariant { s with
      timerQueue := l₁ ++ l₂
      nTimerQueueEntries := s.nTimerQueueEntries - 1 } := by
  have hsub : (l₁ ++ l₂).Sublist s.timerQueue := by
    rw [hq]
    exact (List.sublist_cons_self e l₂).append_left l₁
  refine ⟨hs.sorted.sublist hsub, ?_, ?_, hs.id_nodup.sublist (hsub.map (·.id))⟩
  · simp [hs.count, hq]
  · intro x hx
    exact hs.id_range x (hsub.subset hx)

/-- An unlinked entry is accounted for by an event that finishes it. -/
theorem unlink_accounted {s : State H A} {log evs : List (Event H A)}
    {l₁ l₂ : List (TimerQueueEntry H A)} {e : TimerQueueEntry H A} {n : ℕ}
    (hs : Accounted s log) (hq : s.timerQueue = l₁ ++ e :: l₂) (hadd : added evs = [])
    (hfin : finished evs = [e]) :
    Accounted { s with timerQueue := l₁ ++ l₂, nTimerQueueEntries := n } (log ++ evs) := by
  refine ⟨by simp [hadd, hs.order], ?_⟩
  have h₁ : (l₁ ++ l₂ ++ (finished log ++ [e])).Perm (s.timerQueue ++ finished log) := by
    rw [hq, ← List.append_assoc]
    refine (List.perm_append_singleton e _).trans ?_
    exact (List.perm_middle.symm).append_right (finished log)
  simpa [hadd, hfin] using (h₁.map (·.key)).trans hs.conserved

/-- `removeTimeout` keeps the invariant and is accounted for by its event. -/
theorem removeTimeout_good {s s' : State H A} {log : List (Event H A)} {id : ℕ}
    (hs : Good (s, log)) (h : removeTimeout s id = .ok s') :
    Good (s', log ++ removedEvents s id) := by
  rcases removeTimeout_cases h with ⟨rfl, rfl⟩ | ⟨l₁, e, l₂, hid, -, hq, hfind, rfl⟩
  · simpa [removedEvents] using hs
  · have hevs : removedEvents s id = [.removed e] := by
      simp [removedEvents, hid, hfind]
    rw [hevs]
    exact ⟨unlink_invariant hs.invariant hq, unlink_accounted hs.accounted hq rfl rfl⟩

/-- A slew or a step of the clock keeps the invariant: all entries are shifted by the same
time. -/
theorem handleSlew_invariant {s : State H A} (hs : Invariant s) (cooked dfreq doffset : ℚ)
    (changeType : ChangeType) : Invariant (handleSlew s cooked dfreq doffset changeType) := by
  rw [handleSlew]
  split
  · refine ⟨?_, ?_, ?_, ?_⟩
    · refine List.pairwise_map.mpr (hs.sorted.imp ?_)
      intro a b hab
      exact sub_le_sub_right hab doffset
    · rw [List.length_map]
      exact hs.count
    · intro e he
      obtain ⟨x, hx, rfl⟩ := List.mem_map.mp he
      exact hs.id_range x hx
    · simpa [List.map_map, Function.comp_def] using hs.id_nodup
  · exact ⟨hs.sorted, hs.count, hs.id_range, hs.id_nodup⟩

/-- It needs no event in the account. -/
theorem handleSlew_good {s : State H A} {log : List (Event H A)} (hs : Good (s, log))
    (cooked dfreq doffset : ℚ) (changeType : ChangeType) :
    Good (handleSlew s cooked dfreq doffset changeType, log) := by
  refine ⟨handleSlew_invariant hs.invariant cooked dfreq doffset changeType, ?_⟩
  obtain ⟨-, hacc⟩ := hs
  rw [handleSlew]
  split
  · refine ⟨hacc.order, ?_⟩
    simpa [List.map_map, Function.comp_def, TimerQueueEntry.key] using hacc.conserved
  · exact ⟨hacc.order, hacc.conserved⟩

/-- Linking adds the new entry only. -/
theorem mem_link_iff {s s' : State H A} {p : TimerQueueEntry H A → Bool} {ts : ℚ}
    {cls : TimeoutClass} {handler : H} {arg : A} {e : TimerQueueEntry H A}
    (h : link s p ts cls handler arg = .ok (s', e)) (x : TimerQueueEntry H A) :
    x ∈ s'.timerQueue ↔ x = e ∨ x ∈ s.timerQueue := by
  obtain ⟨-, -, -, -, rfl⟩ := link_spec h
  exact (insertBefore_perm p e s.timerQueue).mem_iff.trans List.mem_cons

/-- Entries with one identifier are the same entry. -/
theorem Invariant.eq_of_id_eq {s : State H A} (hs : Invariant s) {x y : TimerQueueEntry H A}
    (hx : x ∈ s.timerQueue) (hy : y ∈ s.timerQueue) (h : x.id = y.id) : x = y :=
  List.inj_on_of_nodup_map hs.id_nodup hx hy h

/-- **An entry of the queue can be removed**, and nothing else is removed with it. Zero
stands for no entry. -/
theorem removeTimeout_succeeds {s : State H A} (hs : Invariant s) {id : ℕ}
    (hid : id = 0 ∨ ∃ e ∈ s.timerQueue, e.id = id) :
    ∃ s', removeTimeout s id = .ok s' ∧ Invariant s' ∧
      ∀ x, x ∈ s'.timerQueue ↔ x ∈ s.timerQueue ∧ x.id ≠ id := by
  obtain ⟨s', h⟩ : ∃ s', removeTimeout s id = .ok s' := by
    rw [removeTimeout]
    split
    · exact ⟨_, rfl⟩
    · next hne =>
        obtain ⟨e, he, rfl⟩ := hid.resolve_left hne
        have hany : s.timerQueue.any (·.id == e.id) = true :=
          List.any_eq_true.mpr ⟨e, he, beq_self_eq_true e.id⟩
        rw [if_pos hany]
        exact ⟨_, rfl⟩
  refine ⟨s', h, ?_⟩
  rcases removeTimeout_cases h with ⟨rfl, rfl⟩ | ⟨l₁, e, l₂, -, rfl, hq, -, rfl⟩
  · exact ⟨hs, fun x => ⟨fun hx => ⟨hx, (hs.id_range x hx).1⟩, And.left⟩⟩
  · refine ⟨unlink_invariant hs hq, fun x => ?_⟩
    have hnodup := hs.id_nodup
    rw [hq, List.map_append, List.map_cons, List.nodup_middle, ← List.map_append,
      List.nodup_cons] at hnodup
    rw [hq, List.mem_append, List.mem_append, List.mem_cons]
    constructor
    · intro hx
      refine ⟨hx.imp_right .inr, fun heq => hnodup.1 ?_⟩
      exact heq ▸ List.mem_map_of_mem (List.mem_append.mpr hx)
    · rintro ⟨hx | rfl | hx, hne⟩
      · exact .inl hx
      · exact absurd rfl hne
      · exact .inr hx

/-! ### The operations and the dispatching loop -/

theorem link_good {s s' : State H A} {log : List (Event H A)}
    {p : TimerQueueEntry H A → Bool} {ts : ℚ} {cls : TimeoutClass} {handler : H} {arg : A}
    {e : TimerQueueEntry H A} (hs : Good (s, log)) (hp : ∀ x, p x = true ↔ ts < x.ts)
    (h : link s p ts cls handler arg = .ok (s', e)) : Good (s', log ++ [.added e]) :=
  ⟨link_invariant hs.invariant hp h, link_accounted hs.accounted h⟩

/-- `addTimeout` keeps the invariant and is accounted for. -/
theorem addTimeout_good {s s' : State H A} {log : List (Event H A)} {ts : ℚ} {handler : H}
    {arg : A} {e : TimerQueueEntry H A} (hs : Good (s, log))
    (h : addTimeout s ts handler arg = .ok (s', e)) : Good (s', log ++ [.added e]) :=
  link_good hs (fun x => by simp) h

/-- `addTimeoutByDelay` keeps the invariant and is accounted for. -/
theorem addTimeoutByDelay_good {s s' : State H A} {log : List (Event H A)} {now delay : ℚ}
    {handler : H} {arg : A} {e : TimerQueueEntry H A} (hs : Good (s, log))
    (h : addTimeoutByDelay s now delay handler arg = .ok (s', e)) :
    Good (s', log ++ [.added e]) := by
  rw [addTimeoutByDelay] at h
  split at h
  · cases h
  · split at h
    · cases h
    · exact addTimeout_good hs h

/-- `addTimeoutInClass` keeps the invariant and is accounted for: the delays it compares
are the expiry times relative to `now`. -/
theorem addTimeoutInClass_good {s s' : State H A} {log : List (Event H A)} {now : ℚ}
    {rnd : ℕ} {minDelay separation randomness : ℚ} {cls : TimeoutClass} {handler : H}
    {arg : A} {e : TimerQueueEntry H A} (hs : Good (s, log))
    (h : addTimeoutInClass s now rnd minDelay separation randomness cls handler arg
      = .ok (s', e)) : Good (s', log ++ [.added e]) := by
  rw [addTimeoutInClass] at h
  split at h
  · cases h
  · refine link_good hs (fun x => ?_) h
    simp only [gt_iff_lt, decide_eq_true_eq]
    constructor
    · intro hlt
      linarith
    · intro hlt
      linarith

/-- **Every operation** keeps the invariant and is accounted for. -/
theorem stepOp_good {st st' : State H A × List (Event H A)} {op : Op H A} (hs : Good st)
    (h : stepOp st op = .ok st') : Good st' := by
  obtain ⟨s, log⟩ := st
  cases op with
  | addTimeout ts handler arg =>
      obtain ⟨⟨s', e⟩, hadd, h⟩ := bind_eq_ok_iff.mp h
      cases h
      exact addTimeout_good hs hadd
  | addTimeoutByDelay now delay handler arg =>
      obtain ⟨⟨s', e⟩, hadd, h⟩ := bind_eq_ok_iff.mp h
      cases h
      exact addTimeoutByDelay_good hs hadd
  | addTimeoutInClass now rnd minDelay separation randomness cls handler arg =>
      obtain ⟨⟨s', e⟩, hadd, h⟩ := bind_eq_ok_iff.mp h
      cases h
      exact addTimeoutInClass_good hs hadd
  | removeTimeout id =>
      obtain ⟨s', hrem, h⟩ := bind_eq_ok_iff.mp h
      cases h
      exact removeTimeout_good hs hrem
  | handleSlew cooked dfreq doffset changeType =>
      cases h
      exact handleSlew_good hs cooked dfreq doffset changeType

/-- Taking the first entry off the queue to dispatch it keeps the invariant and is
accounted for: no entry before it has its identifier. -/
theorem dispatch_good {s s' : State H A} {log : List (Event H A)}
    {ptr : TimerQueueEntry H A} {q : List (TimerQueueEntry H A)}
    (hs : Good (s, log)) (hq : s.timerQueue = ptr :: q)
    (h : removeTimeout s ptr.id = .ok s') : Good (s', log ++ [.dispatched ptr]) := by
  have hid := (hs.invariant.id_range ptr (by simp [hq])).1
  rcases removeTimeout_cases h with ⟨hzero, -⟩ | ⟨l₁, e, l₂, -, -, hsplit, hfind, rfl⟩
  · exact absurd hzero hid
  · have hfirst : s.timerQueue.find? (·.id == ptr.id) = some ptr := by simp [hq]
    obtain rfl : e = ptr := Option.some.inj (hfind.symm.trans hfirst)
    exact ⟨unlink_invariant hs.invariant hsplit, unlink_accounted hs.accounted hsplit rfl rfl⟩

/-- **The dispatching loop** keeps the invariant and is accounted for, whatever the
handlers do. -/
theorem dispatchLoop_good {turns : List (Turn H A)} {n nDone : ℕ}
    {st st' : State H A × List (Event H A)} (hs : Good st)
    (h : dispatchLoop n nDone st turns = .ok st') : Good st' := by
  induction turns generalizing nDone st with
  | nil =>
      simp only [dispatchLoop] at h
      cases h
      exact hs
  | cons turn turns ih =>
      obtain ⟨s, log⟩ := st
      simp only [dispatchLoop] at h
      split at h
      · split at h
        · cases h
        · next ptr q hq =>
            split at h
            · simp only [bind_eq_ok_iff] at h
              obtain ⟨s₂, hrem, ⟨s₃, log₃⟩, hops, h⟩ := h
              have hs₁ : Good ({ s with
                  lastClassDispatch :=
                    Function.update s.lastClassDispatch ptr.cls turn.now }, log) :=
                ⟨⟨hs.invariant.sorted, hs.invariant.count, hs.invariant.id_range,
                  hs.invariant.id_nodup⟩, ⟨hs.accounted.order, hs.accounted.conserved⟩⟩
              have hs₃ : Good (s₃, log₃) :=
                foldlM_invariant (fun _ _ _ => stepOp_good) (dispatch_good hs₁ hq hrem) hops
              split at h
              · cases h
              · split at h
                · cases h
                  exact hs₃
                · exact ih hs₃ h
            · cases h
              exact hs
      · cases h
        exact hs

/-- Every call keeps the invariant and is accounted for. -/
theorem call_good {st st' : State H A × List (Event H A)} {c : Call H A} (hs : Good st)
    (h : call st c = .ok st') : Good st' := by
  cases c with
  | op op => exact stepOp_good hs h
  | dispatchTimeouts turns => exact dispatchLoop_good hs h

/-- **Every run** keeps the invariant and accounts for all entries. -/
theorem run_good {now : ℚ} {calls : List (Call H A)} {st : State H A × List (Event H A)}
    (h : run now calls = .ok st) : Good st :=
  foldlM_invariant (fun _ _ _ => call_good) (initialise_good now) h

/-- **The timer queue, over every run**: it is sorted by expiry time, counted, and its
identifiers are nonzero and distinct; the entries that were added are those still in the
queue and those removed or dispatched, each exactly once. -/
theorem run_timer_queue {now : ℚ} {calls : List (Call H A)} {s : State H A}
    {log : List (Event H A)} (h : run now calls = .ok (s, log)) :
    s.timerQueue.Pairwise (fun a b => a.ts ≤ b.ts) ∧
      s.nTimerQueueEntries = s.timerQueue.length ∧
      (∀ e ∈ s.timerQueue, e.id ≠ 0 ∧ e.id < 2 ^ 32) ∧
      (s.timerQueue.map (·.id)).Nodup ∧
      ((s.timerQueue ++ finished log).map (·.tqe)).Nodup ∧
      ((s.timerQueue ++ finished log).map (·.key)).Perm ((added log).map (·.key)) := by
  obtain ⟨hinv, hacc⟩ := run_good h
  refine ⟨hinv.sorted, hinv.count, hinv.id_range, hinv.id_nodup, ?_, hacc.conserved⟩
  have htqe : ((s.timerQueue ++ finished log).map (·.tqe)).Perm ((added log).map (·.tqe)) := by
    have := hacc.conserved.map Prod.fst
    simpa [List.map_map, Function.comp_def, TimerQueueEntry.key] using this
  rw [htqe.nodup_iff, hacc.order]
  exact List.nodup_range

/-- A run in which a handler adds a timeout while it is dispatched, the clock is
stepped, and a queued timeout is removed. -/
def exampleCalls : List (Call Bool Unit) :=
  [.op (.addTimeout 3 true ()), .op (.addTimeoutByDelay 0 1 false ()),
    .dispatchTimeouts [⟨2, [.addTimeoutInClass 2 0 1 (1 / 2) 0 .ntpClientClass false ()],
      false⟩],
    .op (.handleSlew 2 0 5 .step), .op (.removeTimeout 1)]

/-- `run_timer_queue` at `exampleCalls`: the second timeout is dispatched, the first one
removed, and the one that the handler added stays. -/
theorem run_timer_queue_exampleCalls :
    ∃ (s : State Bool Unit) (log : List (Event Bool Unit)),
      run 0 exampleCalls = .ok (s, log) ∧
      s.timerQueue.map (·.tqe) = [2] ∧ (finished log).map (·.tqe) = [1, 0] ∧
      ((s.timerQueue ++ finished log).map (·.tqe)).Nodup := by
  have heval : (run 0 exampleCalls).toOption.map
      (fun st => (st.1.timerQueue.map (·.tqe), (finished st.2).map (·.tqe)))
        = some ([2], [1, 0]) := by decide +kernel
  obtain ⟨st, hrun, hst⟩ := exists_ok_of_map_toOption heval
  obtain ⟨hqueue, hfinished⟩ := Prod.mk.inj hst
  exact ⟨st.1, st.2, hrun, hqueue, hfinished, (run_timer_queue hrun).2.2.2.2.1⟩

end Chrony.Sched
