import Chrony.Lib.Spacing
import Chrony.Sched.Invariant

/-!
# Timeouts in Classes

`SCH_AddTimeoutInClass` keeps the timeouts of a class at a distance from each other. The new
entry gets the first time at which it is not too close to any entry of its class in the queue,
or to the last one that was dispatched.

## Main results

* `addTimeoutInClass_spacing`: the delay of a new entry, and the queue with it.
-/

namespace Chrony.Sched

open Lib

variable {H A : Type}

/-- **The delays which keep the separation**: not less than the minimum and what the last
dispatched timeout of the class allows, and far enough from all queued entries of the class. -/
structure DelayOk (s : State H A) (now minDelay separation : ℚ) (cls : TimeoutClass)
    (delay : ℚ) : Prop where
  min : minDelay ≤ delay
  last : 0 ≤ now - s.lastClassDispatch cls → separation ≤ now + delay - s.lastClassDispatch cls
  queued : ∀ e ∈ s.timerQueue, e.cls = cls → separation ≤ |now + delay - e.ts|

/-- The entries of other classes are passed by. -/
theorem foldl_separateFrom (now separation : ℚ) (cls : TimeoutClass)
    (q : List (TimerQueueEntry H A)) (newMinDelay : ℚ) :
    q.foldl (separateFrom now separation cls) newMinDelay =
      ((q.filter (·.cls = cls)).map (·.ts - now)).foldl (pushPast separation) newMinDelay := by
  induction q generalizing newMinDelay with
  | nil => rfl
  | cons e q ih =>
      rw [List.foldl_cons, ih]
      by_cases hcls : e.cls = cls
      · rw [List.filter_cons_of_pos (by simpa using hcls), List.map_cons, List.foldl_cons]
        congr 1
        rw [separateFrom, if_pos hcls, pushPast]
        dsimp only
        split
        next hgt => rw [abs_of_pos (sub_pos.mpr hgt)]
        next hle => rw [abs_of_nonpos (sub_nonpos.mpr (not_lt.mp hle)), neg_sub]
      · rw [List.filter_cons_of_neg (by simpa using hcls), separateFrom, if_neg hcls]

/-- The factor does not make delays shorter. -/
theorem one_le_stretch (randomness : ℚ) (rnd : ℕ) : 1 ≤ stretch randomness rnd := by
  rw [stretch]
  split
  next hpos =>
      have hfactor : 0 ≤ (rnd : ℚ) * (randomness / (2 ^ 32 - 1)) :=
        mul_nonneg rnd.cast_nonneg (div_nonneg hpos.le (by norm_num))
      linarith
  next => exact le_rfl

/-- The delay before the queue is searched. -/
def delayAfterLast (s : State H A) (now minDelay separation : ℚ) (cls : TimeoutClass) : ℚ :=
  let diff := now - s.lastClassDispatch cls
  if diff < separation ∧ diff ≥ 0 ∧ diff + minDelay < separation then separation - diff
  else minDelay

/-- It is the least one that the last dispatched timeout of the class allows. -/
theorem delayAfterLast_le_iff (s : State H A) (now : ℚ) {minDelay : ℚ} (hmin : 0 ≤ minDelay)
    (separation : ℚ) (cls : TimeoutClass) (delay : ℚ) :
    delayAfterLast s now minDelay separation cls ≤ delay ↔
      minDelay ≤ delay ∧ (0 ≤ now - s.lastClassDispatch cls →
        separation ≤ now + delay - s.lastClassDispatch cls) := by
  rw [delayAfterLast]
  split
  next h =>
      obtain ⟨hlt, hge, hmore⟩ := h
      constructor
      · intro hle
        exact ⟨by linarith, fun _ => by linarith⟩
      · rintro ⟨-, hlast⟩
        linarith [hlast hge]
  next h =>
      constructor
      · intro hle
        refine ⟨hle, fun hge => ?_⟩
        by_contra hlt
        exact h ⟨by linarith, hge, by linarith⟩
      · exact fun h => h.1

/-- **The delay of a new entry is the least one which keeps the separation.** -/
theorem delayInClass_isLeast {s : State H A}
    (hs : s.timerQueue.Pairwise fun a b => a.ts ≤ b.ts) (now : ℚ) {minDelay : ℚ}
    (hmin : 0 ≤ minDelay) (separation : ℚ) (cls : TimeoutClass) :
    IsLeast {delay | DelayOk s now minDelay separation cls delay}
      (delayInClass s now minDelay separation cls) := by
  have hsorted : ((s.timerQueue.filter (·.cls = cls)).map (·.ts - now)).Pairwise (· ≤ ·) := by
    refine List.pairwise_map.mpr ((hs.filter _).imp ?_)
    intro a b hab
    linarith
  have hdelay : delayInClass s now minDelay separation cls =
      ((s.timerQueue.filter (·.cls = cls)).map (·.ts - now)).foldl (pushPast separation)
        (delayAfterLast s now minDelay separation cls) := foldl_separateFrom ..
  obtain ⟨⟨hle, hfar⟩, hleast⟩ := foldl_pushPast_isLeast hsorted separation
    (delayAfterLast s now minDelay separation cls)
  rw [hdelay]
  generalize ((s.timerQueue.filter (·.cls = cls)).map (·.ts - now)).foldl (pushPast separation)
    (delayAfterLast s now minDelay separation cls) = delay at hle hfar hleast
  rw [delayAfterLast_le_iff s now hmin] at hle
  have hmem : ∀ y : ℚ, (∀ d ∈ (s.timerQueue.filter (·.cls = cls)).map (·.ts - now),
      separation ≤ |y - d|) ↔
      ∀ e ∈ s.timerQueue, e.cls = cls → separation ≤ |now + y - e.ts| := by
    intro y
    have hdiff : ∀ e : TimerQueueEntry H A, y - (e.ts - now) = now + y - e.ts :=
      fun e => by linarith
    simp only [List.forall_mem_map, List.mem_filter, decide_eq_true_eq, and_imp, hdiff]
  rw [hmem] at hfar
  refine ⟨⟨hle.1, hle.2, hfar⟩, ?_⟩
  rintro y ⟨hmin', hlast, hqueued⟩
  refine hleast ⟨?_, (hmem y).mpr hqueued⟩
  exact (delayAfterLast_le_iff s now hmin separation cls y).mpr ⟨hmin', hlast⟩

/-- Linking fails only if all identifiers are used. -/
theorem full_of_link_error {s : State H A} {p : TimerQueueEntry H A → Bool} {ts : ℚ}
    {cls : TimeoutClass} {handler : H} {arg : A} {a : Abort}
    (h : link s p ts cls handler arg = .error a) : 2 ^ 32 < s.timerQueue.length + 2 := by
  rw [link, bind_eq_error_iff] at h
  rcases h with h | ⟨id, -, h⟩
  · by_contra hle
    have hsome : (tryTqeId s.timerQueue (s.timerQueue.length + 2) s.nextTqeId).isSome :=
      tryTqeId_isSome (not_lt.mp hle)
    obtain ⟨id, hid⟩ := Option.isSome_iff_exists.mp hsome
    rw [getNewTqeId, hid] at h
    cases h
  · cases h

/-- **The new entry of a class.** Its delay is the least one which keeps the separation, where
the minimum delay and the separation are multiplied by the same random factor. It is inserted
in the sorted queue, unless all identifiers are used. -/
theorem addTimeoutInClass_spacing {s : State H A}
    (hs : s.timerQueue.Pairwise fun a b => a.ts ≤ b.ts) (now : ℚ) (rnd : ℕ) {minDelay : ℚ}
    (hmin : 0 ≤ minDelay) (separation randomness : ℚ) (cls : TimeoutClass) (handler : H) (arg : A) :
    let r := stretch randomness rnd
    match addTimeoutInClass s now rnd minDelay separation randomness cls handler arg with
    | .error _ => 2 ^ 32 < s.timerQueue.length + 2
    | .ok (s', e) =>
        e.cls = cls ∧ e.handler = handler ∧ e.arg = arg ∧
        IsLeast {delay | DelayOk s now (minDelay * r) (separation * r) cls delay} (e.ts - now) ∧
        s'.timerQueue.Perm (e :: s.timerQueue) ∧
        s'.timerQueue.Pairwise fun a b => a.ts ≤ b.ts := by
  intro r
  have hleast := delayInClass_isLeast hs now
    (mul_nonneg hmin (zero_le_one.trans (one_le_stretch randomness rnd))) (separation * r) cls
  split
  next a herror =>
      rw [addTimeoutInClass, if_neg (not_lt.mpr hmin)] at herror
      exact full_of_link_error herror
  next s' e hok =>
      rw [addTimeoutInClass, if_neg (not_lt.mpr hmin)] at hok
      obtain ⟨-, -, -, he, rfl⟩ := link_spec hok
      have hts : e.ts = now + delayInClass s now (minDelay * r) (separation * r) cls := by rw [he]
      refine ⟨by rw [he], by rw [he], by rw [he], ?_, insertBefore_perm .., ?_⟩
      · rw [hts, add_sub_cancel_left]
        exact hleast
      · refine insertBefore_sorted hs fun x => ?_
        rw [decide_eq_true_eq, hts]
        constructor
        · intro h
          linarith
        · intro h
          linarith

/-- The first entry of a queue, with the largest random number. -/
def sampleEntry : TimerQueueEntry Unit Unit := ⟨0, 12, 1, .ntpClientClass, (), ()⟩

theorem addTimeoutInClass_sampleEntry : ∃ s',
    addTimeoutInClass (initialise 0 : State Unit Unit) 10 (2 ^ 32 - 1) 1 (1 / 2) 1 .ntpClientClass
      () () = .ok (s', sampleEntry) := by
  obtain ⟨⟨s', e⟩, hok, rfl⟩ := exists_ok_of_map_toOption (show
    (addTimeoutInClass (initialise 0 : State Unit Unit) 10 (2 ^ 32 - 1) 1 (1 / 2) 1 .ntpClientClass
      () ()).toOption.map Prod.snd = some sampleEntry by decide +kernel)
  exact ⟨s', hok⟩

/-- A queue with entries of two classes. The delays up to 3.5 are too close to the first two of the
clients. -/
def sampleQueue : State Unit Unit :=
  { (initialise 0 : State Unit Unit) with
    timerQueue :=
      [⟨0, 12, 1, .ntpClientClass, (), ()⟩, ⟨1, 25 / 2, 2, .ntpClientClass, (), ()⟩,
        ⟨2, 13, 3, .ntpPeerClass, (), ()⟩, ⟨3, 15, 4, .ntpClientClass, (), ()⟩]
    nTimerQueueEntries := 4
    nextTqeId := 4
    allocated := 4 }

theorem addTimeoutInClass_spacing_between :
    ∃ s' e, addTimeoutInClass sampleQueue 10 (2 ^ 32 - 1) 1 (1 / 2) 1 .ntpClientClass () () =
        .ok (s', e) ∧ s'.timerQueue.map (·.id) = [1, 2, 3, 5, 4] ∧
      IsLeast {delay | DelayOk sampleQueue 10 (1 * stretch 1 (2 ^ 32 - 1))
        (1 / 2 * stretch 1 (2 ^ 32 - 1)) .ntpClientClass delay} (7 / 2) := by
  obtain ⟨⟨s', e⟩, hok, hresult⟩ := exists_ok_of_map_toOption (show
    (addTimeoutInClass sampleQueue 10 (2 ^ 32 - 1) 1 (1 / 2) 1 .ntpClientClass () ()).toOption.map
      (fun r => (r.1.timerQueue.map (·.id), r.2.ts)) = some ([1, 2, 3, 5, 4], 27 / 2) by
        decide +kernel)
  have hspacing := addTimeoutInClass_spacing (s := sampleQueue) (by decide +kernel) 10 (2 ^ 32 - 1)
    zero_le_one (1 / 2) 1 .ntpClientClass () ()
  rw [hok] at hspacing
  have hleast := hspacing.2.2.2.1
  rw [(Prod.mk.inj hresult).2, show (27 / 2 - 10 : ℚ) = 7 / 2 by norm_num] at hleast
  exact ⟨s', e, hok, (Prod.mk.inj hresult).1, hleast⟩

/-- **A smaller delay would do**, if the minimum delay was not multiplied by the random
factor. -/
theorem addTimeoutInClass_randomised :
    (∃ s', addTimeoutInClass (initialise 0 : State Unit Unit) 10 (2 ^ 32 - 1) 1 (1 / 2) 1
      .ntpClientClass () () = .ok (s', sampleEntry)) ∧
    ¬IsLeast {delay | DelayOk (initialise 0 : State Unit Unit) 10 1
      (1 / 2 * stretch 1 (2 ^ 32 - 1)) .ntpClientClass delay} (sampleEntry.ts - 10) := by
  refine ⟨addTimeoutInClass_sampleEntry, fun hleast => ?_⟩
  have hstretch : stretch 1 (2 ^ 32 - 1) = 2 := by
    rw [stretch, if_pos zero_lt_one]
    norm_num
  have hone : DelayOk (initialise 0 : State Unit Unit) 10 1 (1 / 2 * stretch 1 (2 ^ 32 - 1))
      .ntpClientClass 1 := by
    rw [hstretch]
    exact ⟨le_rfl, fun _ => by norm_num [initialise], nofun⟩
  have hle := hleast.2 hone
  norm_num [sampleEntry] at hle

end Chrony.Sched
