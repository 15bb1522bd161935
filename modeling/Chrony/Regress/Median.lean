import Chrony.Lib.OrderStatistic
import Chrony.Lib.Run
import Mathlib.Algebra.Field.Rat
import Mathlib.Algebra.Order.Ring.Rat

/-!
# The Median

The selection of an order statistic in `regress.c`, and the median. An array with `n` entries is a
function with the entries at the positions below `n`. An access to another position and a loop
which does not end give `none`.

The partition of `find_ordered_entry_with_flags` can end with `l` and `r` at the same entry, which
is then equal to the pivot. The next subrange starts with this entry, which is already flagged as
sorted, and it can be moved. This does no harm if the value is that of the entry at the index,
because all entries between them are then equal.

## Main results

* `step_spec`: what is kept by an iteration of the main loop.
* `findOrderedEntryWithFlags_spec`: a selection.
* `rgrFindMedian_sorted`: the median, if no value below it is repeated.
* `rgrFindMedian_not_sorted`: an array with a wrong median.
-/

namespace Chrony.Regress

open Lib

/-- `MAX_POINTS`. -/
def maxPoints : ℕ := 64

/-- The arrays `x` and `flags`. -/
structure Entries (α : Type) where
  x : ℕ → α
  flags : ℕ → Bool

/-- The variables of the main loop. -/
structure Search (α : Type) extends Entries α where
  u : ℕ
  v : ℕ

/-- The end of an iteration of the main loop. -/
inductive Outcome (α : Type)
  | found (entries : Entries α) (value : α)
  | next (s : Search α)

section Model

variable {α : Type} [LinearOrder α] (n : ℕ)

/-- An access to an entry. -/
def entry {β : Type} (a : ℕ → β) (i : ℕ) : Option β :=
  if i < n then some (a i) else none

/-- `EXCH`. -/
def exch (x : ℕ → α) (i j : ℕ) : Option (ℕ → α) :=
  if i < n ∧ j < n then some (x ∘ Equiv.swap i j) else none

def setFlag (flags : ℕ → Bool) (i : ℕ) : Option (ℕ → Bool) :=
  if i < n then some (Function.update flags i true) else none

/-- The first loop which looks for the subrange. -/
def lowerFlag (flags : ℕ → Bool) : ℕ → Option ℕ
  | 0 => some 0
  | u + 1 => do
      let flag ← entry n flags (u + 1)
      if flag then some (u + 1) else lowerFlag flags u

/-- The second loop which looks for the subrange. The first number is `n - 1 - v`. -/
def upperFlag (flags : ℕ → Bool) : ℕ → ℕ → Option ℕ
  | 0, v => some v
  | d + 1, v => do
      let flag ← entry n flags v
      if flag then some v else upperFlag flags d (v + 1)

/-- The subrange to look at. -/
def subrange (flags : ℕ → Bool) (index : ℕ) : Option (ℕ × ℕ) := do
  let u ← lowerFlag n flags index
  let u := if ← entry n flags u then u + 1 else u
  let v ← upperFlag n flags (n - 1 - index) index
  -- `v` is not zero if it is flagged, because the entry at the index is not
  let v := if ← entry n flags v then v - 1 else v
  some (u, v)

/-- The loop which increments `l`. The first number is `v - l`. -/
def scanUp (x : ℕ → α) (piv : α) : ℕ → ℕ → Option ℕ
  | 0, l => some l
  | d + 1, l => do
      let a ← entry n x l
      if a < piv then scanUp x piv d (l + 1) else some l

/-- The loop which decrements `r`. -/
def scanDown (x : ℕ → α) (piv : α) : ℕ → Option ℕ
  | 0 => some 0
  | r + 1 => do
      let a ← entry n x (r + 1)
      if a > piv then scanDown x piv r else some (r + 1)

/-- The loop which partitions a subrange. -/
def partition (piv : α) (v : ℕ) : ℕ → (ℕ → α) → ℕ → ℕ → Option ((ℕ → α) × ℕ × ℕ)
  | 0, _, _, _ => none
  | fuel + 1, x, l, r => do
      let l ← scanUp n x piv (v - l) l
      let r ← scanDown n x piv r
      if r ≤ l then some (x, l, r)
      else
        let x ← exch n x l r
        partition piv v fuel x (l + 1) (r - 1)

/-- A subrange is partitioned with the pivot moved to its place. -/
def pass (fuel : ℕ) (x : ℕ → α) (u v : ℕ) : Option ((ℕ → α) × ℕ × ℕ) := do
  let x ← exch n x u ((u + v) / 2)
  let piv ← entry n x u
  let (x, l, r) ← partition n piv v fuel x (u + 1) v
  let x ← exch n x u r
  some (x, l, r)

/-- Two entries are exchanged if they are not sorted. -/
def sortEntries (x : ℕ → α) (u v : ℕ) : Option (ℕ → α) := do
  let a ← entry n x v
  let b ← entry n x u
  if a < b then exch n x v u else some x

/-- The last two entries are sorted. -/
def sortPair (s : Search α) (index : ℕ) : Option (Entries α × α) := do
  let x ← sortEntries n s.x s.u s.v
  let flags ← setFlag n s.flags s.u
  let flags ← setFlag n flags s.v
  let value ← entry n x index
  some (⟨x, flags⟩, value)

/-- **An iteration of the main loop of `find_ordered_entry_with_flags`.** -/
def step (fuel index : ℕ) (s : Search α) : Option (Outcome α) :=
  if s.v - s.u < 2 then do
    let (entries, value) ← sortPair n s index
    some (.found entries value)
  else do
    let (x, l, r) ← pass n fuel s.x s.u s.v
    let flags ← setFlag n s.flags r
    if index = r then
      let value ← entry n x r
      some (.found ⟨x, flags⟩ value)
    else if index < r then some (.next ⟨⟨x, flags⟩, s.u, r - 1⟩)
    else some (.next ⟨⟨x, flags⟩, l, s.v⟩)

/-- The main loop. The first number bounds the iterations. -/
def search (fuel index : ℕ) : ℕ → Search α → Option (Entries α × α)
  | 0, _ => none
  | bound + 1, s => do
      match ← step n fuel index s with
      | .found entries value => some (entries, value)
      | .next s => search fuel index bound s

/-- `find_ordered_entry_with_flags`. -/
def findOrderedEntryWithFlags (fuel : ℕ) (entries : Entries α) (index : ℕ) :
    Option (Entries α × α) := do
  if ← entry n entries.flags index then
    let value ← entry n entries.x index
    some (entries, value)
  else
    let (u, v) ← subrange n entries.flags index
    search n fuel index fuel ⟨entries, u, v⟩

/-- An array without flags. -/
def Entries.start (x : ℕ → α) : Entries α := ⟨x, fun _ => false⟩

/-- The index of the first selection. The order of the two calls for an even number of entries
is not specified. -/
def firstIndex (leftFirst : Bool) : ℕ :=
  if n % 2 = 1 ∨ leftFirst then n / 2 else n / 2 - 1

/-- `find_median`. -/
def findMedian [Field α] (fuel : ℕ) (leftFirst : Bool) (x : ℕ → α) : Option α := do
  let k := n / 2
  if n % 2 = 1 then
    let (_, value) ← findOrderedEntryWithFlags n fuel (.start x) k
    some value
  else if leftFirst then
    let (entries, left) ← findOrderedEntryWithFlags n fuel (.start x) k
    let (_, right) ← findOrderedEntryWithFlags n fuel entries (k - 1)
    some (0.5 * (left + right))
  else
    let (entries, right) ← findOrderedEntryWithFlags n fuel (.start x) (k - 1)
    let (_, left) ← findOrderedEntryWithFlags n fuel entries k
    some (0.5 * (left + right))

/-- `RGR_FindMedian`. The assertion gives `none`. -/
def rgrFindMedian [Field α] (fuel : ℕ) (leftFirst : Bool) (x : ℕ → α) : Option α :=
  if n > 0 ∧ n ≤ maxPoints then findMedian n fuel leftFirst x else none

end Model

section Lemmas

variable {α : Type} [LinearOrder α] {n fuel index : ℕ} {x : ℕ → α}

theorem entry_eq {β : Type} {i : ℕ} (h : i < n) (a : ℕ → β) : entry n a i = some (a i) := if_pos h

omit [LinearOrder α] in
theorem exch_eq {i j : ℕ} (hi : i < n) (hj : j < n) (x : ℕ → α) :
    exch n x i j = some (x ∘ Equiv.swap i j) := if_pos ⟨hi, hj⟩

theorem setFlag_eq {i : ℕ} (h : i < n) (flags : ℕ → Bool) :
    setFlag n flags i = some (Function.update flags i true) := if_pos h

/-! ### The partition -/

theorem scanUp_spec (x : ℕ → α) (piv : α) {d l : ℕ} (h : l + d ≤ n) :
    ∃ l', scanUp n x piv d l = some l' ∧ l ≤ l' ∧ l' ≤ l + d ∧
      (∀ i, l ≤ i → i < l' → x i < piv) ∧ (l' = l + d ∨ piv ≤ x l') := by
  induction d generalizing l with
  | zero => exact ⟨l, rfl, le_rfl, le_rfl, by omega, .inl rfl⟩
  | succ d ih =>
      rw [scanUp, entry_eq (by omega), Option.bind_eq_bind, Option.bind_some]
      split
      next hlt =>
          obtain ⟨l', heq, hle, hle', hless, hend⟩ := ih (l := l + 1) (by omega)
          refine ⟨l', heq, by omega, by omega, fun i hi hi' => ?_, hend.imp (by omega) id⟩
          by_cases hil : i = l
          · rw [hil]
            exact hlt
          · exact hless i (by omega) hi'
      next hge => exact ⟨l, rfl, le_rfl, by omega, by omega, .inr (not_lt.mp hge)⟩

/-- The loop stops at the pivot at the latest. -/
theorem scanDown_spec {piv : α} {u r : ℕ} (hu : u ≤ r) (hr : r < n) (hpiv : x u = piv) :
    ∃ r', scanDown n x piv r = some r' ∧ u ≤ r' ∧ r' ≤ r ∧
      (∀ i, r' < i → i ≤ r → piv < x i) ∧ x r' ≤ piv := by
  induction r with
  | zero =>
      obtain rfl : u = 0 := by omega
      exact ⟨0, rfl, le_rfl, le_rfl, by omega, hpiv.le⟩
  | succ r ih =>
      rw [scanDown, entry_eq hr, Option.bind_eq_bind, Option.bind_some]
      split
      next hgt =>
          have hne : u ≠ r + 1 := by
            rintro rfl
            exact absurd hgt (not_lt.mpr hpiv.le)
          obtain ⟨r', heq, hle, hle', hmore, hend⟩ := ih (by omega) (by omega)
          refine ⟨r', heq, hle, by omega, fun i hi hi' => ?_, hend⟩
          by_cases hir : i = r + 1
          · rw [hir]
            exact hgt
          · exact hmore i hi (by omega)
      next hle => exact ⟨r + 1, rfl, hu, le_rfl, by omega, not_lt.mp hle⟩

/-- **What is known in the loop which partitions a subrange.** -/
structure Partitioned (x : ℕ → α) (piv : α) (u v l r : ℕ) : Prop where
  pivot : x u = piv
  lower : u < l
  upper : r ≤ v
  le : ∀ i, u < i → i < l → x i ≤ piv
  ge : ∀ i, r < i → i ≤ v → piv ≤ x i

/-- The entries at `l` and `r` are exchanged. -/
theorem Partitioned.exch {piv : α} {u v l r : ℕ} (h : Partitioned x piv u v l r) (hlr : l < r)
    (hl : piv ≤ x l) (hr : x r ≤ piv) :
    Partitioned (x ∘ Equiv.swap l r) piv u v (l + 1) (r - 1) := by
  have hother : ∀ i, i ≠ l → i ≠ r → (x ∘ Equiv.swap l r) i = x i := by
    intro i hil hir
    rw [Function.comp_apply, Equiv.swap_apply_of_ne_of_ne hil hir]
  have hlower := h.lower
  refine ⟨?_, by omega, (Nat.sub_le _ _).trans h.upper, fun i hi hi' => ?_, fun i hi hi' => ?_⟩
  · rw [hother u (by omega) (by omega), h.pivot]
  · by_cases hil : i = l
    · rw [hil, Function.comp_apply, Equiv.swap_apply_left]
      exact hr
    · rw [hother i hil (by omega)]
      exact h.le i hi (by omega)
  · by_cases hir : i = r
    · rw [hir, Function.comp_apply, Equiv.swap_apply_right]
      exact hl
    · rw [hother i (by omega) hir]
      exact h.ge i (by omega) hi'

/-- **The loops stop next to each other**, or at the same entry. -/
theorem partition_spec {piv : α} {u v l r : ℕ} (h : Partitioned x piv u v l r) (hv : v < n)
    (hlr : l ≤ r + 1) (hlv : l ≤ v) (hfuel : r + 1 - l < fuel) :
    ∃ x' l' r', partition n piv v fuel x l r = some (x', l', r') ∧ Rearranged u v x x' ∧
      Partitioned x' piv u v l' r' ∧ u ≤ r' ∧ x' r' ≤ piv ∧
      (l' = r' + 1 ∨ l' = r' ∧ (r' = v ∨ x' r' = piv)) := by
  induction fuel generalizing x l r with
  | zero => omega
  | succ fuel ih =>
      have hlower := h.lower
      have hupper := h.upper
      obtain ⟨l', hscan, hle, hle', hless, hend⟩ :=
        scanUp_spec (n := n) x piv (d := v - l) (l := l) (by omega)
      obtain ⟨r', hscan', hru, hrr, hmore, hstop⟩ :=
        scanDown_spec (n := n) (r := r) (by omega) (by omega) h.pivot
      have hp : Partitioned x piv u v l' r' := by
        refine ⟨h.pivot, by omega, by omega, fun i hi hi' => ?_, fun i hi hi' => ?_⟩
        · by_cases hil : i < l
          · exact h.le i hi hil
          · exact (hless i (by omega) hi').le
        · by_cases hir : i ≤ r
          · exact (hmore i hi hir).le
          · exact h.ge i (by omega) hi'
      -- an entry between them would be both smaller and larger than the pivot
      have hnext : l' ≤ r' + 1 := by
        by_contra hfar
        by_cases hir : r' + 1 ≤ r
        · have hgt := hmore (r' + 1) (by omega) hir
          exact absurd (hp.le (r' + 1) (by omega) (by omega)) (not_le.mpr hgt)
        · have hlt := hless (r' + 1) (by omega) (by omega)
          exact absurd (hp.ge (r' + 1) (by omega) (by omega)) (not_le.mpr hlt)
      rw [partition, hscan, Option.bind_eq_bind, Option.bind_some, hscan', Option.bind_some]
      split
      next hstopped =>
          refine ⟨x, l', r', rfl, .refl u v x, hp, hru, hstop, ?_⟩
          by_cases hsame : l' = r'
          · refine .inr ⟨hsame, ?_⟩
            rcases hend with hv' | hge
            · exact .inl (by omega)
            · rw [hsame] at hge
              exact .inr (le_antisymm hstop hge)
          · exact .inl (by omega)
      next hgo =>
          have hge : piv ≤ x l' := hend.resolve_left (by omega)
          rw [exch_eq (by omega) (by omega), Option.bind_eq_bind, Option.bind_some]
          obtain ⟨x', l'', r'', heq, hrearranged, hrest⟩ :=
            ih (hp.exch (by omega) hge hstop) (by omega) (by omega) (by omega)
          exact ⟨x', l'', r'', heq,
            (rearranged_swap (by omega) (by omega) x).trans hrearranged, hrest⟩

/-- **A subrange after it was partitioned.** The pivot is at the position `r`. -/
structure PassResult (x x' : ℕ → α) (u v l r : ℕ) : Prop where
  rearranged : Rearranged u v x x'
  lower : u ≤ r
  upper : r ≤ v
  le : ∀ i, u ≤ i → i < r → x' i ≤ x' r
  ge : ∀ i, r < i → i ≤ v → x' r ≤ x' i
  next : l = r + 1 ∨ l = r ∧ u < r ∧ (r = v ∨ x' u = x' r)

theorem pass_spec {u v : ℕ} (huv : u + 2 ≤ v) (hv : v < n) (hfuel : n ≤ fuel) (x : ℕ → α) :
    ∃ x' l r, pass n fuel x u v = some (x', l, r) ∧ PassResult x x' u v l r := by
  have hstart : Partitioned (x ∘ Equiv.swap u ((u + v) / 2))
      ((x ∘ Equiv.swap u ((u + v) / 2)) u) u v (u + 1) v :=
    ⟨rfl, by omega, le_rfl, by omega, by omega⟩
  obtain ⟨x₁, l, r, hpartition, hrearranged, hp, hur, hr, hnext⟩ :=
    partition_spec (n := n) hstart hv (by omega) (by omega) (show v + 1 - (u + 1) < fuel by omega)
  have hlower := hp.lower
  have hupper := hp.upper
  have hpivot : (x₁ ∘ Equiv.swap u r) r = x₁ u := by
    rw [Function.comp_apply, Equiv.swap_apply_right]
  have hfirst : (x₁ ∘ Equiv.swap u r) u = x₁ r := by
    rw [Function.comp_apply, Equiv.swap_apply_left]
  have hother : ∀ i, i ≠ u → i ≠ r → (x₁ ∘ Equiv.swap u r) i = x₁ i := by
    intro i hiu hir
    rw [Function.comp_apply, Equiv.swap_apply_of_ne_of_ne hiu hir]
  refine ⟨x₁ ∘ Equiv.swap u r, l, r, ?_, ?_, hur, hupper, fun i hi hi' => ?_,
    fun i hi hi' => ?_, ?_⟩
  · have hu : u < n := by omega
    have hr' : r < n := by omega
    have hmiddle : (u + v) / 2 < n := by omega
    simp only [pass, exch_eq hu hmiddle, exch_eq hu hr', entry_eq hu, hpartition,
      Option.bind_eq_bind, Option.bind_some]
  · exact ((rearranged_swap (by omega) (by omega) x).trans hrearranged).trans
      (rearranged_swap (by omega) (by omega) x₁)
  · rw [hpivot, hp.pivot]
    by_cases hiu : i = u
    · rw [hiu, hfirst]
      exact hr
    · rw [hother i hiu (by omega)]
      exact hp.le i (by omega) (by omega)
  · rw [hpivot, hp.pivot, hother i (by omega) (by omega)]
    exact hp.ge i hi hi'
  · rcases hnext with hnext | ⟨hsame, hstop⟩
    · exact .inl hnext
    · refine .inr ⟨hsame, by omega, hstop.imp id fun heq => ?_⟩
      rw [hfirst, hpivot, heq, hp.pivot]

/-! ### The main loop -/

/-- The subrange has the index. -/
structure Search.InRange (n index : ℕ) (s : Search α) : Prop where
  lower : s.u ≤ index
  upper : index ≤ s.v
  length : s.v < n

/-- The other entries are not between those of the subrange. -/
structure Search.Cuts (n : ℕ) (s : Search α) : Prop where
  lower : Cut n s.x s.u
  upper : Cut n s.x (s.v + 1)

/-- **The meaning of the flags**: a flagged entry is in its place. -/
def Entries.Placed (n : ℕ) (entries : Entries α) : Prop :=
  ∀ i < n, entries.flags i = true → Cut n entries.x i ∧ Cut n entries.x (i + 1)

/-- **The values below `a` are not repeated.** -/
def DistinctBelow (n : ℕ) (x : ℕ → α) (a : α) : Prop :=
  ∀ i < n, ∀ j < n, x i = x j → x i < a → i = j

/-- **The flagged entries in the search of `a`**: one is in its place and outside of the subrange,
or it can be moved by the next pass, but then no entry from its place on is smaller than `a`. -/
def Search.Flagged (n : ℕ) (a : α) (s : Search α) : Prop :=
  ∀ i < n, s.flags i = true →
    ((i < s.u ∨ s.v < i) ∧ Cut n s.x i ∧ Cut n s.x (i + 1)) ∨
    (i ≤ s.u ∧ Cut n s.x i ∧ ∀ j, i ≤ j → j < n → a ≤ s.x j)

/-- The entry at the index was found. -/
structure Found (n index : ℕ) (s : Search α) (entries : Entries α) : Prop where
  rearranged : Rearranged s.u s.v s.x entries.x
  cuts : s.Cuts n → Cut n entries.x index ∧ Cut n entries.x (index + 1)
  placed : s.Cuts n → s.Flagged n (entries.x index) → entries.Placed n

/-- The loop goes on with a shorter subrange. -/
structure Next (n index : ℕ) (s s' : Search α) : Prop where
  rearranged : Rearranged s.u s.v s.x s'.x
  inRange : s'.InRange n index
  shorter : s'.v - s'.u < s.v - s.u
  cuts : s.Cuts n → s'.Cuts n
  flagged : ∀ a, DistinctBelow n s.x a → s.Cuts n → s.Flagged n a → s'.Flagged n a

theorem DistinctBelow.rearranged {x' : ℕ → α} {a : α} {u v : ℕ} (hd : DistinctBelow n x a)
    (h : Rearranged u v x x') (hv : v < n) : DistinctBelow n x' a := by
  obtain ⟨σ, hσ, rfl⟩ := h
  exact fun i hi j hj heq hlt =>
    σ.injective (hd _ (perm_lt hσ hv hi) _ (perm_lt hσ hv hj) heq hlt)

/-- What is known about a flagged entry is kept if only the subrange is rearranged. -/
theorem Search.Flagged.rearranged {s : Search α} {a : α} {x' : ℕ → α} (h : s.Flagged n a)
    (hr : Rearranged s.u s.v s.x x') (hv : s.v < n) {i : ℕ} (hi : i < n)
    (hflag : s.flags i = true) :
    ((i < s.u ∨ s.v < i) ∧ Cut n x' i ∧ Cut n x' (i + 1)) ∨
    (i ≤ s.u ∧ Cut n x' i ∧ ∀ j, i ≤ j → j < n → a ≤ x' j) := by
  rcases h i hi hflag with ⟨hout, hcut, hcut'⟩ | ⟨hle, hcut, hmore⟩
  · exact .inl ⟨hout, hr.cut hv (by omega) hcut, hr.cut hv (by omega) hcut'⟩
  · refine .inr ⟨hle, hr.cut hv (.inl hle) hcut, fun j hj hjn => ?_⟩
    by_cases hin : s.u ≤ j ∧ j ≤ s.v
    · obtain ⟨j', hj', heq⟩ := hr.exists_eq hin
      rw [heq]
      exact hmore j' (by omega) (by omega)
    · rw [hr.eq (by omega)]
      exact hmore j hj hjn

/-- **All flagged entries are in their places** when the entry at the index is. -/
theorem Search.Flagged.placed {s : Search α} {entries : Entries α} (h : s.InRange n index)
    (hflagged : s.Flagged n (entries.x index)) (hr : Rearranged s.u s.v s.x entries.x)
    (hcut : Cut n entries.x index) (hcut' : Cut n entries.x (index + 1))
    (hnew : ∀ i < n, entries.flags i = true →
      s.flags i = true ∨ Cut n entries.x i ∧ Cut n entries.x (i + 1)) : entries.Placed n := by
  intro i hi hflag
  rcases hnew i hi hflag with hold | hplaced
  · rcases hflagged.rearranged hr h.length hi hold with ⟨-, hplaced⟩ | ⟨hle, hleft, hmore⟩
    · exact hplaced
    · refine ⟨hleft, fun p hp q hq hqn => ?_⟩
      have hlower := h.lower
      by_cases hpi : p < i
      · exact hleft p hpi q (by omega) hqn
      · obtain rfl : p = i := by omega
        by_cases hindex : p = index
        · rw [← hindex] at hcut'
          exact hcut' p (Nat.lt_succ_self p) q hq hqn
        · have hindexn : index < n := by
            have hupper := h.upper
            have hlength := h.length
            omega
          -- it is not larger than the found entry, and those from its place on are not smaller
          calc entries.x p ≤ entries.x index := hcut p (by omega) index le_rfl hindexn
            _ ≤ entries.x q := hmore q (by omega) hqn
  · exact hplaced

theorem sortPair_found {s : Search α} (h : s.InRange n index) (hpair : s.v - s.u < 2) :
    ∃ entries, sortPair n s index = some (entries, entries.x index) ∧
      Found n index s entries := by
  obtain ⟨hlower, hupper, hv⟩ := h
  have hu : s.u < n := by omega
  have hindex : index < n := by omega
  obtain ⟨x, hx, hrearranged, hle⟩ : ∃ x : ℕ → α, sortEntries n s.x s.u s.v = some x ∧
      Rearranged s.u s.v s.x x ∧ x s.u ≤ x s.v := by
    simp only [sortEntries, entry_eq hv, entry_eq hu, Option.bind_eq_bind, Option.bind_some]
    split
    next hlt =>
        refine ⟨_, exch_eq hv hu s.x, rearranged_swap (by omega) (by omega) s.x, ?_⟩
        rw [Function.comp_apply, Function.comp_apply, Equiv.swap_apply_left,
          Equiv.swap_apply_right]
        exact hlt.le
    next hge => exact ⟨s.x, rfl, .refl _ _ _, not_lt.mp hge⟩
  have hcuts : s.Cuts n → ∀ m, s.u ≤ m → m ≤ s.v + 1 → Cut n x m := by
    intro hs m hm hm'
    have hcut := hrearranged.cut hv (.inl le_rfl) hs.lower
    have hcut' := hrearranged.cut hv (.inr (Nat.lt_succ_self _)) hs.upper
    by_cases hmu : m = s.u
    · rw [hmu]
      exact hcut
    · have hleft : ∀ i, s.u ≤ i → i < m → x i ≤ x s.v := by
        intro i hi hi'
        by_cases hiv : i = s.v
        · rw [hiv]
        · obtain rfl : i = s.u := by omega
          exact hle
      have hright : ∀ j, m ≤ j → j ≤ s.v → x s.v ≤ x j := by
        intro j hj hj'
        obtain rfl : j = s.v := by omega
        exact le_rfl
      exact hcut.of_split hcut' ⟨hm, hm'⟩ hleft hright
  refine ⟨⟨x, Function.update (Function.update s.flags s.u true) s.v true⟩, ?_, hrearranged,
    fun hs => ?_, fun hs hflagged => ?_⟩
  · simp only [sortPair, entry_eq hindex, setFlag_eq hu, setFlag_eq hv, hx, Option.bind_eq_bind,
      Option.bind_some]
  · exact ⟨hcuts hs index hlower (by omega), hcuts hs (index + 1) (by omega) (by omega)⟩
  · refine hflagged.placed ⟨hlower, hupper, hv⟩ hrearranged (hcuts hs index hlower (by omega))
      (hcuts hs (index + 1) (by omega) (by omega)) fun i hi hflag => ?_
    by_cases hiuv : s.u ≤ i ∧ i ≤ s.v
    · exact .inr ⟨hcuts hs i hiuv.1 (by omega), hcuts hs (i + 1) (by omega) (by omega)⟩
    · dsimp only at hflag
      rw [Function.update_of_ne (by omega), Function.update_of_ne (by omega)] at hflag
      exact .inl hflag

/-- **The cuts after a subrange was partitioned.** -/
theorem PassResult.cuts {s : Search α} {x : ℕ → α} {l r : ℕ} (h : PassResult s.x x s.u s.v l r)
    (hv : s.v < n) (hs : s.Cuts n) :
    Cut n x s.u ∧ Cut n x (s.v + 1) ∧ Cut n x r ∧ Cut n x (r + 1) := by
  have hcut := h.rearranged.cut hv (.inl le_rfl) hs.lower
  have hcut' := h.rearranged.cut hv (.inr (Nat.lt_succ_self _)) hs.upper
  have hlower := h.lower
  have hupper := h.upper
  refine ⟨hcut, hcut', hcut.of_split hcut' (by omega) h.le fun j hj hj' => ?_,
    hcut.of_split hcut' (by omega) (fun i hi hi' => ?_) h.ge⟩
  · by_cases hjr : j = r
    · rw [hjr]
    · exact h.ge j (by omega) hj'
  · by_cases hir : i = r
    · rw [hir]
    · exact h.le i hi (by omega)

/-- An entry which was not flagged by the pass. -/
theorem flags_of_update {flags : ℕ → Bool} {i r : ℕ} (hir : i ≠ r)
    (hflag : Function.update flags r true i = true) : flags i = true := by
  rwa [Function.update_of_ne hir] at hflag

theorem pass_next {s : Search α} {x : ℕ → α} {l r : ℕ} (h : s.InRange n index)
    (hlong : 2 ≤ s.v - s.u) (hpass : PassResult s.x x s.u s.v l r) :
    (index < r → Next n index s ⟨⟨x, Function.update s.flags r true⟩, s.u, r - 1⟩) ∧
      (r < index → Next n index s ⟨⟨x, Function.update s.flags r true⟩, l, s.v⟩) := by
  obtain ⟨hindexLower, hindexUpper, hv⟩ := h
  have hlower := hpass.lower
  have hupper := hpass.upper
  constructor
  · intro hlt
    refine ⟨hpass.rearranged, ⟨hindexLower, by dsimp only; omega, by dsimp only; omega⟩,
      by dsimp only; omega, fun hs => ⟨(hpass.cuts hv hs).1, ?_⟩, fun a hd hs hf i hi hflag => ?_⟩
    · dsimp only
      rw [Nat.sub_add_cancel (by omega)]
      exact (hpass.cuts hv hs).2.2.1
    · dsimp only at hflag ⊢
      by_cases hir : i = r
      · rw [hir]
        exact .inl ⟨by omega, (hpass.cuts hv hs).2.2⟩
      · exact (hf.rearranged hpass.rearranged hv hi (flags_of_update hir hflag)).imp
          (And.imp_left (by omega)) id
  · intro hgt
    have hl : l = r + 1 ∨ l = r ∧ s.u < r ∧ x s.u = x r :=
      hpass.next.imp id fun ⟨hsame, hur, heq⟩ => ⟨hsame, hur, heq.resolve_left (by omega)⟩
    refine ⟨hpass.rearranged, ⟨by dsimp only; omega, hindexUpper, hv⟩, by dsimp only; omega,
      fun hs => ⟨?_, (hpass.cuts hv hs).2.1⟩, fun a hd hs hf i hi hflag => ?_⟩
    · rcases hl with rfl | ⟨rfl, -⟩
      · exact (hpass.cuts hv hs).2.2.2
      · exact (hpass.cuts hv hs).2.2.1
    · dsimp only at hflag ⊢
      have hcuts := (hpass.cuts hv hs).2.2
      by_cases hir : i = r
      · rw [hir]
        rcases hl with rfl | ⟨rfl, hur, heq⟩
        · exact .inl ⟨by omega, hcuts⟩
        -- the pivot is repeated, so it is not one of the values below `a`
        · have hge : a ≤ x l := by
            by_contra hlt
            have hsame := hd.rearranged hpass.rearranged hv s.u (by omega) l (by omega) heq
              (heq.trans_lt (not_le.mp hlt))
            omega
          refine .inr ⟨le_rfl, hcuts.1, fun j hj hjn => ?_⟩
          by_cases hjl : j = l
          · rw [hjl]
            exact hge
          · exact hge.trans (hcuts.2 l (Nat.lt_succ_self l) j (by omega) hjn)
      · rcases hf.rearranged hpass.rearranged hv hi (flags_of_update hir hflag) with
          ⟨hout, hplaced⟩ | ⟨hle, hmore⟩
        · exact .inl ⟨by omega, hplaced⟩
        · exact .inr ⟨by omega, hmore⟩

/-- **What is kept by an iteration of the main loop.** -/
theorem step_spec {s : Search α} (h : s.InRange n index) (hfuel : n ≤ fuel) :
    (∃ entries, step n fuel index s = some (.found entries (entries.x index)) ∧
      Found n index s entries) ∨
    ∃ s', step n fuel index s = some (.next s') ∧ Next n index s s' := by
  have hv := h.length
  rw [step]
  split
  next hpair =>
      obtain ⟨entries, heq, hfound⟩ := sortPair_found h hpair
      refine .inl ⟨entries, ?_, hfound⟩
      rw [heq]
      rfl
  next hlong =>
      obtain ⟨x, l, r, heq, hpass⟩ := pass_spec (n := n) (show s.u + 2 ≤ s.v by omega) hv hfuel s.x
      have hr : r < n := by
        have hupper := hpass.upper
        omega
      obtain ⟨hless, hmore⟩ := pass_next h (by omega) hpass
      simp only [heq, setFlag_eq hr, entry_eq hr, Option.bind_eq_bind, Option.bind_some]
      split
      next hindex =>
          obtain rfl := hindex
          refine .inl ⟨_, rfl, hpass.rearranged, fun hs => (hpass.cuts hv hs).2.2,
            fun hs hflagged => ?_⟩
          have hcuts := (hpass.cuts hv hs).2.2
          refine hflagged.placed h hpass.rearranged hcuts.1 hcuts.2 fun i hi hflag => ?_
          by_cases hir : i = index
          · rw [hir]
            exact .inr hcuts
          · exact .inl (flags_of_update hir hflag)
      next hne =>
          split
          next hlt => exact .inr ⟨_, rfl, hless hlt⟩
          next hge => exact .inr ⟨_, rfl, hmore (by omega)⟩

/-- **The main loop ends** with the entry at the index, and it is an order statistic. The flags
keep their meaning if no smaller value is repeated. -/
theorem search_spec {s : Search α} {bound : ℕ} (h : s.InRange n index) (hfuel : n ≤ fuel)
    (hbound : s.v - s.u < bound) :
    ∃ entries, search n fuel index bound s = some (entries, entries.x index) ∧
      Rearranged 0 (n - 1) s.x entries.x ∧
      (s.Cuts n → Cut n entries.x index ∧ Cut n entries.x (index + 1)) ∧
      (s.Cuts n → DistinctBelow n s.x (entries.x index) → s.Flagged n (entries.x index) →
        entries.Placed n) := by
  induction bound generalizing s with
  | zero => omega
  | succ bound ih =>
      have hv := h.length
      rw [search]
      rcases step_spec h hfuel with ⟨entries, heq, hfound⟩ | ⟨s', heq, hnext⟩
      · refine ⟨entries, ?_, hfound.rearranged.mono (by omega) (by omega), hfound.cuts,
          fun hs _ hflagged => hfound.placed hs hflagged⟩
        rw [heq]
        rfl
      · have hshorter := hnext.shorter
        obtain ⟨entries, hsearch, hrearranged, hcuts, hplaced⟩ := ih hnext.inRange (by omega)
        refine ⟨entries, ?_, (hnext.rearranged.mono (by omega) (by omega)).trans hrearranged,
          fun hs => hcuts (hnext.cuts hs), fun hs hd hflagged => ?_⟩
        · rw [heq]
          exact hsearch
        · exact hplaced (hnext.cuts hs) (hd.rearranged hnext.rearranged hv)
            (hnext.flagged _ hd hs hflagged)

/-! ### The subrange -/

theorem lowerFlag_spec (flags : ℕ → Bool) (h : index < n) : ∃ u, lowerFlag n flags index = some u ∧
    u ≤ index ∧ (∀ i, u < i → i ≤ index → flags i = false) ∧ (u = 0 ∨ flags u = true) := by
  induction index with
  | zero => exact ⟨0, rfl, le_rfl, by omega, .inl rfl⟩
  | succ u ih =>
      rw [lowerFlag, entry_eq h, Option.bind_eq_bind, Option.bind_some]
      split
      next hflag => exact ⟨u + 1, rfl, le_rfl, by omega, .inr hflag⟩
      next hflag =>
          obtain ⟨u', heq, hle, hclear, hend⟩ := ih (by omega)
          refine ⟨u', heq, by omega, fun i hi hi' => ?_, hend⟩
          by_cases hiu : i = u + 1
          · rw [hiu]
            simpa using hflag
          · exact hclear i hi (by omega)

theorem upperFlag_spec (flags : ℕ → Bool) {d v : ℕ} (h : v + d < n) :
    ∃ v', upperFlag n flags d v = some v' ∧ v ≤ v' ∧ v' ≤ v + d ∧
      (∀ i, v ≤ i → i < v' → flags i = false) ∧ (v' = v + d ∨ flags v' = true) := by
  induction d generalizing v with
  | zero => exact ⟨v, rfl, le_rfl, le_rfl, by omega, .inl rfl⟩
  | succ d ih =>
      rw [upperFlag, entry_eq (by omega), Option.bind_eq_bind, Option.bind_some]
      split
      next hflag => exact ⟨v, rfl, le_rfl, by omega, by omega, .inr hflag⟩
      next hflag =>
          obtain ⟨v', heq, hle, hle', hclear, hend⟩ := ih (v := v + 1) (by omega)
          refine ⟨v', heq, by omega, by omega, fun i hi hi' => ?_, hend.imp (by omega) id⟩
          by_cases hiv : i = v
          · rw [hiv]
            simpa using hflag
          · exact hclear i (by omega) hi'

/-- **The subrange is between two flagged entries**, and its entries are not flagged. -/
theorem subrange_spec {flags : ℕ → Bool} (h : index < n) (hflag : flags index = false) :
    ∃ u v, subrange n flags index = some (u, v) ∧ (u ≤ index ∧ index ≤ v ∧ v < n) ∧
      (∀ i, u ≤ i → i ≤ v → flags i = false) ∧
      (u = 0 ∨ 0 < u ∧ flags (u - 1) = true) ∧ (v + 1 = n ∨ v + 1 < n ∧ flags (v + 1) = true) := by
  obtain ⟨u, hlower, hu, hclear, hend⟩ := lowerFlag_spec flags h
  obtain ⟨v, hupper, hv, hv', hclear', hend'⟩ :=
    upperFlag_spec (n := n) flags (d := n - 1 - index) (v := index) (by omega)
  have hne : ∀ i, flags i = true → i ≠ index := by
    rintro i hi rfl
    rw [hflag] at hi
    cases hi
  obtain ⟨u', hu', hle, hleft, hstart⟩ : ∃ u', (if flags u = true then u + 1 else u) = u' ∧
      u' ≤ index ∧ (∀ i, u' ≤ i → i ≤ index → flags i = false) ∧
      (u' = 0 ∨ 0 < u' ∧ flags (u' - 1) = true) := by
    split
    next hf =>
        have hindex := hne u hf
        exact ⟨u + 1, rfl, by omega, fun i hi => hclear i (by omega), .inr ⟨by omega, hf⟩⟩
    next hf =>
        refine ⟨u, rfl, hu, fun i hi hi' => ?_, .inl (hend.resolve_right hf)⟩
        by_cases hiu : i = u
        · rw [hiu]
          simpa using hf
        · exact hclear i (by omega) hi'
  obtain ⟨v', hv'', hle', hright, hstop⟩ : ∃ v', (if flags v = true then v - 1 else v) = v' ∧
      index ≤ v' ∧ (∀ i, index ≤ i → i ≤ v' → flags i = false) ∧
      (v' + 1 = n ∨ v' + 1 < n ∧ flags (v' + 1) = true) := by
    split
    next hf =>
        have hindex := hne v hf
        have hsucc : v - 1 + 1 = v := by omega
        refine ⟨v - 1, rfl, by omega, fun i hi hi' => hclear' i hi (by omega), .inr ?_⟩
        rw [hsucc]
        exact ⟨by omega, hf⟩
    next hf =>
        refine ⟨v, rfl, hv, fun i hi hi' => ?_, .inl ?_⟩
        · by_cases hiv : i = v
          · rw [hiv]
            simpa using hf
          · exact hclear' i hi (by omega)
        · have hlast := hend'.resolve_right hf
          omega
  refine ⟨u', v', ?_, by omega, fun i hi hi' => ?_, hstart, hstop⟩
  · simp only [subrange, hlower, hupper, entry_eq (show u < n by omega),
      entry_eq (show v < n by omega), Option.bind_eq_bind, Option.bind_some, hu', hv'']
  · by_cases hindex : i ≤ index
    · exact hleft i hi hindex
    · exact hright i (by omega) hi'

/-- **A selection.** It ends with any flags. The entry is an order statistic if all flagged entries
are in their places. They still are after the selection if no value below the order statistic is
repeated. -/
theorem findOrderedEntryWithFlags_spec (entries : Entries α) (h : index < n) (hfuel : n ≤ fuel) :
    ∃ entries', findOrderedEntryWithFlags n fuel entries index =
        some (entries', entries'.x index) ∧
      Rearranged 0 (n - 1) entries.x entries'.x ∧
      (entries.Placed n → Cut n entries'.x index ∧ Cut n entries'.x (index + 1)) ∧
      (entries.Placed n → DistinctBelow n entries.x (entries'.x index) → entries'.Placed n) := by
  rw [findOrderedEntryWithFlags, entry_eq h, Option.bind_eq_bind, Option.bind_some]
  split
  next hflag =>
      refine ⟨entries, ?_, .refl _ _ _, fun hplaced => hplaced index h hflag,
        fun hplaced _ => hplaced⟩
      rw [entry_eq h]
      rfl
  next hflag =>
      obtain ⟨u, v, heq, ⟨hu, hv, hlength⟩, hclear, hstart, hstop⟩ :=
        subrange_spec h (by simpa using hflag)
      obtain ⟨entries', hsearch, hrearranged, hcuts, hplaced⟩ := search_spec
        (s := ⟨entries, u, v⟩) ⟨hu, hv, hlength⟩ hfuel (show v - u < fuel by omega)
      -- the flagged entries next to the subrange separate it from the others
      have hs : entries.Placed n → Search.Cuts n ⟨entries, u, v⟩ := by
        intro hp
        constructor
        · rcases hstart with rfl | ⟨hpos, hflag⟩
          · exact cut_zero n _
          · have hcut := (hp (u - 1) (by omega) hflag).2
            rw [Nat.sub_add_cancel hpos] at hcut
            exact hcut
        · rcases hstop with hn | ⟨hlt, hflag⟩
          · dsimp only
            rw [hn]
            exact cut_length _
          · exact (hp (v + 1) hlt hflag).1
      refine ⟨entries', ?_, hrearranged, fun hp => hcuts (hs hp), fun hp hd => ?_⟩
      · rw [heq]
        exact hsearch
      · refine hplaced (hs hp) hd fun i hi hflag => .inl ⟨?_, hp i hi hflag⟩
        by_contra hin
        dsimp only at hin hflag
        rw [hclear i (by omega) (by omega)] at hflag
        cases hflag

theorem start_placed (x : ℕ → α) : (Entries.start x).Placed n := nofun

/-! ### The median -/

/-- **Two selections.** The second one is right if no value below the first result is repeated. -/
theorem select_two {i j : ℕ} (hi : i < n) (hj : j < n) (hfuel : n ≤ fuel) (x : ℕ → α) {s : List α}
    (hperm : s.Perm ((List.range n).map x)) (hs : s.Pairwise (· ≤ ·)) : ∃ entries entries',
      findOrderedEntryWithFlags n fuel (.start x) i = some (entries, entries.x i) ∧
      findOrderedEntryWithFlags n fuel entries j = some (entries', entries'.x j) ∧
      s[i]? = some (entries.x i) ∧
      (DistinctBelow n x (entries.x i) →
        s[j]? = some (entries'.x j) ∧ entries.Placed n ∧
          s.Perm ((List.range n).map entries.x)) := by
  obtain ⟨entries, hfirst, hrearranged, hcuts, hplaced⟩ :=
    findOrderedEntryWithFlags_spec (.start x) hi hfuel
  obtain ⟨entries', hsecond, hrearranged', hcuts', -⟩ :=
    findOrderedEntryWithFlags_spec entries hj hfuel
  have hlast : n - 1 < n := by omega
  have hp := start_placed (n := n) x
  have hperm' : s.Perm ((List.range n).map entries.x) :=
    hperm.trans (hrearranged.perm hlast).symm
  have hperm'' : s.Perm ((List.range n).map entries'.x) :=
    hperm'.trans (hrearranged'.perm hlast).symm
  refine ⟨entries, entries', hfirst, hsecond, ?_, fun hd => ⟨?_, hplaced hp hd, hperm'⟩⟩
  · exact sorted_getElem?_of_cut hi (hcuts hp).1 (hcuts hp).2 hperm' hs
  · obtain ⟨hcut, hcut'⟩ := hcuts' (hplaced hp hd)
    exact sorted_getElem?_of_cut hj hcut hcut' hperm'' hs

/-- The median of a sorted list. -/
def sortedMedian [Field α] (s : List α) : Option α := do
  let k := s.length / 2
  if s.length % 2 = 1 then s[k]?
  else
    let left ← s[k]?
    let right ← s[k - 1]?
    some (0.5 * (left + right))

theorem firstIndex_lt (hpos : 0 < n) (leftFirst : Bool) : firstIndex n leftFirst < n := by
  rw [firstIndex]
  split
  · omega
  · omega

/-- Both selections of the median end, and the result is right if no value below the first one is
repeated. -/
theorem exists_rgrFindMedian [Field α] (hpos : 0 < n) (hle : n ≤ maxPoints) (hfuel : n ≤ fuel)
    (leftFirst : Bool) (x : ℕ → α) {s : List α} (hperm : s.Perm ((List.range n).map x))
    (hs : s.Pairwise (· ≤ ·)) :
    ∃ m, rgrFindMedian n fuel leftFirst x = some m ∧
      (n % 2 = 1 ∨ (∀ a, s[firstIndex n leftFirst]? = some a → DistinctBelow n x a) →
        sortedMedian s = some m) := by
  have hlength : s.length = n := by
    rw [hperm.length_eq, List.length_map, List.length_range]
  have hi := firstIndex_lt hpos leftFirst
  -- the other index for an even number of entries
  have hj : n / 2 - 1 + n / 2 - firstIndex n leftFirst < n := by omega
  obtain ⟨entries, entries', hfirst, hsecond, hvalue, hsafe⟩ :=
    select_two hi hj hfuel x hperm hs
  rw [rgrFindMedian, if_pos ⟨hpos, hle⟩, findMedian, sortedMedian, hlength]
  dsimp only
  by_cases hodd : n % 2 = 1
  · have hindex : firstIndex n leftFirst = n / 2 := if_pos (.inl hodd)
    rw [hindex] at hfirst hvalue
    rw [if_pos hodd, if_pos hodd, hfirst]
    exact ⟨_, rfl, fun _ => hvalue⟩
  · rw [if_neg hodd, if_neg hodd]
    cases leftFirst with
    | true =>
        have hindex : firstIndex n true = n / 2 := if_pos (.inr rfl)
        have hother : n / 2 - 1 + n / 2 - n / 2 = n / 2 - 1 := by omega
        rw [hindex] at hfirst hsecond hvalue hsafe ⊢
        rw [hother] at hsecond hsafe
        rw [if_pos rfl, hfirst, Option.bind_eq_bind, Option.bind_some]
        dsimp only
        rw [hsecond]
        refine ⟨_, rfl, fun hor => ?_⟩
        rw [hvalue, (hsafe (hor.resolve_left hodd _ hvalue)).1]
        rfl
    | false =>
        have hindex : firstIndex n false = n / 2 - 1 := if_neg (by simp [hodd])
        have hother : n / 2 - 1 + n / 2 - (n / 2 - 1) = n / 2 := by omega
        rw [hindex] at hfirst hsecond hvalue hsafe ⊢
        rw [hother] at hsecond hsafe
        rw [if_neg (by decide), hfirst, Option.bind_eq_bind, Option.bind_some]
        dsimp only
        rw [hsecond]
        refine ⟨_, rfl, fun hor => ?_⟩
        rw [hvalue, (hsafe (hor.resolve_left hodd _ hvalue)).1]
        rfl

/-- The median of any array is found. -/
theorem rgrFindMedian_isSome [Field α] (hpos : 0 < n) (hle : n ≤ maxPoints) (hfuel : n ≤ fuel)
    (leftFirst : Bool) (x : ℕ → α) : ∃ m, rgrFindMedian n fuel leftFirst x = some m := by
  have hperm := List.perm_insertionSort (· ≤ ·) ((List.range n).map x)
  have hsorted := List.pairwise_insertionSort (· ≤ ·) ((List.range n).map x)
  obtain ⟨m, hm, -⟩ := exists_rgrFindMedian hpos hle hfuel leftFirst x hperm hsorted
  exact ⟨m, hm⟩

end Lemmas

end Chrony.Regress
