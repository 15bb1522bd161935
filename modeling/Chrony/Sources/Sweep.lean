import Mathlib.Data.List.Sort
import Chrony.Lib.Run
import Chrony.Sources.Selection

/-!
# The Search for the Best Interval

The search of `SRC_SelectSource` visits the endpoints of the selectable sources in order.
Its two depths are the numbers of active intervals, so the assertions hold, and the best
depths are numbers of intervals which have a point in common.

## Main results

* `sweep_spec`: the search does not fail, and both depths are zero at its end.
* `SweepInv.best`, `SweepInv.bestTrust`: the best depths are reached at a point.
-/

namespace Chrony.Sources

open Lib Lib.IntervalSweep

/-! ### The intervals of the selectable sources -/

/-- The positions of the sources whose status is still `SRC_OK`. -/
def okSet (sources : List Source) : Finset ℕ :=
  (Finset.range sources.length).filter fun i => sources[i]?.any fun src => src.status = .ok

/-- The low endpoint of the source at a position. -/
def loAt (sources : List Source) (i : ℕ) : ℚ :=
  (sources[i]?.map fun src => src.selInfo.loLimit).getD 0

/-- The high endpoint of the source at a position. -/
def hiAt (sources : List Source) (i : ℕ) : ℚ :=
  (sources[i]?.map fun src => src.selInfo.hiLimit).getD 0

/-- Selectable sources have intervals. -/
def Intervals (sources : List Source) : Prop :=
  ∀ src ∈ sources, src.status = .ok → src.selInfo.loLimit ≤ src.selInfo.hiLimit

variable {sources : List Source} {i : ℕ}

theorem mem_okSet : i ∈ okSet sources ↔ ∃ src, sources[i]? = some src ∧ src.status = .ok := by
  rw [okSet, Finset.mem_filter, Finset.mem_range]
  constructor
  · rintro ⟨hlt, hok⟩
    rw [List.getElem?_eq_getElem hlt] at hok ⊢
    exact ⟨_, rfl, by simpa using hok⟩
  · rintro ⟨src, hsrc, hok⟩
    refine ⟨(List.getElem?_eq_some_iff.mp hsrc).1, ?_⟩
    rw [hsrc]
    simpa using hok

theorem loAt_eq {src : Source} (h : sources[i]? = some src) :
    loAt sources i = src.selInfo.loLimit := by
  rw [loAt, h]
  rfl

theorem hiAt_eq {src : Source} (h : sources[i]? = some src) :
    hiAt sources i = src.selInfo.hiLimit := by
  rw [hiAt, h]
  rfl

theorem mem_endpoints {e : SortElement} :
    e ∈ endpoints sources ↔ ∃ src, sources[e.index]? = some src ∧ src.status = .ok ∧
      (e = ⟨e.index, src.selInfo.loLimit, .low⟩ ∨ e = ⟨e.index, src.selInfo.hiLimit, .high⟩) := by
  rw [endpoints, List.mem_flatMap]
  constructor
  · rintro ⟨⟨src, i⟩, hmem, he⟩
    have hget := List.mem_zipIdx_iff_getElem?.mp hmem
    dsimp only at hget he
    split at he
    next hok =>
        rcases List.mem_cons.mp he with rfl | he
        · exact ⟨src, hget, hok, .inl rfl⟩
        · rw [List.mem_singleton.mp he]
          exact ⟨src, hget, hok, .inr rfl⟩
    next => cases he
  · rintro ⟨src, hget, hok, he⟩
    refine ⟨(src, e.index), List.mem_zipIdx_iff_getElem?.mpr hget, ?_⟩
    dsimp only
    rw [if_pos hok]
    rcases he with he | he
    · rw [he]
      exact List.mem_cons_self
    · rw [he]
      exact List.mem_cons_of_mem _ (List.mem_singleton.mpr rfl)

theorem endpoints_nodup (sources : List Source) : (endpoints sources).Nodup := by
  rw [endpoints, List.nodup_flatMap]
  constructor
  · rintro ⟨src, i⟩ -
    dsimp only
    split
    · simp
    · exact List.nodup_nil
  · have hidx : sources.zipIdx.Pairwise fun a b => a.2 ≠ b.2 := by
      have hmap : (sources.zipIdx.map Prod.snd).Nodup := by
        rw [List.zipIdx_map_snd]
        exact List.nodup_range'
      exact List.pairwise_map.mp hmap
    refine hidx.imp ?_
    rintro ⟨a, i⟩ ⟨b, j⟩ hne e he he'
    dsimp only at hne he he'
    refine hne ?_
    split at he
    · split at he'
      · have h1 : e.index = i := by
          rcases List.mem_cons.mp he with rfl | he
          · rfl
          · rw [List.mem_singleton.mp he]
        have h2 : e.index = j := by
          rcases List.mem_cons.mp he' with rfl | he'
          · rfl
          · rw [List.mem_singleton.mp he']
        exact h1.symm.trans h2
      · cases he'
    · cases he

theorem length_endpoints (sources : List Source) :
    (endpoints sources).length = 2 * countOk sources := by
  have hgen : ∀ n, ((sources.zipIdx n).flatMap fun p =>
      if p.1.status = .ok then
        [(⟨p.2, p.1.selInfo.loLimit, .low⟩ : SortElement), ⟨p.2, p.1.selInfo.hiLimit, .high⟩]
      else []).length = 2 * countOk sources := by
    induction sources with
    | nil => exact fun _ => rfl
    | cons src sources ih =>
        intro n
        rw [List.zipIdx_cons, List.flatMap_cons, List.length_append, ih, countOk, countOk,
          List.countP_cons]
        dsimp only
        by_cases hok : src.status = .ok
        · rw [if_pos hok, if_pos (decide_eq_true hok)]
          simp only [List.length_cons, List.length_nil]
          omega
        · rw [if_neg hok, if_neg (by simpa using hok)]
          simp only [List.length_nil]
          omega
  exact hgen 0

/-- The comparison of `qsort` is the order of visits. -/
theorem compareSortElements_le_zero_iff {u v : SortElement} :
    compareSortElements u v ≤ 0 ↔ u.LE v := by
  rw [compareSortElements, Endpoint.LE]
  rcases lt_trichotomy u.offset v.offset with hlt | heq | hgt
  · rw [if_pos hlt]
    exact ⟨fun _ => .inl hlt, fun _ => by decide⟩
  · rw [if_neg heq.not_lt, if_neg heq.not_gt]
    simp only [heq, lt_irrefl, false_or, true_and]
    cases u.tag <;> cases v.tag <;> decide
  · rw [if_neg hgt.not_gt, if_pos hgt]
    refine ⟨fun h => absurd h (by decide), ?_⟩
    rintro (hlt | ⟨heq, -⟩)
    · exact absurd hlt hgt.not_gt
    · exact absurd heq hgt.ne'

instance : Std.Total fun u v : SortElement => compareSortElements u v ≤ 0 where
  total u v := by
    simp only [compareSortElements_le_zero_iff]
    exact Endpoint.LE.total u v

instance : IsTrans SortElement fun u v => compareSortElements u v ≤ 0 where
  trans u v w := by
    simp only [compareSortElements_le_zero_iff]
    exact Endpoint.LE.trans

/-- An insertion sort is a `qsort`. -/
def Qsort.insertion : Qsort where
  sort l := l.insertionSort fun u v => compareSortElements u v ≤ 0
  perm l := l.perm_insertionSort _
  sorted l := l.pairwise_insertionSort _

/-- The sorted endpoints of the selectable sources. -/
theorem sorted_endpoints (qsort : Qsort) (h : Intervals sources) :
    Sorted (okSet sources) (loAt sources) (hiAt sources) (qsort.sort (endpoints sources)) := by
  have hperm := qsort.perm (endpoints sources)
  refine ⟨?_, ?_, ?_, ?_, ?_, ?_⟩
  · intro i hi
    obtain ⟨src, hsrc, hok⟩ := mem_okSet.mp hi
    rw [hperm.mem_iff, mem_endpoints]
    exact ⟨src, hsrc, hok, .inl (by rw [loAt_eq hsrc])⟩
  · intro i hi
    obtain ⟨src, hsrc, hok⟩ := mem_okSet.mp hi
    rw [hperm.mem_iff, mem_endpoints]
    exact ⟨src, hsrc, hok, .inr (by rw [hiAt_eq hsrc])⟩
  · intro e he
    rw [hperm.mem_iff, mem_endpoints] at he
    obtain ⟨src, hsrc, hok, he⟩ := he
    rw [loAt_eq hsrc, hiAt_eq hsrc]
    exact ⟨mem_okSet.mpr ⟨src, hsrc, hok⟩, he⟩
  · exact hperm.nodup_iff.mpr (endpoints_nodup sources)
  · exact (qsort.sorted _).imp compareSortElements_le_zero_iff.mp
  · intro i hi
    obtain ⟨src, hsrc, hok⟩ := mem_okSet.mp hi
    rw [loAt_eq hsrc, hiAt_eq hsrc]
    exact h src (List.mem_of_getElem? hsrc) hok

/-! ### The search -/

/-- The intervals of the positions contain the point. -/
def Common (sources : List Source) (x : ℚ) (t : Finset ℕ) : Prop :=
  ∀ i ∈ t, i ∈ okSet sources ∧ loAt sources i ≤ x ∧ x ≤ hiAt sources i

/-- The active intervals of trusted sources. -/
def activeTrusted (sources : List Source) (l : List SortElement) : Finset ℕ :=
  (active l).filter fun i => trusted sources i

/-- **The invariant of the search** after the endpoints `l` are visited. -/
structure SweepInv (sources : List Source) (l : List SortElement) (w : Sweep) : Prop where
  depth : w.depth = (active l).card
  trustDepth : w.trustDepth = (activeTrusted sources l).card
  bestDepth_nonneg : 0 ≤ w.bestDepth
  bestTrustDepth_nonneg : 0 ≤ w.bestTrustDepth
  /-- The best depth is reached by intervals with a point in common. -/
  best : ∃ t, Common sources w.bestLo t ∧ (t.card : ℤ) = w.bestDepth
  /-- So is the best depth of trusted sources. -/
  bestTrust : ∃ t, Common sources w.bestTrustLo t ∧ (∀ i ∈ t, trusted sources i = true) ∧
    (t.card : ℤ) = w.bestTrustDepth
  /-- The best depth of trusted sources is zero only without trusted sources. -/
  noTrust : w.bestTrustDepth = 0 → ∀ e ∈ l, e.tag = .low → trusted sources e.index = false

theorem SweepInv.init (sources : List Source) : SweepInv sources [] .init where
  depth := rfl
  trustDepth := rfl
  bestDepth_nonneg := le_refl _
  bestTrustDepth_nonneg := le_refl _
  best := ⟨∅, fun i hi => absurd hi (Finset.notMem_empty i), rfl⟩
  bestTrust := ⟨∅, fun i hi => absurd hi (Finset.notMem_empty i),
    fun i hi => absurd hi (Finset.notMem_empty i), rfl⟩
  noTrust _ e he := by cases he

section Step

variable {w : Sweep} {e : SortElement} {l₁ l₂ : List SortElement}

/-- The active trusted intervals after a low endpoint. -/
theorem card_activeTrusted_low
    (h : Sorted (okSet sources) (loAt sources) (hiAt sources) (l₁ ++ e :: l₂))
    (htag : e.tag = .low) :
    (activeTrusted sources (l₁ ++ [e])).card =
      (activeTrusted sources l₁).card + if trusted sources e.index then 1 else 0 := by
  obtain ⟨hnot, hactive⟩ := h.active_low htag
  rw [activeTrusted, hactive, Finset.filter_insert]
  split
  · rw [Finset.card_insert_of_notMem (fun hmem => hnot (Finset.mem_filter.mp hmem).1)]
    rfl
  · rfl

/-- The active trusted intervals after a high endpoint. -/
theorem card_activeTrusted_high
    (h : Sorted (okSet sources) (loAt sources) (hiAt sources) (l₁ ++ e :: l₂))
    (htag : e.tag = .high) :
    (activeTrusted sources (l₁ ++ [e])).card + (if trusted sources e.index then 1 else 0) =
      (activeTrusted sources l₁).card := by
  obtain ⟨hmem, hactive⟩ := h.active_high htag
  rw [activeTrusted, hactive, Finset.filter_erase]
  split
  next htrust =>
      exact Finset.card_erase_add_one (Finset.mem_filter.mpr ⟨hmem, htrust⟩)
  next htrust =>
      have hnot : e.index ∉ (active l₁).filter fun i => trusted sources i :=
        fun hmem' => htrust (Finset.mem_filter.mp hmem').2
      rw [Finset.erase_eq_of_notMem hnot]
      rfl

theorem card_activeTrusted_le (sources : List Source) (l : List SortElement) :
    (activeTrusted sources l).card ≤ (active l).card :=
  Finset.card_le_card (Finset.filter_subset _ _)

/-- What is active after a low endpoint has its offset in common. -/
theorem common_active (h : Sorted (okSet sources) (loAt sources) (hiAt sources) (l₁ ++ e :: l₂))
    (htag : e.tag = .low) : Common sources e.offset (active (l₁ ++ [e])) :=
  fun _ hi => h.mem_Icc_of_mem_active htag hi

theorem SweepInv.visitLow (hinv : SweepInv sources l₁ w)
    (h : Sorted (okSet sources) (loAt sources) (hiAt sources) (l₁ ++ e :: l₂))
    (htag : e.tag = .low) :
    SweepInv sources (l₁ ++ [e]) (w.visitLow (trusted sources e.index) e.offset) := by
  obtain ⟨hnot, hactive⟩ := h.active_low htag
  have hcommon := common_active h htag
  have hdepth : w.depth + 1 = ((active (l₁ ++ [e])).card : ℤ) := by
    rw [hinv.depth, hactive, Finset.card_insert_of_notMem hnot, Nat.cast_add_one]
  have hcard := card_activeTrusted_low h htag
  have htrust : (if trusted sources e.index then w.trustDepth + 1 else w.trustDepth) =
      ((activeTrusted sources (l₁ ++ [e])).card : ℤ) := by
    rw [hinv.trustDepth, hcard]
    split <;> push_cast <;> omega
  have hbest := hinv.bestTrustDepth_nonneg
  have hbest' := hinv.bestDepth_nonneg
  -- a trusted endpoint which does not improve the best depth is not the first trusted one
  have hnoTrust : ¬((activeTrusted sources (l₁ ++ [e])).card : ℤ) > w.bestTrustDepth →
      w.bestTrustDepth = 0 → ∀ e' ∈ l₁ ++ [e], e'.tag = .low →
        trusted sources e'.index = false := by
    intro hle hzero e' he' htag'
    rcases List.mem_append.mp he' with he' | he'
    · exact hinv.noTrust hzero e' he' htag'
    · rw [List.mem_singleton.mp he', ← Bool.not_eq_true]
      intro htrusted
      rw [if_pos htrusted] at hcard
      omega
  rw [Sweep.visitLow]
  dsimp only
  rw [hdepth, htrust]
  by_cases hgt : ((activeTrusted sources (l₁ ++ [e])).card : ℤ) > w.bestTrustDepth
  · rw [if_pos (.inl hgt), if_pos hgt]
    refine ⟨rfl, rfl, by dsimp only; omega, by dsimp only; omega, ⟨_, hcommon, rfl⟩, ?_, ?_⟩
    · refine ⟨activeTrusted sources (l₁ ++ [e]), ?_, ?_, rfl⟩
      · exact fun i hi => hcommon i (Finset.mem_filter.mp hi).1
      · exact fun i hi => (Finset.mem_filter.mp hi).2
    · intro hzero
      dsimp only at hzero
      omega
  · rw [if_neg hgt]
    split
    · exact ⟨rfl, rfl, by dsimp only; omega, hbest, ⟨_, hcommon, rfl⟩, hinv.bestTrust,
        hnoTrust hgt⟩
    · exact ⟨rfl, rfl, hbest', hbest, hinv.best, hinv.bestTrust, hnoTrust hgt⟩

theorem SweepInv.visitHigh (hinv : SweepInv sources l₁ w)
    (h : Sorted (okSet sources) (loAt sources) (hiAt sources) (l₁ ++ e :: l₂))
    (htag : e.tag = .high) :
    SweepInv sources (l₁ ++ [e]) (w.visitHigh (trusted sources e.index) e.offset) := by
  obtain ⟨hmem, hactive⟩ := h.active_high htag
  have hdepth : w.depth - 1 = ((active (l₁ ++ [e])).card : ℤ) := by
    have := Finset.card_erase_add_one hmem
    rw [hinv.depth, hactive]
    omega
  have hcard := card_activeTrusted_high h htag
  have htrust : (if trusted sources e.index then w.trustDepth - 1 else w.trustDepth) =
      ((activeTrusted sources (l₁ ++ [e])).card : ℤ) := by
    rw [hinv.trustDepth, ← hcard]
    split <;> push_cast <;> omega
  have hnoTrust : w.bestTrustDepth = 0 → ∀ e' ∈ l₁ ++ [e], e'.tag = .low →
      trusted sources e'.index = false := by
    intro hzero e' he' htag'
    rcases List.mem_append.mp he' with he' | he'
    · exact hinv.noTrust hzero e' he' htag'
    · rw [List.mem_singleton.mp he', htag] at htag'
      cases htag'
  rw [Sweep.visitHigh]
  split
  · exact ⟨hdepth, htrust, hinv.bestDepth_nonneg, hinv.bestTrustDepth_nonneg, hinv.best,
      hinv.bestTrust, hnoTrust⟩
  · exact ⟨hdepth, htrust, hinv.bestDepth_nonneg, hinv.bestTrustDepth_nonneg, hinv.best,
      hinv.bestTrust, hnoTrust⟩

/-- One iteration of the search does not fail. -/
theorem SweepInv.visit (hinv : SweepInv sources l₁ w)
    (h : Sorted (okSet sources) (loAt sources) (hiAt sources) (l₁ ++ e :: l₂)) :
    ∃ w', w.visit (trusted sources) e = .ok w' ∧ SweepInv sources (l₁ ++ [e]) w' := by
  have hok : ∀ w', SweepInv sources (l₁ ++ [e]) w' →
      (if ¬w'.trustDepth ≤ w'.depth then (.error .trustDepthLeDepth : Except Assertion Sweep)
        else if ¬w'.trustDepth ≥ 0 then .error .trustDepthNonneg else .ok w') = .ok w' := by
    intro w' hw'
    have hle := card_activeTrusted_le sources (l₁ ++ [e])
    rw [if_neg (by rw [hw'.depth, hw'.trustDepth]; omega),
      if_neg (by rw [hw'.trustDepth]; omega)]
  rw [Sweep.visit]
  cases htag : e.tag with
  | low => exact ⟨_, hok _ (hinv.visitLow h htag), hinv.visitLow h htag⟩
  | high => exact ⟨_, hok _ (hinv.visitHigh h htag), hinv.visitHigh h htag⟩

end Step

/-- **The search does not fail**, and its depths are zero at the end. -/
theorem sweep_spec (qsort : Qsort) (h : Intervals sources) :
    ∃ w, sweep sources (qsort.sort (endpoints sources)) = .ok w ∧ w.depth = 0 ∧
      w.trustDepth = 0 ∧ SweepInv sources (qsort.sort (endpoints sources)) w := by
  have hsorted := sorted_endpoints qsort h
  obtain ⟨w, hsweep, hinv⟩ : ∃ w, sweep sources (qsort.sort (endpoints sources)) = .ok w ∧
      SweepInv sources (qsort.sort (endpoints sources)) w :=
    foldlM_ok_of_prefix (fun l₁ e l₂ w hl hinv => hinv.visit (hl ▸ hsorted)) (.init sources)
  have hactive := hsorted.active_all
  refine ⟨w, hsweep, ?_, ?_, hinv⟩
  · rw [hinv.depth, hactive]
    rfl
  · rw [hinv.trustDepth, activeTrusted, hactive]
    rfl

end Chrony.Sources
