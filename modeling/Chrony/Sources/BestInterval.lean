import Mathlib.Data.Int.ConditionallyCompleteOrder
import Mathlib.Data.Prod.Lex
import Chrony.Lib.SweepBest
import Chrony.Sources.Soundness

/-!
# The Best Interval

The search of `SRC_SelectSource` finds the points which are in the largest number of intervals of
trusted sources, and of all sources among those. The result depends only on the intervals: not on
the order of the sources in the table, and not on the order in which equal endpoints are visited.

## Main results

* `sweep_best`: the best depths, the best interval, and the verdicts.
-/

namespace Chrony.Sources

open Lib Lib.IntervalSweep

/-- The interval of a selectable source contains the point. -/
def Source.Contains (src : Source) (x : ℚ) : Prop :=
  src.status = .ok ∧ src.selInfo.loLimit ≤ x ∧ x ≤ src.selInfo.hiLimit

instance (src : Source) (x : ℚ) : Decidable (src.Contains x) :=
  inferInstanceAs (Decidable (_ ∧ _))

/-- The number of intervals which contain the point. -/
def depthAt (sources : List Source) (x : ℚ) : ℕ :=
  sources.countP fun src => src.Contains x

/-- The number of intervals of trusted sources which contain the point. -/
def trustDepthAt (sources : List Source) (x : ℚ) : ℕ :=
  sources.countP fun src => src.Contains x ∧ src.selOptions.trust

/-- The two numbers in the order in which they are compared. -/
def depthsAt (sources : List Source) (x : ℚ) : ℤ ×ₗ ℤ :=
  toLex ((trustDepthAt sources x : ℤ), (depthAt sources x : ℤ))

variable {sources : List Source}

/-! ### The values of sets of intervals -/

/-- The number of trusted sources. -/
def trustValue (sources : List Source) (t : Finset ℕ) : ℤ :=
  (t.filter fun i => trusted sources i).card

/-- The numbers of trusted sources and of all sources. -/
def depthsValue (sources : List Source) (t : Finset ℕ) : ℤ ×ₗ ℤ :=
  toLex (trustValue sources t, (t.card : ℤ))

theorem trustValue_mono (sources : List Source) : Monotone (trustValue sources) := by
  intro t t' h
  exact Int.ofNat_le.mpr (Finset.card_le_card (Finset.filter_subset_filter _ h))

theorem depthsValue_mono (sources : List Source) : Monotone (depthsValue sources) := by
  intro t t' h
  rw [depthsValue, depthsValue, Prod.Lex.toLex_le_toLex]
  rcases (trustValue_mono sources h).lt_or_eq with hlt | heq
  · exact .inl hlt
  · exact .inr ⟨heq, Int.ofNat_le.mpr (Finset.card_le_card h)⟩

/-- The positions of sources are counted. -/
theorem card_eq_countP {t : Finset ℕ} {p : Source → Bool}
    (h : ∀ i, i ∈ t ↔ ∃ src, sources[i]? = some src ∧ p src = true) :
    t.card = sources.countP p := by
  induction sources using List.reverseRecOn generalizing t with
  | nil =>
      have hempty : t = ∅ := Finset.eq_empty_of_forall_notMem fun i hi => by
        simpa using (h i).mp hi
      rw [hempty]
      rfl
  | append_singleton l src ih =>
      have hold : ∀ i, i ∈ t.erase l.length ↔ ∃ src, l[i]? = some src ∧ p src = true := by
        intro i
        rw [Finset.mem_erase, h]
        constructor
        · rintro ⟨hne, src', hget, hp⟩
          have hlt := (List.getElem?_eq_some_iff.mp hget).1
          rw [List.length_append, List.length_singleton] at hlt
          rw [List.getElem?_append_left (by omega)] at hget
          exact ⟨src', hget, hp⟩
        · rintro ⟨src', hget, hp⟩
          have hlt := (List.getElem?_eq_some_iff.mp hget).1
          refine ⟨by omega, src', ?_, hp⟩
          rw [List.getElem?_append_left hlt]
          exact hget
      have hlast : l.length ∈ t ↔ p src = true := by
        rw [h]
        simp
      rw [List.countP_append, ← ih hold]
      by_cases hp : p src = true
      · rw [← Finset.card_erase_add_one (hlast.mpr hp)]
        simp [hp]
      · rw [Finset.erase_eq_of_notMem fun hmem => hp (hlast.mp hmem)]
        simp [hp]

theorem mem_containing_iff {x : ℚ} {i : ℕ} :
    i ∈ containing (okSet sources) (loAt sources) (hiAt sources) x ↔
      ∃ src, sources[i]? = some src ∧ src.Contains x := by
  rw [mem_containing, mem_okSet]
  constructor
  · rintro ⟨⟨src, hsrc, hok⟩, hlo, hhi⟩
    rw [loAt_eq hsrc] at hlo
    rw [hiAt_eq hsrc] at hhi
    exact ⟨src, hsrc, hok, hlo, hhi⟩
  · rintro ⟨src, hsrc, hok, hlo, hhi⟩
    rw [loAt_eq hsrc, hiAt_eq hsrc]
    exact ⟨⟨src, hsrc, hok⟩, hlo, hhi⟩

/-- **The intervals which contain a point are counted.** -/
theorem trustValue_containing (sources : List Source) (x : ℚ) :
    trustValue sources (containing (okSet sources) (loAt sources) (hiAt sources) x) =
      trustDepthAt sources x := by
  rw [trustValue, trustDepthAt, Nat.cast_inj]
  refine card_eq_countP fun i => ?_
  rw [Finset.mem_filter, mem_containing_iff]
  constructor
  · rintro ⟨⟨src, hsrc, hcontains⟩, htrust⟩
    rw [trusted, hsrc] at htrust
    exact ⟨src, hsrc, decide_eq_true ⟨hcontains, by simpa using htrust⟩⟩
  · rintro ⟨src, hsrc, hp⟩
    obtain ⟨hcontains, htrust⟩ := of_decide_eq_true hp
    refine ⟨⟨src, hsrc, hcontains⟩, ?_⟩
    rw [trusted, hsrc]
    simpa using htrust

theorem depthsValue_containing (sources : List Source) (x : ℚ) :
    depthsValue sources (containing (okSet sources) (loAt sources) (hiAt sources) x) =
      depthsAt sources x := by
  rw [depthsValue, depthsAt, trustValue_containing, depthAt]
  congr 3
  refine card_eq_countP fun i => ?_
  rw [mem_containing_iff]
  simp

/-! ### The search -/

/-- What the search records for both depths. -/
def Sweep.best (w : Sweep) : Best (ℤ ×ₗ ℤ) ℚ :=
  ⟨toLex (w.bestTrustDepth, w.bestDepth), w.bestLo, w.bestHi⟩

/-- What the search records for trusted sources. -/
def Sweep.bestTrust (w : Sweep) : Best ℤ ℚ :=
  ⟨w.bestTrustDepth, w.bestTrustLo, w.bestTrustHi⟩

theorem visitLow_best (w : Sweep) (trust : Bool) {e : SortElement} (htag : e.tag = .low)
    (before : ℤ ×ₗ ℤ) (before' : ℤ) :
    let w' := w.visitLow trust e.offset
    w'.best = w.best.visit e before (toLex (w'.trustDepth, w'.depth)) ∧
      w'.bestTrust = w.bestTrust.visit e before' w'.trustDepth := by
  simp only [Best.visit, htag, Sweep.visitLow, Sweep.best, Sweep.bestTrust,
    Prod.Lex.toLex_lt_toLex]
  generalize (if trust then w.trustDepth + 1 else w.trustDepth) = t
  by_cases hgt : t > w.bestTrustDepth
  · simp [hgt]
  · by_cases hbetter : t = w.bestTrustDepth ∧ w.depth + 1 > w.bestDepth
    · simp [hbetter]
    · have hnot : ¬(w.bestTrustDepth < t ∨ w.bestTrustDepth = t ∧ w.bestDepth < w.depth + 1) := by
        omega
      rw [if_neg (by tauto), if_neg hnot, if_neg hgt]
      exact ⟨rfl, rfl⟩

theorem visitHigh_best (w : Sweep) (trust : Bool) {e : SortElement} (htag : e.tag = .high)
    (after : ℤ ×ₗ ℤ) (after' : ℤ) :
    let w' := w.visitHigh trust e.offset
    w'.best = w.best.visit e (toLex (w.trustDepth, w.depth)) after ∧
      w'.bestTrust = w.bestTrust.visit e w.trustDepth after' := by
  simp only [Best.visit, htag, Sweep.visitHigh, Sweep.best, Sweep.bestTrust]
  by_cases htrust : w.trustDepth = w.bestTrustDepth
  · by_cases hdepth : w.depth = w.bestDepth
    · simp [htrust, hdepth]
    · simp [htrust, hdepth]
  · simp [htrust]

/-- **The invariant of the search with what is recorded.** -/
structure BestInv (sources : List Source) (l : List SortElement) (w : Sweep) : Prop where
  sweep : SweepInv sources l w
  best : w.best.Inv (depthsValue sources) l
  bestTrust : w.bestTrust.Inv (trustValue sources) l

theorem BestInv.init (sources : List Source) : BestInv sources [] .init :=
  ⟨.init sources, .init (depthsValue sources) 0 0, .init (trustValue sources) 0 0⟩

theorem SweepInv.depthsValue {l : List SortElement} {w : Sweep} (h : SweepInv sources l w) :
    depthsValue sources (active l) = toLex (w.trustDepth, w.depth) := by
  rw [h.trustDepth, h.depth]
  rfl

theorem SweepInv.trustValue {l : List SortElement} {w : Sweep} (h : SweepInv sources l w) :
    trustValue sources (active l) = w.trustDepth := h.trustDepth.symm

theorem visit_eq {w w' : Sweep} {e : SortElement} {trust : ℕ → Bool}
    (h : w.visit trust e = .ok w') :
    (e.tag = .low ∧ w' = w.visitLow (trust e.index) e.offset) ∨
      (e.tag = .high ∧ w' = w.visitHigh (trust e.index) e.offset) := by
  rw [Sweep.visit] at h
  cases htag : e.tag with
  | low =>
      rw [htag] at h
      dsimp only at h
      split at h
      · cases h
      · split at h
        · cases h
        · exact .inl ⟨rfl, (Except.ok.inj h).symm⟩
  | high =>
      rw [htag] at h
      dsimp only at h
      split at h
      · cases h
      · split at h
        · cases h
        · exact .inr ⟨rfl, (Except.ok.inj h).symm⟩

/-- One iteration of the search. -/
theorem BestInv.visit {w : Sweep} {e : SortElement} {l₁ l₂ : List SortElement}
    (hinv : BestInv sources l₁ w)
    (h : Sorted (okSet sources) (loAt sources) (hiAt sources) (l₁ ++ e :: l₂)) :
    ∃ w', w.visit (trusted sources) e = .ok w' ∧ BestInv sources (l₁ ++ [e]) w' := by
  obtain ⟨w', hvisit, hsweep⟩ := hinv.sweep.visit h
  have hbest := hinv.best.visit (depthsValue_mono sources) h
  have hbestTrust := hinv.bestTrust.visit (trustValue_mono sources) h
  rw [hinv.sweep.depthsValue, hsweep.depthsValue] at hbest
  rw [hinv.sweep.trustValue, hsweep.trustValue] at hbestTrust
  have heq : w'.best = w.best.visit e (toLex (w.trustDepth, w.depth))
        (toLex (w'.trustDepth, w'.depth)) ∧
      w'.bestTrust = w.bestTrust.visit e w.trustDepth w'.trustDepth := by
    rcases visit_eq hvisit with ⟨htag, rfl⟩ | ⟨htag, rfl⟩
    · exact visitLow_best w _ htag _ _
    · exact visitHigh_best w _ htag _ _
  refine ⟨w', hvisit, hsweep, ?_, ?_⟩
  · rw [heq.1]
    exact hbest
  · rw [heq.2]
    exact hbestTrust

/-! ### The result -/

/-- **The best values**, as far as they are used. -/
structure Sweep.IsBest (w : Sweep) (sources : List Source) : Prop where
  depth : w.depth = 0
  trustDepth : w.trustDepth = 0
  le : ∀ x, depthsAt sources x ≤ toLex (w.bestTrustDepth, w.bestDepth)
  isLeast : IsLeast {x | depthsAt sources x = toLex (w.bestTrustDepth, w.bestDepth)} w.bestLo
  isGreatest : IsGreatest {x | depthsAt sources x = toLex (w.bestTrustDepth, w.bestDepth)} w.bestHi
  isLeastTrust : w.bestTrustDepth ≠ 0 →
    IsLeast {x | (trustDepthAt sources x : ℤ) = w.bestTrustDepth} w.bestTrustLo
  isGreatestTrust : w.bestTrustDepth ≠ 0 →
    IsGreatest {x | (trustDepthAt sources x : ℤ) = w.bestTrustDepth} w.bestTrustHi

theorem sweep_isBest (qsort : Qsort) (h : Intervals sources)
    (hok : ∃ src ∈ sources, src.status = .ok) :
    ∃ w, sweep sources (qsort.sort (endpoints sources)) = .ok w ∧ w.IsBest sources := by
  have hsorted := sorted_endpoints qsort h
  obtain ⟨w, hsweep, hinv⟩ : ∃ w, sweep sources (qsort.sort (endpoints sources)) = .ok w ∧
      BestInv sources (qsort.sort (endpoints sources)) w :=
    foldlM_ok_of_prefix (fun l₁ e l₂ w hl hinv => hinv.visit (hl ▸ hsorted)) (.init sources)
  have hactive := hsorted.active_all
  have hle : ∀ x, depthsAt sources x ≤ toLex (w.bestTrustDepth, w.bestDepth) := by
    intro x
    rw [← depthsValue_containing]
    exact hinv.best.containing_le hsorted x
  have hpos : depthsValue sources ∅ < w.best.value := by
    obtain ⟨src, hmem, hok⟩ := hok
    have hcontains : src.Contains src.selInfo.loLimit := ⟨hok, le_rfl, h src hmem hok⟩
    have hdepth : 0 < depthAt sources src.selInfo.loLimit :=
      List.countP_pos_iff.mpr ⟨src, hmem, decide_eq_true hcontains⟩
    refine lt_of_lt_of_le ?_ (hle src.selInfo.loLimit)
    rw [depthsAt, depthsValue, Prod.Lex.toLex_lt_toLex]
    have hzero : trustValue sources ∅ = 0 := rfl
    rw [hzero, Finset.card_empty]
    dsimp only
    omega
  have hposTrust : w.bestTrustDepth ≠ 0 → trustValue sources ∅ < w.bestTrust.value := by
    intro hne
    have hnonneg := hinv.sweep.bestTrustDepth_nonneg
    show 0 < w.bestTrustDepth
    omega
  refine ⟨w, hsweep, ?_, ?_, hle, ?_, ?_, fun hne => ?_, fun hne => ?_⟩
  · rw [hinv.sweep.depth, hactive]
    rfl
  · rw [hinv.sweep.trustDepth, activeTrusted, hactive]
    rfl
  · simp only [← depthsValue_containing]
    exact hinv.best.isLeast (depthsValue_mono sources) hsorted hpos
  · simp only [← depthsValue_containing]
    exact hinv.best.isGreatest (depthsValue_mono sources) hsorted hpos
  · simp only [← trustValue_containing]
    exact hinv.bestTrust.isLeast (trustValue_mono sources) hsorted (hposTrust hne)
  · simp only [← trustValue_containing]
    exact hinv.bestTrust.isGreatest (trustValue_mono sources) hsorted (hposTrust hne)

theorem depthsAt_perm {sources' : List Source} (h : sources'.Perm sources) (x : ℚ) :
    trustDepthAt sources' x = trustDepthAt sources x ∧
      depthsAt sources' x = depthsAt sources x := by
  have htrust : trustDepthAt sources' x = trustDepthAt sources x := h.countP_eq _
  have hdepth : depthAt sources' x = depthAt sources x := h.countP_eq _
  exact ⟨htrust, by rw [depthsAt, depthsAt, htrust, hdepth]⟩

/-- The two searches have the same best values, as far as they are used. -/
structure SameBest (w w' : Sweep) : Prop where
  bestDepth : w'.bestDepth = w.bestDepth
  bestTrustDepth : w'.bestTrustDepth = w.bestTrustDepth
  bestLo : w'.bestLo = w.bestLo
  bestHi : w'.bestHi = w.bestHi
  bestTrust : w.bestTrustDepth ≠ 0 →
    w'.bestTrustLo = w.bestTrustLo ∧ w'.bestTrustHi = w.bestTrustHi

/-- **The best values do not depend on the order of the sources.** -/
theorem Sweep.IsBest.same {sources' : List Source} {w w' : Sweep} (h : w.IsBest sources)
    (h' : w'.IsBest sources') (hperm : sources'.Perm sources) : SameBest w w' := by
  have hdepths : depthsAt sources' = depthsAt sources := funext fun x => (depthsAt_perm hperm x).2
  have htrustDepths : ∀ x, trustDepthAt sources' x = trustDepthAt sources x :=
    fun x => (depthsAt_perm hperm x).1
  have hle := h'.le
  have hleast := h'.isLeast
  have hgreatest := h'.isGreatest
  rw [hdepths] at hle hleast hgreatest
  have hvalue : toLex (w'.bestTrustDepth, w'.bestDepth) = toLex (w.bestTrustDepth, w.bestDepth) :=
    le_antisymm (hleast.1.symm.trans_le (h.le _)) (h.isLeast.1.symm.trans_le (hle _))
  obtain ⟨htrust, hdepth⟩ := Prod.mk.inj (toLex.injective hvalue)
  rw [hvalue] at hleast hgreatest
  refine ⟨hdepth, htrust, hleast.unique h.isLeast, hgreatest.unique h.isGreatest, fun hne => ?_⟩
  have hleast' := h'.isLeastTrust (by rwa [htrust])
  have hgreatest' := h'.isGreatestTrust (by rwa [htrust])
  simp only [htrust, htrustDepths] at hleast' hgreatest'
  exact ⟨hleast'.unique (h.isLeastTrust hne), hgreatest'.unique (h.isGreatestTrust hne)⟩

/-- The verdicts depend only on the best values. -/
theorem SameBest.judge {w w' : Sweep} (h : SameBest w w') (src : Source) :
    judge w' src = judge w src := by
  have hagrees : w'.Agrees src.selInfo ↔ w.Agrees src.selInfo := by
    rw [Sweep.Agrees, Sweep.Agrees, h.bestLo, h.bestHi]
  rw [Sources.judge, Sources.judge]
  by_cases hzero : w.bestTrustDepth = 0
  · simp only [hagrees, h.bestTrustDepth, hzero, true_or, not_true_eq_false, if_false]
  · obtain ⟨hlo, hhi⟩ := h.bestTrust hzero
    simp only [hagrees, h.bestTrustDepth, hlo, hhi]

theorem SameBest.noMajority {sources' : List Source} {w w' : Sweep} (h : SameBest w w')
    (hperm : sources'.Perm sources) :
    w'.NoMajority sources' (countOk sources') ↔ w.NoMajority sources (countOk sources) := by
  rw [Sweep.NoMajority, Sweep.NoMajority, h.bestTrustDepth, h.bestDepth, countOk, countOk,
    hperm.countP_eq, hperm.countP_eq]

/-- **The search finds the best interval.** The result and the verdicts depend neither on the
order of the sources nor on the order of equal endpoints. -/
theorem sweep_best (qsort : Qsort) (h : Intervals sources)
    (hok : ∃ src ∈ sources, src.status = .ok) :
    ∃ w, sweep sources (qsort.sort (endpoints sources)) = .ok w ∧ w.IsBest sources ∧
      ∀ (sources' : List Source) (qsort' : Qsort), sources'.Perm sources →
        ∃ w', sweep sources' (qsort'.sort (endpoints sources')) = .ok w' ∧ SameBest w w' ∧
          (w'.NoMajority sources' (countOk sources') ↔ w.NoMajority sources (countOk sources)) ∧
          ∀ src, Sources.judge w' src = Sources.judge w src := by
  obtain ⟨w, hsweep, hbest⟩ := sweep_isBest qsort h hok
  refine ⟨w, hsweep, hbest, fun sources' qsort' hperm => ?_⟩
  have hok' : ∃ src ∈ sources', src.status = .ok := by
    obtain ⟨src, hmem, hok⟩ := hok
    exact ⟨src, hperm.mem_iff.mpr hmem, hok⟩
  obtain ⟨w', hsweep', hbest'⟩ :=
    sweep_isBest qsort' (fun src hmem => h src (hperm.mem_iff.mp hmem)) hok'
  have hsame := hbest.same hbest' hperm
  exact ⟨w', hsweep', hsame, hsame.noMajority hperm, hsame.judge⟩

/-- A selectable source with an interval. -/
def sampleInterval (trust : Bool) (lo hi : ℚ) : Source :=
  { sampleSource 0 with
    status := .ok
    selInfo := { (sampleSource 0).selInfo with loLimit := lo, hiLimit := hi }
    selOptions := { (sampleSource 0).selOptions with trust } }

theorem sweep_best_three : ∃ w, sweep [sampleInterval false 0 2, sampleInterval true 1 3,
      sampleInterval false 3 4] (Qsort.insertion.sort (endpoints [sampleInterval false 0 2,
        sampleInterval true 1 3, sampleInterval false 3 4])) = .ok w ∧
    w.IsBest [sampleInterval false 0 2, sampleInterval true 1 3, sampleInterval false 3 4] ∧
    (w.bestLo, w.bestHi) = (1, 3) := by
  obtain ⟨w, hsweep, hbest, -⟩ := sweep_best Qsort.insertion
    (show ∀ src ∈ [sampleInterval false 0 2, sampleInterval true 1 3, sampleInterval false 3 4],
      src.status = .ok → src.selInfo.loLimit ≤ src.selInfo.hiLimit by decide +kernel)
    ⟨_, List.mem_cons_self, rfl⟩
  obtain ⟨w', hsweep', hvalues⟩ := exists_ok_of_map_toOption (show
    (sweep [sampleInterval false 0 2, sampleInterval true 1 3, sampleInterval false 3 4]
      (Qsort.insertion.sort (endpoints [sampleInterval false 0 2, sampleInterval true 1 3,
        sampleInterval false 3 4]))).toOption.map (fun w => (w.bestLo, w.bestHi)) =
      some (1, 3) by decide +kernel)
  obtain rfl := Except.ok.inj (hsweep.symm.trans hsweep')
  exact ⟨w, hsweep, hbest, hvalues⟩

end Chrony.Sources
