import Chrony.Lib.Run
import Chrony.Sources.Passes

/-!
# The Soundness of the Selection

When `SRC_SelectSource` updates the reference, the selected source and all combined sources
satisfy the requirements on selectable sources and agree with the best interval, a majority
of the selectable sources has a point in common, and the options of the sources are
respected. This holds for every table, whatever the earlier calls were.

## Main results

* `selectSource_sound`: what a call which updates the reference guarantees.
-/

namespace Chrony.Sources

open Lib Lib.IntervalSweep

variable {cfg : Config} {env : Env}

/-- The sources whose majority is required: the selectable ones, and only the trusted ones
of them if there are any. -/
def considered (sources : List Source) : Finset ℕ :=
  if ∃ i ∈ okSet sources, trusted sources i = true then
    (okSet sources).filter fun i => trusted sources i
  else okSet sources

/-- **What is guaranteed about a selection** which updates the reference. The table `p` is
the one in which the search was made, with the result `w`. -/
structure SoundSelection (cfg : Config) (env : Env) (p : List Source) (w : Sweep) (s' : State)
    (ref : Reference) : Prop where
  /-- The selected and the combined sources satisfy the requirements and agree with the
  best interval. -/
  used : ∀ i, s'.selected = some i ∨ i ∈ ref.combined → ∃ src, s'.sources[i]? = some src ∧
    Selectable cfg env i src ∧ w.Agrees src.selInfo
  selected : ∃ k, s'.selected = some k
  /-- Some point lies in the intervals of more than half of the considered sources. -/
  majority : ∃ x, (considered p).card <
    2 * ((considered p).filter fun i => loAt p i ≤ x ∧ x ≤ hiAt p i).card
  /-- Enough sources pass the search. -/
  minSources : cfg.minSources ≤ (okSet (p.map (judge w))).card
  /-- If any source is required, a required one passes. -/
  require : (∃ src ∈ s'.sources, src.selOptions.require = true) →
    ∃ i ∈ okSet (p.map (judge w)), ∃ src, s'.sources[i]? = some src ∧
      src.selOptions.require = true
  /-- If a preferred source passes, only preferred ones are used. -/
  prefer : (∃ i ∈ okSet (p.map (judge w)), ∃ src, s'.sources[i]? = some src ∧
    src.selOptions.prefer = true) →
    ∀ i, s'.selected = some i ∨ i ∈ ref.combined → ∃ src, s'.sources[i]? = some src ∧
      src.selOptions.prefer = true

/-! ### Counting -/

/-- Counting entries of a table by their positions. -/
theorem card_filter_range (sources : List Source) (q : Source → Bool) :
    ((Finset.range sources.length).filter fun i => sources[i]?.any q).card =
      sources.countP q := by
  have hlist : ((Finset.range sources.length).filter fun i => sources[i]?.any q) =
      ((sources.zipIdx.filter fun a => q a.1).map (·.2)).toFinset := by
    ext i
    rw [Finset.mem_filter, Finset.mem_range, List.mem_toFinset, List.mem_map]
    constructor
    · rintro ⟨hlt, hq⟩
      rw [List.getElem?_eq_getElem hlt] at hq
      refine ⟨(sources[i], i), List.mem_filter.mpr ⟨?_, by simpa using hq⟩, rfl⟩
      exact List.mem_zipIdx_iff_getElem?.mpr (List.getElem?_eq_getElem hlt)
    · rintro ⟨⟨src, j⟩, hmem, rfl⟩
      obtain ⟨hmem, hq⟩ := List.mem_filter.mp hmem
      have hget := List.mem_zipIdx_iff_getElem?.mp hmem
      dsimp only at hget ⊢
      rw [hget]
      exact ⟨(List.getElem?_eq_some_iff.mp hget).1, by simpa using hq⟩
  have hnodup : ((sources.zipIdx.filter fun a => q a.1).map (·.2)).Nodup := by
    have hmap : (sources.zipIdx.map Prod.snd).Nodup := by
      rw [List.zipIdx_map_snd]
      exact List.nodup_range'
    exact hmap.sublist (List.filter_sublist.map Prod.snd)
  rw [hlist, List.toFinset_card_of_nodup hnodup, List.length_map, ← List.countP_eq_length_filter]
  conv_rhs => rw [← List.zipIdx_map_fst 0 sources]
  rw [List.countP_map]
  rfl

theorem card_okSet (sources : List Source) : (okSet sources).card = countOk sources :=
  card_filter_range sources fun src => src.status = .ok

theorem card_okSet_trusted (sources : List Source) :
    ((okSet sources).filter fun i => trusted sources i).card =
      sources.countP fun src => src.status = .ok && src.selOptions.trust := by
  rw [← card_filter_range, okSet, Finset.filter_filter]
  congr 1
  refine Finset.filter_congr fun i _ => ?_
  rw [trusted]
  cases sources[i]? with
  | none => simp
  | some src => simp

/-! ### The majority -/

/-- **A majority of the considered sources has a point in common.** -/
theorem majority_of_sweep {p : List Source} {l : List SortElement} {w : Sweep}
    (hsorted : Sorted (okSet p) (loAt p) (hiAt p) l) (hinv : SweepInv p l w)
    (hdepth : ¬w.NoMajority p (countOk p)) :
    ∃ x, (considered p).card <
      2 * ((considered p).filter fun i => loAt p i ≤ x ∧ x ≤ hiAt p i).card := by
  rw [Sweep.NoMajority] at hdepth
  by_cases htrust : w.bestTrustDepth > 0
  · rw [if_pos htrust, if_pos htrust, ← card_okSet_trusted] at hdepth
    obtain ⟨t, hcommon, ht, hcard⟩ := hinv.bestTrust
    obtain ⟨i, hi⟩ : t.Nonempty := by
      rw [← Finset.card_pos]
      omega
    refine ⟨w.bestTrustLo, ?_⟩
    rw [considered, if_pos ⟨i, (hcommon i hi).1, ht i hi⟩]
    have hsub : t ⊆ ((okSet p).filter fun i => trusted p i).filter
        fun i => loAt p i ≤ w.bestTrustLo ∧ w.bestTrustLo ≤ hiAt p i := by
      intro j hj
      rw [Finset.mem_filter, Finset.mem_filter]
      exact ⟨⟨(hcommon j hj).1, ht j hj⟩, (hcommon j hj).2⟩
    have := Finset.card_le_card hsub
    omega
  · rw [if_neg htrust, if_neg htrust, ← card_okSet] at hdepth
    have hzero : w.bestTrustDepth = 0 := le_antisymm (not_lt.mp htrust) hinv.bestTrustDepth_nonneg
    have hnone : ¬∃ i ∈ okSet p, trusted p i = true := by
      rintro ⟨i, hi, htrusted⟩
      have := hinv.noTrust hzero _ (hsorted.low_mem i hi) rfl
      rw [htrusted] at this
      cases this
    obtain ⟨t, hcommon, hcard⟩ := hinv.best
    refine ⟨w.bestLo, ?_⟩
    rw [considered, if_neg hnone]
    have hsub : t ⊆ (okSet p).filter fun i => loAt p i ≤ w.bestLo ∧ w.bestLo ≤ hiAt p i := by
      intro j hj
      rw [Finset.mem_filter]
      exact hcommon j hj
    have := Finset.card_le_card hsub
    omega

/-! ### The selection -/

/-- A selection which updates the reference gets to the scores. -/
theorem selectPassing_reference {w : Sweep} {p : List Source} {selected updated : Option ℕ}
    {s' : State} {ref : Reference}
    (h : selectPassing cfg env w (p.map (judge w)) selected updated =
      .ok (s', some (.setReference ref))) :
    selReqSource (p.map (judge w)) = false ∧ cfg.minSources ≤ countOk (p.map (judge w)) ∧
      scoreSources cfg env (passSources w p).1 (passSources w p).2 selected updated =
        .ok (s', some (.setReference ref)) := by
  rw [selectPassing] at h
  split at h
  · cases h
  next hcond =>
      rw [not_or, not_or, Bool.not_eq_true, not_lt] at hcond
      refine ⟨hcond.2.1, hcond.2.2, ?_⟩
      dsimp only at h
      split at h
      · cases h
      · exact h

theorem selectAgreeing_reference {p : Prepared} {selected updated : Option ℕ} {s' : State}
    {ref : Reference} (h : selectAgreeing cfg env p selected updated =
      .ok (s', some (.setReference ref))) :
    ∃ w, sweep p.sources (env.qsort.sort (endpoints p.sources)) = .ok w ∧
      ¬w.NoMajority p.sources p.nSelSources ∧
      selectPassing cfg env w (p.sources.map (judge w)) selected updated =
        .ok (s', some (.setReference ref)) := by
  rw [selectAgreeing] at h
  split at h
  · cases h
  next w hw =>
      refine ⟨w, hw, ?_⟩
      split at h
      · cases h
      split at h
      · cases h
      split at h
      · simp only [Except.ok.injEq, Prod.mk.injEq] at h
        split at h <;> cases h.2
      next hdepth => exact ⟨hdepth, h⟩

theorem selectSource_reference {s s' : State} {updated : Option ℕ} {ref : Reference}
    (h : selectSource cfg env s updated = .ok (s', some (.setReference ref))) :
    selectAgreeing cfg env (prepare cfg env (countUpdate s.sources updated)) s.selected updated =
      .ok (s', some (.setReference ref)) := by
  rw [selectSource] at h
  dsimp only at h
  split at h
  · cases h
  split at h
  · cases h
  split at h
  · cases h
  split at h
  · cases h
  · exact h

theorem Judged.selOptions {a b : Source} (h : Judged a b) : b.selOptions = a.selOptions := by
  obtain ⟨_, _, _, rfl⟩ := h
  rfl

theorem Ranked.selOptions {a b : Source} (h : Ranked a b) : b.selOptions = a.selOptions := by
  obtain ⟨_, _, _, _, rfl⟩ := h
  rfl

theorem mem_okSet_map {p : List Source} {f : Source → Source} {i : ℕ} :
    i ∈ okSet (p.map f) ↔ ∃ src, p[i]? = some src ∧ (f src).status = .ok := by
  rw [mem_okSet]
  constructor
  · rintro ⟨src, hsrc, hok⟩
    rw [List.getElem?_map] at hsrc
    obtain ⟨a, ha, rfl⟩ := Option.map_eq_some_iff.mp hsrc
    exact ⟨a, ha, hok⟩
  · rintro ⟨src, hsrc, hok⟩
    exact ⟨f src, by rw [List.getElem?_map, hsrc]; rfl, hok⟩

/-- A required source passes when there is a required source. -/
theorem exists_required_of_selReqSource {p : List Source} {w : Sweep} {src : Source}
    (h : selReqSource (p.map (judge w)) = false) (hmem : src ∈ p)
    (hrequire : src.selOptions.require = true) :
    ∃ (i : ℕ) (a : Source), p[i]? = some a ∧ (judge w a).status = .ok ∧
      a.selOptions.require = true := by
  have hany : (p.map (judge w)).any (·.selOptions.require) = true := by
    rw [List.any_eq_true]
    exact ⟨judge w src, List.mem_map_of_mem hmem, (judge_spec w src).1.selOptions ▸ hrequire⟩
  rw [selReqSource, hany, Bool.true_and, Bool.not_eq_false', List.any_eq_true] at h
  obtain ⟨b, hb, hok⟩ := h
  obtain ⟨a, ha, rfl⟩ := List.mem_map.mp hb
  obtain ⟨i, hi⟩ := List.mem_iff_getElem?.mp ha
  rw [Bool.and_eq_true, decide_eq_true_eq] at hok
  exact ⟨i, a, hi, hok.1, (judge_spec w a).1.selOptions ▸ hok.2⟩

/-- A preferred source which passes makes the selection prefer. -/
theorem passSources_prefer {p : List Source} {w : Sweep} {src : Source}
    (hok : (judge w src).status = .ok) (hmem : src ∈ p)
    (hprefer : src.selOptions.prefer = true) : (passSources w p).1 = true := by
  obtain ⟨hj, -, hst⟩ := voteLeap_spec w (judge w src)
  refine List.any_eq_true.mpr ⟨voteLeap w (judge w src),
    List.mem_map_of_mem (List.mem_map_of_mem hmem), ?_⟩
  rw [hst, hok, ((judge_spec w src).1.trans hj).selOptions, hprefer]
  rfl

/-- **The selection is sound.** In every call of `SRC_SelectSource` which updates the
reference, for every table, the selected and the combined sources satisfy the requirements
and agree with the interval found by the search, and the majority, the minimum number of
sources and the options of the sources are respected. -/
theorem selectSource_sound (cfg : Config) (env : Env) (s s' : State) (updated : Option ℕ)
    (ref : Reference)
    (h : selectSource cfg env s updated = .ok (s', some (.setReference ref))) :
    ∃ w, sweep (prepare cfg env (countUpdate s.sources updated)).sources
        (env.qsort.sort (endpoints (prepare cfg env (countUpdate s.sources updated)).sources)) =
          .ok w ∧
      SoundSelection cfg env (prepare cfg env (countUpdate s.sources updated)).sources
        w s' ref := by
  obtain ⟨hcandidate, hcount⟩ := prepare_spec cfg env (countUpdate s.sources updated)
  have hagreeing := selectSource_reference h
  set P := prepare cfg env (countUpdate s.sources updated)
  obtain ⟨w, hw, hdepth, hpassing⟩ := selectAgreeing_reference hagreeing
  obtain ⟨hreq, hmin, hscore⟩ := selectPassing_reference hpassing
  have hpass := passSources_spec w P.sources
  set T := (passSources w P.sources).2
  have hsel : ∀ a ∈ T, a.status ≠ .selected := by
    intro b hb
    obtain ⟨i, hi⟩ := List.mem_iff_getElem?.mp hb
    obtain ⟨a, ha, hab⟩ := hpass.exists_left hi
    obtain ⟨_, _, hcand⟩ := hcandidate.exists_left ha
    exact hab.status_ne hcand.2.1
  obtain ⟨hranked, -, hreference⟩ := scoreSources_outcome hsel hscore
  obtain ⟨k, hk, hkT, hcombined⟩ := hreference ref rfl
  dsimp only at hranked hk
  have hused : ∀ i, s'.selected = some i ∨ i ∈ ref.combined → i ∈ okSet T := by
    rintro i (hi | hi)
    · rw [hk] at hi
      cases hi
      exact hkT
    · exact hcombined i hi
  -- the entries of the final table come from the entries of the table of the search
  have hright : ∀ (i : ℕ) (a : Source), P.sources[i]? = some a →
      ∃ c, s'.sources[i]? = some c ∧ c.selOptions = a.selOptions := by
    intro i a ha
    obtain ⟨b, hb, hab⟩ := hpass.exists_right ha
    obtain ⟨c, hc, hbc⟩ := hranked.exists_right hb
    exact ⟨c, hc, hbc.1.selOptions.trans hab.judged.selOptions⟩
  have hleft : ∀ (i : ℕ) (c : Source), s'.sources[i]? = some c →
      ∃ a, P.sources[i]? = some a ∧ c.selOptions = a.selOptions := by
    intro i c hc
    obtain ⟨b, hb, hbc⟩ := hranked.exists_left hc
    obtain ⟨a, ha, hab⟩ := hpass.exists_left hb
    exact ⟨a, ha, hbc.1.selOptions.trans hab.judged.selOptions⟩
  have hintervals : Intervals P.sources := by
    intro a ha hok
    obtain ⟨i, hi⟩ := List.mem_iff_getElem?.mp ha
    obtain ⟨_, _, hcand⟩ := hcandidate.exists_left hi
    exact (hcand.2.2 hok).lo_le_hi
  obtain ⟨w', hw', -, -, hinv⟩ := sweep_spec env.qsort hintervals
  obtain rfl : w' = w := Except.ok.inj (hw'.symm.trans hw)
  refine ⟨w', hw, ?_, ⟨k, hk⟩, ?_, ?_, ?_, ?_⟩
  · intro i hi
    obtain ⟨b, hb, hok⟩ := mem_okSet.mp (hused i hi)
    obtain ⟨a, ha, hab⟩ := hpass.exists_left hb
    obtain ⟨c, hc, ⟨_, _, _, _, rfl⟩, -⟩ := hranked.exists_right hb
    obtain ⟨hoka, hagrees⟩ := (judge_spec w' a).2.2.2 (hab.ok_iff.mp hok).1
    obtain ⟨_, _, hcand⟩ := hcandidate.exists_left ha
    refine ⟨_, hc, (hcand.2.2 hoka).congr hab.judged.selOptions hab.selInfo ?_ ?_, ?_⟩
    · obtain ⟨_, _, _, heq⟩ := hab.judged
      rw [heq]
    · obtain ⟨_, _, _, heq⟩ := hab.judged
      rw [heq]
    · dsimp only
      rw [hab.selInfo]
      exact hagrees
  · rw [hcount] at hdepth
    exact majority_of_sweep (sorted_endpoints env.qsort hintervals) hinv hdepth
  · rw [card_okSet]
    exact hmin
  · rintro ⟨c, hcmem, hcreq⟩
    obtain ⟨j, hj⟩ := List.mem_iff_getElem?.mp hcmem
    obtain ⟨a, ha, hopt⟩ := hleft j c hj
    rw [hopt] at hcreq
    obtain ⟨i, a', ha', hok, hreq'⟩ :=
      exists_required_of_selReqSource hreq (List.mem_of_getElem? ha) hcreq
    obtain ⟨c', hc', hopt'⟩ := hright i a' ha'
    exact ⟨i, mem_okSet_map.mpr ⟨a', ha', hok⟩, c', hc', hopt' ▸ hreq'⟩
  · rintro ⟨i, hi, c, hc, hprefer⟩ j hj
    obtain ⟨a, ha, hok⟩ := mem_okSet_map.mp hi
    obtain ⟨a', ha', hopt⟩ := hleft i c hc
    obtain rfl : a = a' := Option.some.inj (ha.symm.trans ha')
    have hpref := passSources_prefer hok (List.mem_of_getElem? ha) (hopt ▸ hprefer)
    obtain ⟨b, hb, hokb⟩ := mem_okSet.mp (hused j hj)
    obtain ⟨a', ha', hab⟩ := hpass.exists_left hb
    obtain ⟨c', hc', hopt'⟩ := hright j a' ha'
    exact ⟨c', hc', hopt' ▸ (hab.ok_iff.mp hokb).2 hpref⟩

/-- A configuration for the examples, close to the defaults. -/
def sampleConfig : Config where
  maxDistance := 3
  maxJitter := 1
  maxStratum := 15
  minStratum := 0
  reselectDistance := 1 / 10000
  stratumWeight := 1 / 1000
  combineLimit := 3
  minSources := 1
  authSelectMode := .mix

/-- Statistics for the examples: the third source is five seconds off. -/
def sampleEnv : Env where
  stats i :=
    { nSamples := 8
      maxSamples := 64
      regressionOk := true
      stdDev := 1 / 1000
      offset := if i = 2 then 5 else i / 100
      rootDistance := 1 / 10
      firstSampleAgo := 512
      lastSampleAgo := 1 }
  tracking i :=
    { refTime := ⟨100, 0⟩
      offset := i / 100
      offsetSd := 1 / 1000
      frequency := 0
      frequencySd := 1 / 1000000
      skew := 1 / 1000000
      rootDelay := 1 / 10
      rootDispersion := 1 / 20 }
  maxClockError := 1 / 1000000
  orphanStratum := 16
  localRefid _ := 0
  qsort := .insertion

/-- A reachable source for the examples. -/
def sampleSource (index : ℕ) : Source where
  index
  refId := 1
  ipAddr := .inet4 1
  active := true
  reachability := 255
  reachabilitySize := 8
  unreachableRun := 0
  maxUnreachableRun := 100000
  updates := 0
  distant := 0
  status := .badStats
  type := .ntp
  authenticated := false
  confSelOptions := .none
  selOptions := .none
  selScore := 1
  selInfo := ⟨0, 0, 0, 0, 0⟩
  stratum := 1
  leap := .normal
  leapVote := false

/-- Two of three sources agree, and are combined. -/
theorem selectSource_sound_two_of_three :
    ∃ s' ref w,
      selectSource sampleConfig sampleEnv ⟨[sampleSource 0, sampleSource 1, sampleSource 2], none⟩
        (some 0) = .ok (s', some (.setReference ref)) ∧
      (s'.selected, ref.combined) = (some 0, [0, 1]) ∧
      SoundSelection sampleConfig sampleEnv (prepare sampleConfig sampleEnv
        (countUpdate [sampleSource 0, sampleSource 1, sampleSource 2] (some 0))).sources
          w s' ref := by
  obtain ⟨⟨s', call⟩, hr, hcall⟩ := exists_ok_of_map_toOption (b := (some 0, some [0, 1]))
    (f := fun r => (r.1.selected, r.2.bind fun
      | .setUnsynchronised => none
      | .setReference ref => some ref.combined))
    (show (selectSource sampleConfig sampleEnv
      ⟨[sampleSource 0, sampleSource 1, sampleSource 2], none⟩ (some 0)).toOption.map _ = _ by
        decide +kernel)
  rcases call with _ | _ | ref
  · cases congrArg Prod.snd hcall
  · cases congrArg Prod.snd hcall
  · obtain ⟨w, -, hsound⟩ := selectSource_sound sampleConfig sampleEnv _ s' (some 0) ref hr
    exact ⟨s', ref, w, hr, by simpa using hcall, hsound⟩

end Chrony.Sources
