import Chrony.Lib.Pointwise
import Chrony.Sources.Sweep

/-!
# The Passes of the Selection

What each pass of `SRC_SelectSource` does to the table, position by position. The passes up
to the search change only the status, the limits and the leap vote of a source (`Judged`);
the passes after it change only the status, the score, the distance penalty and the number
of updates (`Ranked`).

## Main results

* `prepare_spec`: only sources which satisfy all requirements are selectable.
* `judge_spec`, `markNonpreferred_spec`: what is left after the search.
* `updateReference_outcome`, `chooseSource_outcome`: what a selection ends with.
-/

namespace Chrony.Sources

open Lib Lib.IntervalSweep

variable {cfg : Config} {env : Env} {sources : List Source} {i : ℕ} {src : Source}

/-- The passes up to the search. -/
def Judged (a b : Source) : Prop :=
  ∃ status selInfo leapVote, b = { a with status, selInfo, leapVote }

theorem Judged.refl (a : Source) : Judged a a :=
  ⟨_, _, _, rfl⟩

theorem Judged.trans {a b c : Source} (h : Judged a b) (h' : Judged b c) : Judged a c := by
  obtain ⟨_, _, _, rfl⟩ := h
  obtain ⟨_, _, _, rfl⟩ := h'
  exact ⟨_, _, _, rfl⟩

/-- **The requirements on a selectable source** at a position. -/
structure Selectable (cfg : Config) (env : Env) (i : ℕ) (src : Source) : Prop where
  noselect : src.selOptions.noselect = false
  /-- There are enough samples, from which the limits come. -/
  samples : ∃ data, getSelectionData cfg.maxJitter (env.stats i) = some (data, true) ∧
    src.selInfo = addExtraDispersion env.maxClockError data
  leap : src.leap ≠ .unsynchronised
  minStratum : cfg.minStratum ≤ src.stratum
  maxStratum : src.stratum ≤ cfg.maxStratum
  distance : src.selInfo.rootDistance ≤ cfg.maxDistance
  lo_le_hi : src.selInfo.loLimit ≤ src.selInfo.hiLimit
  jitter : src.selInfo.stdDev ≤ cfg.maxJitter

/-- The requirements do not depend on the status. -/
theorem Selectable.congr {src' : Source} (h : Selectable cfg env i src)
    (hoptions : src'.selOptions = src.selOptions) (hinfo : src'.selInfo = src.selInfo)
    (hleap : src'.leap = src.leap) (hstratum : src'.stratum = src.stratum) :
    Selectable cfg env i src' := by
  obtain ⟨h1, h2, h3, h4, h5, h6, h7, h8⟩ := h
  rw [← hoptions] at h1
  rw [← hinfo] at h2 h6 h7 h8
  rw [← hleap] at h3
  rw [← hstratum] at h4 h5
  exact ⟨h1, h2, h3, h4, h5, h6, h7, h8⟩

/-! ### Selectable sources -/

theorem buildInterval_spec (cfg : Config) (env : Env) (i : ℕ) (src : Source) :
    Judged src (buildInterval cfg env i src) ∧
      (buildInterval cfg env i src).status ≠ .selected ∧
      (buildInterval cfg env i src).status ≠ .orphan ∧
      ((buildInterval cfg env i src).status = .ok →
        Selectable cfg env i (buildInterval cfg env i src)) := by
  rw [buildInterval]
  dsimp only
  by_cases hnoselect : src.selOptions.noselect = true
  · rw [if_pos hnoselect]
    exact ⟨⟨_, _, _, rfl⟩, by simp, by simp, by simp⟩
  rw [if_neg hnoselect]
  match hdata : getSelectionData cfg.maxJitter (env.stats i) with
  | none => exact ⟨⟨_, _, _, rfl⟩, by simp, by simp, by simp⟩
  | some (data, false) => exact ⟨⟨_, _, _, rfl⟩, by simp, by simp, by simp⟩
  | some (data, true) =>
      dsimp only
      by_cases hleap : src.leap = .unsynchronised
      · rw [if_pos hleap]
        exact ⟨⟨_, _, _, rfl⟩, by simp, by simp, by simp⟩
      rw [if_neg hleap]
      by_cases hstratum : src.stratum < cfg.minStratum ∨ src.stratum > cfg.maxStratum
      · rw [if_pos hstratum]
        exact ⟨⟨_, _, _, rfl⟩, by simp, by simp, by simp⟩
      rw [if_neg hstratum]
      set info := addExtraDispersion env.maxClockError data with hinfo
      by_cases hdist : ¬(info.rootDistance ≤ cfg.maxDistance ∧ info.loLimit ≤ info.hiLimit)
      · rw [if_pos hdist]
        exact ⟨⟨_, _, _, rfl⟩, by simp, by simp, by simp⟩
      rw [if_neg hdist]
      rw [not_not] at hdist
      by_cases hjitter : info.stdDev > cfg.maxJitter
      · rw [if_pos hjitter]
        exact ⟨⟨_, _, _, rfl⟩, by simp, by simp, by simp⟩
      rw [if_neg hjitter]
      refine ⟨⟨_, _, _, rfl⟩, by simp, by simp, fun _ => ?_⟩
      exact ⟨Bool.not_eq_true _ ▸ hnoselect, ⟨data, hdata, hinfo⟩, hleap,
        not_lt.mp fun h => hstratum (.inl h), not_lt.mp fun h => hstratum (.inr h), hdist.1,
        hdist.2, not_lt.mp hjitter⟩

/-- After the second pass, also orphans satisfy the requirements. -/
theorem markStale_spec (env' : Env) (ago : ℚ) (hsel : src.status ≠ .selected)
    (horphan : src.status ≠ .orphan) (hok : src.status = .ok → Selectable cfg env i src) :
    Judged src (markStale env' ago src) ∧ (markStale env' ago src).status ≠ .selected ∧
      ((markStale env' ago src).status = .ok ∨ (markStale env' ago src).status = .orphan →
        Selectable cfg env i (markStale env' ago src)) := by
  rw [markStale]
  by_cases hst : src.status ≠ .ok
  · rw [if_pos hst]
    refine ⟨.refl _, hsel, ?_⟩
    rintro (h | h)
    · exact absurd h hst
    · exact absurd h horphan
  rw [if_neg hst]
  rw [not_not] at hst
  have hS := hok hst
  split
  · exact ⟨⟨_, _, _, rfl⟩, by simp, by simp⟩
  · split
    · exact ⟨⟨_, _, _, rfl⟩, by simp, fun _ => hS.congr rfl rfl rfl rfl⟩
    · exact ⟨.refl _, hsel, fun _ => hS⟩

/-- The orphan source is an orphan in the table. -/
theorem orphanSource_spec (h : orphanSource env sources = some (i, src)) :
    sources[i]? = some src ∧ src.status = .orphan := by
  suffices hbest : ∀ b ∈ orphanSource env sources,
      sources[b.1]? = some b.2 ∧ b.2.status = .orphan from hbest (i, src) h
  refine List.foldlRecOn (motive := fun best : Option (ℕ × Source) => ∀ b ∈ best,
    sources[b.1]? = some b.2 ∧ b.2.status = .orphan) _ _ (fun b hb => by cases hb) ?_
  rintro best hbest ⟨src', j⟩ hmem b hb
  dsimp only at hb
  split at hb
  next hcond =>
      cases hb
      exact ⟨List.mem_zipIdx_iff_getElem?.mp hmem, hcond.1⟩
  next => exact hbest b hb

theorem countOk_eq_zero_iff : countOk sources = 0 ↔ ∀ src ∈ sources, src.status ≠ .ok := by
  rw [countOk, List.countP_eq_zero]
  simp only [decide_eq_true_eq]

theorem countOk_pos_iff : 0 < countOk sources ↔ ∃ src ∈ sources, src.status = .ok := by
  rw [countOk, List.countP_pos_iff]
  simp only [decide_eq_true_eq]

/-- One source becomes selectable when there is none. -/
theorem countOk_set (hzero : countOk sources = 0) (hi : i < sources.length)
    (hok : src.status = .ok) : countOk (sources.set i src) = 1 := by
  have hne : sources[i].status ≠ .ok := countOk_eq_zero_iff.mp hzero _ (List.getElem_mem hi)
  rw [countOk] at hzero ⊢
  rw [List.countP_set hi, hzero, if_pos (decide_eq_true hok), if_neg (by simpa using hne)]

/-- What is known about the sources when the search starts. -/
def Candidate (cfg : Config) (env : Env) (i : ℕ) (a b : Source) : Prop :=
  Judged a b ∧ b.status ≠ .selected ∧ (b.status = .ok → Selectable cfg env i b)

/-- **The selectable sources satisfy the requirements.** -/
theorem prepare_spec (cfg : Config) (env : Env) (sources : List Source) :
    Pointwise (Candidate cfg env) sources (prepare cfg env sources).sources ∧
      (prepare cfg env sources).nSelSources = countOk (prepare cfg env sources).sources := by
  have hbuilt : Pointwise (fun i a b => Judged a b ∧ b.status ≠ .selected ∧
      b.status ≠ .orphan ∧ (b.status = .ok → Selectable cfg env i b)) sources
      (sources.mapIdx (buildInterval cfg env)) :=
    .of_mapIdx fun i a _ => buildInterval_spec cfg env i a
  set built := sources.mapIdx (buildInterval cfg env) with hbuilt_eq
  set ago := maxReachSampleAgo cfg env built with hago
  have hmarked : Pointwise (fun i a b => Judged a b ∧ b.status ≠ .selected ∧
      (b.status = .ok ∨ b.status = .orphan → Selectable cfg env i b)) sources
      (built.map (markStale env ago)) := by
    refine hbuilt.trans (.of_map (R := fun _ b c => c = markStale env ago b) fun _ _ _ => rfl) ?_
    rintro i a b c ⟨hj, hsel, horphan, hok⟩ rfl
    obtain ⟨hj', hsel', hok'⟩ := markStale_spec env ago hsel horphan hok
    exact ⟨hj.trans hj', hsel', hok'⟩
  set marked := built.map (markStale env ago) with hmarked_eq
  have hcandidate : Pointwise (Candidate cfg env) sources marked :=
    hmarked.mono fun i a b _ h => ⟨h.1, h.2.1, fun hok => h.2.2 (.inl hok)⟩
  have hprep : (prepare cfg env sources).sources = (considerOrphan env marked (countOk marked)).1 ∧
      (prepare cfg env sources).nSelSources =
        (considerOrphan env marked (countOk marked)).2 := ⟨rfl, rfl⟩
  rw [hprep.1, hprep.2, considerOrphan]
  match horphan : orphanSource env marked with
  | none => exact ⟨hcandidate, rfl⟩
  | some (i, src) =>
      obtain ⟨hget, hstatus⟩ := orphanSource_spec horphan
      dsimp only
      split
      next hcond =>
          refine ⟨?_, (countOk_set hcond.1 (List.getElem?_eq_some_iff.mp hget).1 rfl).symm⟩
          refine hmarked.trans (.of_set (R := fun j b c => c = b ∨ (j = i ∧
            b.status = .orphan ∧ c = { b with status := .ok })) (fun _ _ => .inl rfl) ?_) ?_
          · intro b hb
            rw [hget] at hb
            cases hb
            exact .inr ⟨rfl, hstatus, rfl⟩
          · rintro j a b c ⟨hj, hsel, hok⟩ (rfl | ⟨rfl, hb, rfl⟩)
            · exact ⟨hj, hsel, fun h => hok (.inl h)⟩
            · exact ⟨hj.trans ⟨_, _, _, rfl⟩, by simp,
                fun _ => (hok (.inr hb)).congr rfl rfl rfl rfl⟩
      next => exact ⟨hcandidate, rfl⟩

/-! ### Sources which pass the search -/

theorem judge_spec (w : Sweep) (src : Source) :
    Judged src (judge w src) ∧ (judge w src).selInfo = src.selInfo ∧
      (src.status ≠ .selected → (judge w src).status ≠ .selected) ∧
      ((judge w src).status = .ok → src.status = .ok ∧ w.Agrees src.selInfo) := by
  rw [judge]
  by_cases hst : src.status ≠ .ok
  · rw [if_pos hst]
    exact ⟨.refl _, rfl, id, fun h => absurd h hst⟩
  rw [if_neg hst]
  rw [not_not] at hst
  split
  next hagrees =>
      split
      · exact ⟨⟨_, _, _, rfl⟩, rfl, by simp, by simp⟩
      · exact ⟨.refl _, rfl, id, fun _ => ⟨hst, hagrees⟩⟩
  next => exact ⟨⟨_, _, _, rfl⟩, rfl, by simp, by simp⟩

theorem voteLeap_spec (w : Sweep) (src : Source) :
    Judged src (voteLeap w src) ∧ (voteLeap w src).selInfo = src.selInfo ∧
      (voteLeap w src).status = src.status := by
  rw [voteLeap]
  split
  · exact ⟨⟨_, _, _, rfl⟩, rfl, rfl⟩
  · exact ⟨.refl _, rfl, rfl⟩

theorem markNonpreferred_spec (prefer : Bool) (src : Source) :
    Judged src (markNonpreferred prefer src) ∧
      (markNonpreferred prefer src).selInfo = src.selInfo ∧
      (src.status ≠ .selected → (markNonpreferred prefer src).status ≠ .selected) ∧
      ((markNonpreferred prefer src).status = .ok ↔
        src.status = .ok ∧ (prefer = true → src.selOptions.prefer = true)) := by
  rw [markNonpreferred]
  split
  next h => exact ⟨⟨_, _, _, rfl⟩, rfl, by simp, by simp [h]⟩
  next h =>
      refine ⟨.refl _, rfl, id, fun hok => ⟨hok, fun hp => ?_⟩, fun hok => hok.1⟩
      by_contra hnot
      exact h ⟨hp, hok, hnot⟩

/-- The passes from the search to the scores. -/
def passSources (w : Sweep) (p : List Source) : Bool × List Source :=
  let sources := (p.map (judge w)).map (voteLeap w)
  (selPrefer sources, sources.map (markNonpreferred (selPrefer sources)))

/-- What the passes from the search to the scores do to a source. -/
structure Passed (w : Sweep) (prefer : Bool) (a b : Source) : Prop where
  judged : Judged a b
  selInfo : b.selInfo = a.selInfo
  status_ne : a.status ≠ .selected → b.status ≠ .selected
  ok_iff : b.status = .ok ↔
    (judge w a).status = .ok ∧ (prefer = true → a.selOptions.prefer = true)

theorem passSources_spec (w : Sweep) (p : List Source) :
    Pointwise (fun _ => Passed w (passSources w p).1) p (passSources w p).2 := by
  refine ⟨by simp [passSources], ?_⟩
  intro i a b ha hb
  rw [passSources] at hb
  dsimp only at hb
  rw [List.getElem?_map, List.getElem?_map, List.getElem?_map, ha] at hb
  cases hb
  obtain ⟨hj1, hi1, hs1, -⟩ := judge_spec w a
  obtain ⟨hj2, hi2, hst2⟩ := voteLeap_spec w (judge w a)
  obtain ⟨hj3, hi3, hs3, hok3⟩ := markNonpreferred_spec (passSources w p).1 (voteLeap w (judge w a))
  refine ⟨hj1.trans (hj2.trans hj3), hi3.trans (hi2.trans hi1),
    fun hne => hs3 (hst2 ▸ hs1 hne), hok3.trans ?_⟩
  have hoptions : (voteLeap w (judge w a)).selOptions = a.selOptions := by
    obtain ⟨_, _, _, heq⟩ := hj1.trans hj2
    rw [heq]
  rw [hst2, hoptions]

/-! ### Scores -/

/-- The passes after the search. -/
def Ranked (a b : Source) : Prop :=
  ∃ status selScore distant updates, b = { a with status, selScore, distant, updates }

theorem Ranked.refl (a : Source) : Ranked a a :=
  ⟨_, _, _, _, rfl⟩

theorem Ranked.trans {a b c : Source} (h : Ranked a b) (h' : Ranked b c) : Ranked a c := by
  obtain ⟨_, _, _, _, rfl⟩ := h
  obtain ⟨_, _, _, _, rfl⟩ := h'
  exact ⟨_, _, _, _, rfl⟩

theorem markCombined_spec (src : Source) :
    Ranked src (markCombined src) ∧ (markCombined src).status ≠ .ok ∧
      ((markCombined src).status = .selected → src.status = .selected) ∧
      (markCombined src).selScore = src.selScore ∧ (markCombined src).distant = src.distant ∧
      (src.distant = 0 → src.status ≠ .ok → markCombined src = src) := by
  rw [markCombined]
  split
  next h => exact ⟨⟨_, _, _, _, rfl⟩, by simp, by simp, rfl, rfl, fun h0 => absurd h0 h⟩
  next h =>
      split
      next hok => exact ⟨⟨_, _, _, _, rfl⟩, by simp, by simp, rfl, rfl, fun _ hne => absurd hok hne⟩
      next hok => exact ⟨.refl _, hok, id, rfl, rfl, fun _ _ => rfl⟩

theorem updateDistant_spec (cfg : Config) (env : Env) (selected : ℕ) (selSrcDistance : ℚ)
    (sel : TrackingData) (i : ℕ) (src : Source) :
    Ranked src (updateDistant cfg env selected selSrcDistance sel i src) ∧
      (updateDistant cfg env selected selSrcDistance sel i src).status = src.status ∧
      (updateDistant cfg env selected selSrcDistance sel i src).selScore = src.selScore ∧
      (i = selected → src.distant = 0 →
        updateDistant cfg env selected selSrcDistance sel i src = src) := by
  rw [updateDistant]
  split
  next h => exact ⟨⟨_, _, _, _, rfl⟩, rfl, rfl, fun hi => absurd hi h.1⟩
  next =>
      split
      next h => exact ⟨⟨_, _, _, _, rfl⟩, rfl, rfl, fun _ h0 => absurd h0 h⟩
      next => exact ⟨.refl _, rfl, rfl, fun _ _ => rfl⟩

theorem mem_selSources : i ∈ selSources sources ↔ i ∈ okSet sources := by
  rw [selSources, List.mem_map, mem_okSet]
  constructor
  · rintro ⟨⟨src, j⟩, hmem, rfl⟩
    rw [List.mem_filter] at hmem
    exact ⟨src, List.mem_zipIdx_iff_getElem?.mp hmem.1, by simpa using hmem.2⟩
  · rintro ⟨src, hsrc, hok⟩
    refine ⟨(src, i), List.mem_filter.mpr ⟨List.mem_zipIdx_iff_getElem?.mpr hsrc, ?_⟩, rfl⟩
    simpa using hok

/-- How the end of a selection with the source at `k` changes a source. -/
structure Final (k i : ℕ) (a b : Source) : Prop where
  ranked : Ranked a b
  status_ne : b.status ≠ .ok
  eq_of_selected : b.status = .selected → i = k
  selScore : b.selScore = a.selScore
  selected : i = k → a.distant = 0 → b.status = .selected ∧ b.distant = 0

/-- The result of a selection which uses the sources `T`. -/
structure Outcome (T : List Source) (r : State × Option RefCall) : Prop where
  ranked : Pointwise (fun i a b => Ranked a b ∧ b.status ≠ .ok ∧
    (b.status = .selected → r.1.selected = some i)) T r.1.sources
  selected : ∀ k, r.1.selected = some k → k ∈ okSet T
  reference : ∀ ref, r.2 = some (.setReference ref) → ∃ k, r.1.selected = some k ∧
    k ∈ okSet T ∧ ∀ i ∈ ref.combined, i ∈ okSet T

section Finish

variable {T T' : List Source} {k : ℕ}

/-- The table when the source at `k` is marked as selected. -/
def Marked (k i : ℕ) (a b : Source) : Prop :=
  Ranked a b ∧ b.distant = a.distant ∧ b.selScore = a.selScore ∧
    b.status = if i = k then .selected else a.status

theorem marked_set (hk : T[k]? = some src) :
    Pointwise (Marked k) T (T.set k { src with status := .selected }) := by
  refine ⟨List.length_set, ?_⟩
  intro i a b ha hb
  rw [List.getElem?_set] at hb
  by_cases hki : k = i
  · subst hki
    rw [if_pos rfl, if_pos (List.getElem?_eq_some_iff.mp ha).1] at hb
    rw [hk] at ha
    cases ha
    cases hb
    exact ⟨⟨_, _, _, _, rfl⟩, rfl, rfl, (if_pos rfl).symm⟩
  · rw [if_neg hki, ha] at hb
    cases hb
    exact ⟨.refl _, rfl, rfl, (if_neg (Ne.symm hki)).symm⟩

theorem Marked.mark (h : Pointwise (Marked k) T T') {f : Source → Source}
    (hf : ∀ b, Ranked b (f b) ∧ (f b).distant = b.distant ∧ (f b).selScore = b.selScore ∧
      (f b).status = b.status) : Pointwise (Marked k) T (T'.map f) := by
  refine h.trans (.of_map (R := fun _ b c => c = f b) fun _ _ _ => rfl) ?_
  rintro i a b _ ⟨hr, hd, hs, hst⟩ rfl
  obtain ⟨hr', hd', hs', hst'⟩ := hf b
  exact ⟨hr.trans hr', hd'.trans hd, hs'.trans hs, hst'.trans hst⟩

/-- The remaining sources get their final status. -/
theorem Marked.final (hsel : ∀ a ∈ T, a.status ≠ .selected) (h : Pointwise (Marked k) T T')
    {T'' : List Source} {f : ℕ → Source → Source}
    (hT : Pointwise (fun i b c => c = f i b) T' T'')
    (hf : ∀ i a b, T[i]? = some a → Marked k i a b → Ranked b (f i b) ∧ (f i b).status ≠ .ok ∧
      ((f i b).status = .selected → b.status = .selected) ∧ (f i b).selScore = b.selScore ∧
      (i = k → b.distant = 0 → f i b = b)) :
    Pointwise (Final k) T T'' := by
  refine ⟨hT.1.trans h.1, ?_⟩
  intro i a c ha hc
  obtain ⟨b, hb, rfl⟩ := hT.exists_left hc
  have hm := h.2 i a b ha hb
  obtain ⟨hr', hne, hselected, hs', heq⟩ := hf i a b ha hm
  obtain ⟨hr, hd, hs, hst⟩ := hm
  refine ⟨hr.trans hr', hne, ?_, hs'.trans hs, ?_⟩
  · intro hc
    by_contra hik
    rw [if_neg hik] at hst
    exact hsel a (List.mem_of_getElem? ha) (hst.symm.trans (hselected hc))
  · intro hik h0
    have hb0 : b.distant = 0 := hd.trans h0
    rw [heq hik hb0]
    rw [if_pos hik] at hst
    exact ⟨hst, hb0⟩

/-- `combine_sources` gives the remaining sources their final status. -/
theorem combineSources_outcome (hsel : ∀ a ∈ T, a.status ≠ .selected)
    (h : Pointwise (Marked k) T T') (hk : k ∈ okSet T)
    {r : List Source × List ℕ × Option Sums}
    (hr : combineSources cfg env T' k (selSources T) = .ok r) :
    Pointwise (Final k) T r.1 ∧ ∀ i ∈ r.2.1, i ∈ okSet T := by
  rw [combineSources] at hr
  split at hr
  next hone =>
      cases hr
      refine ⟨?_, fun i hi => mem_selSources.mp hi⟩
      refine Marked.final hsel h (f := fun _ b => b)
        (Pointwise.refl (R := fun _ b c => c = b) (fun _ _ => rfl) T') ?_
      rintro i a b ha ⟨-, hd, hs, hst⟩
      refine ⟨.refl _, ?_, id, rfl, fun _ _ => rfl⟩
      rw [hst]
      split
      · simp
      next hik =>
          -- the only selectable source is the selected one
          intro hok
          obtain ⟨j, hj⟩ := List.length_eq_one_iff.mp hone
          have h1 := mem_selSources.mpr (mem_okSet.mpr ⟨a, ha, hok⟩)
          have h2 := mem_selSources.mpr hk
          rw [hj, List.mem_singleton] at h1 h2
          exact hik (h1.trans h2.symm)
  next =>
      split at hr
      · cases hr
      next selSrc _ =>
          dsimp only at hr
          generalize (selSrc.selInfo.rootDistance +
            if selSrc.type = .ntp then cfg.reselectDistance else 0) = distance at hr
          split at hr
          · cases hr
          · cases hr
            refine ⟨Marked.final hsel h (.of_mapIdx fun _ _ _ => rfl) ?_, ?_⟩
            · rintro i a b ha ⟨-, hd, hs, hst⟩
              split
              next hmem =>
                  obtain ⟨hr1, hst1, hs1, heq1⟩ :=
                    updateDistant_spec cfg env k distance (env.tracking k) i b
                  obtain ⟨hr2, hne2, hsel2, hs2, -, heq2⟩ :=
                    markCombined_spec (updateDistant cfg env k distance (env.tracking k) i b)
                  refine ⟨hr1.trans hr2, hne2, fun hc => hst1 ▸ hsel2 hc, hs2.trans hs1, ?_⟩
                  intro hik hb0
                  rw [heq1 hik hb0] at heq2 ⊢
                  exact heq2 hb0 (by rw [hst, if_pos hik]; simp)
              next hmem =>
                  refine ⟨.refl _, ?_, id, rfl, fun _ _ => rfl⟩
                  rw [hst]
                  split
                  · simp
                  · exact fun hok => hmem (mem_selSources.mpr (mem_okSet.mpr ⟨a, ha, hok⟩))
            · intro i hi
              exact mem_selSources.mp (List.mem_filter.mp hi).1

/-- The selected source is combined, as it is not distant. -/
theorem combineSources_succeeds (cfg : Config) (env : Env)
    (h : Pointwise (Marked k) T T') {a : Source}
    (hk : T[k]? = some a) (hok : a.status = .ok) (hdistant : a.distant = 0) :
    ∃ r, combineSources cfg env T' k (selSources T) = .ok r := by
  obtain ⟨b, hb, -, hd, -, hst⟩ := h.exists_right hk
  rw [if_pos rfl] at hst
  rw [combineSources]
  split
  · exact ⟨_, rfl⟩
  · rw [hb]
    dsimp only
    rw [if_neg]
    · exact ⟨_, rfl⟩
    · refine List.ne_nil_of_mem (a := k) (List.mem_filter.mpr ?_)
      have hmem := mem_selSources.mpr (mem_okSet.mpr ⟨a, hk, hok⟩)
      refine ⟨hmem, ?_⟩
      rw [List.getElem?_mapIdx, hb, Option.map_some, if_pos hmem]
      obtain ⟨-, -, -, heq1⟩ := updateDistant_spec cfg env k (b.selInfo.rootDistance +
        if b.type = .ntp then cfg.reselectDistance else 0) (env.tracking k) k b
      rw [heq1 rfl (hd.trans hdistant),
        (markCombined_spec b).2.2.2.2.2 (hd.trans hdistant) (by rw [hst]; simp)]
      simpa using hd.trans hdistant

theorem makeReference_combined (T : List Source) (k : ℕ) (src : Source) (combined : List ℕ)
    (sums : Option Sums) : (makeReference env T k src combined sums).combined = combined := by
  cases sums with
  | none => rfl
  | some sums => rfl

/-- **The end of a selection.** -/
theorem updateReference_outcome (hsel : ∀ a ∈ T, a.status ≠ .selected) (hk : k ∈ okSet T)
    {r : State × Option RefCall} (hr : updateReference cfg env T k = .ok r) :
    r.1.selected = some k ∧ Pointwise (Final k) T r.1.sources ∧
      ∀ ref, r.2 = some (.setReference ref) → ∀ i ∈ ref.combined, i ∈ okSet T := by
  obtain ⟨src, hsrc, hok⟩ := mem_okSet.mp hk
  rw [updateReference, hsrc] at hr
  dsimp only at hr
  have hmarked := marked_set hsrc
  split at hr
  · cases hr
    refine ⟨rfl, ?_, fun ref href => by cases href⟩
    refine Marked.final hsel hmarked
      (f := fun _ b => if b.status = .ok then markCombined b else b) (.of_map fun _ _ _ => rfl) ?_
    rintro i a b ha ⟨-, hd, hs, hst⟩
    split
    next hb =>
        obtain ⟨hr1, hne1, hsel1, hs1, -, -⟩ := markCombined_spec b
        refine ⟨hr1, hne1, hsel1, hs1, fun hik => ?_⟩
        rw [if_pos hik, hb] at hst
        cases hst
    next hb => exact ⟨.refl _, hb, id, rfl, fun _ _ => rfl⟩
  · have hmarked' := Marked.mark hmarked (f := fun src => { src with updates := 0 })
      fun b => ⟨⟨_, _, _, _, rfl⟩, rfl, rfl, rfl⟩
    split at hr
    · cases hr
    next hcombine =>
        cases hr
        obtain ⟨hfinal, hcombined⟩ := combineSources_outcome hsel hmarked' hk hcombine
        refine ⟨rfl, hfinal, ?_⟩
        rintro ref href i hi
        cases href
        refine hcombined i ?_
        rwa [makeReference_combined] at hi

theorem updateReference_succeeds (cfg : Config) (env : Env) {a : Source} (hk : T[k]? = some a)
    (hok : a.status = .ok)
    (hdistant : a.distant = 0) : ∃ r, updateReference cfg env T k = .ok r := by
  rw [updateReference, hk]
  dsimp only
  split
  · exact ⟨_, rfl⟩
  · have hmarked := Marked.mark (marked_set hk) (f := fun src => { src with updates := 0 })
      fun b => ⟨⟨_, _, _, _, rfl⟩, rfl, rfl, rfl⟩
    obtain ⟨r, hr⟩ := combineSources_succeeds cfg env hmarked hk hok hdistant
    rw [hr]
    exact ⟨_, rfl⟩

end Finish

/-! ### The choice -/

section Choice

variable {T : List Source} {prefer : Bool}

/-- The source with the best score takes part in the scores. -/
theorem maxScore_some {score : ℚ} {best : ℕ} (h : maxScore prefer T = (score, some best)) :
    ∃ src, T[best]? = some src ∧ Scored prefer src := by
  suffices hbest : ∀ j ∈ (maxScore prefer T).2, ∃ src, T[j]? = some src ∧ Scored prefer src by
    exact hbest best (by rw [h]; rfl)
  refine List.foldlRecOn (motive := fun best : ℚ × Option ℕ => ∀ j ∈ best.2, ∃ src,
    T[j]? = some src ∧ Scored prefer src) _ _ (fun j hj => by cases hj) ?_
  rintro best hbest ⟨src, i⟩ hmem j hj
  dsimp only at hj
  split at hj
  next hcond =>
      cases hj
      exact ⟨src, List.mem_zipIdx_iff_getElem?.mp hmem, hcond.1⟩
  next => exact hbest j hj

/-- There is a best score when a source with a positive score takes part. -/
theorem maxScore_ne_none {src : Source} (hmem : src ∈ T) (hscored : Scored prefer src)
    (hpos : 0 < src.selScore) : (maxScore prefer T).2 ≠ none := by
  have hstep : ∀ (l : List (Source × ℕ)) (best : ℚ × Option ℕ),
      (best.2 = none → best.1 = 0) →
      (best.2 ≠ none ∨ ∃ p ∈ l, Scored prefer p.1 ∧ 0 < p.1.selScore) →
      (l.foldl (fun best p =>
        if Scored prefer p.1 ∧ best.1 < p.1.selScore then (p.1.selScore, some p.2) else best)
        best).2 ≠ none := by
    intro l
    induction l with
    | nil =>
        rintro best - (h | ⟨p, hp, -⟩)
        · exact h
        · cases hp
    | cons q l ih =>
        intro best hzero hex
        rw [List.foldl_cons]
        refine ih _ ?_ ?_
        · split
          · intro h
            cases h
          · exact hzero
        · split
          next => exact .inl (by simp)
          next hcond =>
              rcases hex with h | ⟨p, hp, hscored, hpos⟩
              · exact .inl h
              · rcases List.mem_cons.mp hp with rfl | hp
                · by_cases hnone : best.2 = none
                  · exact absurd ⟨hscored, by rw [hzero hnone]; exact hpos⟩ hcond
                  · exact .inl hnone
                · exact .inr ⟨p, hp, hscored, hpos⟩
  obtain ⟨i, hi⟩ := List.mem_iff_getElem?.mp hmem
  exact hstep T.zipIdx (0, none) (fun _ => rfl)
    (.inr ⟨(src, i), List.mem_zipIdx_iff_getElem?.mpr hi, hscored, hpos⟩)

theorem markOkSources_outcome {status : Status} (hne : status ≠ .ok) (hne' : status ≠ .selected)
    (hsel : ∀ a ∈ T, a.status ≠ .selected) (call : Option RefCall)
    (hcall : ∀ ref, call ≠ some (.setReference ref)) :
    Outcome T (⟨markOkSources status T, none⟩, call) := by
  refine ⟨.of_map fun i a ha => ?_, nofun, fun ref href => absurd href (hcall ref)⟩
  have hsela := hsel a (List.mem_of_getElem? ha)
  split
  next hok => exact ⟨.refl _, hok, fun h => absurd h hsela⟩
  next => exact ⟨⟨_, _, _, _, rfl⟩, hne, fun h => absurd h hne'⟩

/-- The result of the end of a selection. -/
theorem Outcome.of_final {k : ℕ} {r : State × Option RefCall} (hk : k ∈ okSet T)
    (hselected : r.1.selected = some k) (hfinal : Pointwise (Final k) T r.1.sources)
    (href : ∀ ref, r.2 = some (.setReference ref) → ∀ i ∈ ref.combined, i ∈ okSet T) :
    Outcome T r := by
  refine ⟨hfinal.mono fun i a b _ h => ⟨h.ranked, h.status_ne, fun hb => ?_⟩, ?_, ?_⟩
  · rw [h.eq_of_selected hb]
    exact hselected
  · intro j hj
    obtain rfl : k = j := Option.some.inj (hselected.symm.trans hj)
    exact hk
  · exact fun ref hr => ⟨k, hselected, hk, href ref hr⟩

/-- The status of a table is not changed by a pass. -/
theorem okSet_congr {T' : List Source} (h : Pointwise (fun _ a b => b.status = a.status) T T') :
    okSet T' = okSet T := by
  ext i
  rw [mem_okSet, mem_okSet]
  constructor
  · rintro ⟨b, hb, hok⟩
    obtain ⟨a, ha, hst⟩ := h.exists_left hb
    exact ⟨a, ha, hst ▸ hok⟩
  · rintro ⟨a, ha, hok⟩
    obtain ⟨b, hb, hst⟩ := h.exists_right ha
    exact ⟨b, hb, hst.trans hok⟩

/-- A pass which does not change the status does not change the outcome. -/
theorem Outcome.of_pass {T' : List Source} {r : State × Option RefCall}
    (h : Pointwise (fun _ a b => Ranked a b ∧ b.status = a.status) T T') (hr : Outcome T' r) :
    Outcome T r := by
  have hok := okSet_congr (h.mono fun _ _ _ _ hab => hab.2)
  obtain ⟨hranked, hselected, href⟩ := hr
  rw [hok] at hselected href
  exact ⟨h.trans hranked fun i a b c hab hbc => ⟨hab.1.trans hbc.1, hbc.2⟩, hselected, href⟩

/-- **The choice between the best source and the selected source.** -/
theorem chooseSource_outcome (hsel : ∀ a ∈ T, a.status ≠ .selected) {selected : Option ℕ}
    {r : State × Option RefCall} (hr : chooseSource cfg env prefer T selected = .ok r) :
    Outcome T r := by
  rw [chooseSource] at hr
  match hmax : maxScore prefer T with
  | (score, none) =>
      rw [hmax] at hr
      cases hr
  | (score, some best) =>
      rw [hmax] at hr
      dsimp only at hr
      split at hr
      next k hk =>
          obtain ⟨-, hcond⟩ := Option.filter_eq_some_iff.mp hk
          rw [Bool.and_eq_true] at hcond
          have hok : k ∈ okSet T := by
            cases hsrc : T[k]? with
            | none =>
                rw [hsrc] at hcond
                exact absurd hcond.1 Bool.false_ne_true
            | some src =>
                rw [hsrc] at hcond
                exact mem_okSet.mpr ⟨src, hsrc, by simpa using hcond.1⟩
          obtain ⟨h1, h2, h3⟩ := updateReference_outcome hsel hok hr
          exact .of_final hok h1 h2 h3
      next =>
          split at hr
          · cases hr
            exact markOkSources_outcome (by simp) (by simp) hsel _ (by simp)
          · obtain ⟨src, hsrc, hscored⟩ := maxScore_some hmax
            have hpass : Pointwise (fun _ a b => Ranked a b ∧ b.status = a.status) T
                (T.map fun src => { src with selScore := 1, distant := 0 }) :=
              .of_map fun _ _ _ => ⟨⟨_, _, _, _, rfl⟩, rfl⟩
            have hok : best ∈ okSet T := by
              refine mem_okSet.mpr ⟨src, hsrc, ?_⟩
              by_contra hne
              exact hscored (.inl hne)
            rw [← okSet_congr (hpass.mono fun _ _ _ _ hab => hab.2)] at hok
            obtain ⟨h1, h2, h3⟩ := updateReference_outcome
              (hpass.forall_mem fun _ a b ha hab => hab.2 ▸ hsel a ha) hok hr
            exact .of_pass hpass (.of_final hok h1 h2 h3)

theorem updateScore_spec (cfg : Config) (prefer : Bool) (minStratum : ℤ)
    (selected : Option (ℕ × ℚ)) (updated : Option ℕ) (i : ℕ) (src : Source) :
    Ranked src (updateScore cfg prefer minStratum selected updated i src) ∧
      (updateScore cfg prefer minStratum selected updated i src).status = src.status ∧
      (Scored prefer src →
        (updateScore cfg prefer minStratum selected updated i src).distant = src.distant) := by
  unfold updateScore
  split
  · match selected with
    | some (k, d) =>
        dsimp only
        split
        · exact ⟨⟨_, _, _, _, rfl⟩, rfl, fun _ => rfl⟩
        · exact ⟨.refl _, rfl, fun _ => rfl⟩
    | none => exact ⟨⟨_, _, _, _, rfl⟩, rfl, fun _ => rfl⟩
  next h => exact ⟨⟨_, _, _, _, rfl⟩, rfl, fun hs => absurd hs h⟩

theorem scoreSources_outcome (hsel : ∀ a ∈ T, a.status ≠ .selected)
    {selected updated : Option ℕ} {r : State × Option RefCall}
    (hr : scoreSources cfg env prefer T selected updated = .ok r) : Outcome T r := by
  rw [scoreSources] at hr
  dsimp only at hr
  split at hr
  · cases hr
  next sel _ =>
      have hpass : Pointwise (fun _ a b => Ranked a b ∧ b.status = a.status) T
          (T.mapIdx (updateScore cfg prefer (minSelStratum T) sel updated)) :=
        .of_mapIdx fun i a _ =>
          let h := updateScore_spec cfg prefer (minSelStratum T) sel updated i a
          ⟨h.1, h.2.1⟩
      exact .of_pass hpass (chooseSource_outcome
        (hpass.forall_mem fun _ a b ha hab => hab.2 ▸ hsel a ha) hr)

end Choice

end Chrony.Sources
