import Mathlib.Tactic.Linarith
import Mathlib.Tactic.Positivity
import Chrony.Sources.Soundness

/-!
# The Statuses after a Selection

The assertions of `SRC_SelectSource` and `combine_sources` do not fail, and each way out of
the selection leaves consistent statuses. The selected source is never distant, so there is
always a combined source; the scores are positive as long as the compared distances are, so
there is always a source with the best score.

## Main results

* `selectSource_spec`: a selection returns, and leaves consistent statuses.
-/

namespace Chrony.Sources

open Lib Lib.IntervalSweep

variable {cfg : Config} {env : Env} {T : List Source} {prefer : Bool}

/-- What is left by a selection which returns. -/
structure Settled (s : State) : Prop where
  selected : ∀ k, s.selected = some k → ∃ src, s.sources[k]? = some src ∧
    src.status = .selected ∧ src.distant = 0
  score : ∀ src ∈ s.sources, 0 < src.selScore

/-- The root distances which come from samples are positive. -/
def PositiveDistances (cfg : Config) (env : Env) : Prop :=
  ∀ i data, getSelectionData cfg.maxJitter (env.stats i) = some (data, true) →
    0 < (addExtraDispersion env.maxClockError data).rootDistance

/-! ### The end of the selection -/

theorem updateReference_settled (cfg : Config) (env : Env) {k : ℕ} {a : Source}
    (hsel : ∀ a ∈ T, a.status ≠ .selected) (hscore : ∀ a ∈ T, 0 < a.selScore)
    (hk : T[k]? = some a) (hok : a.status = .ok) (hdistant : a.distant = 0) :
    ∃ r, updateReference cfg env T k = .ok r ∧ Settled r.1 := by
  obtain ⟨r, hr⟩ := updateReference_succeeds cfg env hk hok hdistant
  obtain ⟨hselected, hfinal, -⟩ := updateReference_outcome hsel (mem_okSet.mpr ⟨a, hk, hok⟩) hr
  refine ⟨r, hr, ?_, hfinal.forall_mem fun i a b ha hab => hab.selScore ▸ hscore a ha⟩
  intro j hj
  obtain rfl : k = j := Option.some.inj (hselected.symm.trans hj)
  obtain ⟨b, hb, hab⟩ := hfinal.exists_right hk
  exact ⟨b, hb, hab.selected rfl hdistant⟩

theorem markOkSources_settled (status : Status) (hscore : ∀ a ∈ T, 0 < a.selScore) :
    Settled ⟨markOkSources status T, none⟩ := by
  refine ⟨fun k hk => (by cases hk), ?_⟩
  intro b hb
  obtain ⟨a, ha, rfl⟩ := List.mem_map.mp hb
  split
  · exact hscore a ha
  · exact hscore a ha

/-- The choice returns when a source takes part in the scores. -/
theorem chooseSource_settled (cfg : Config) (env : Env) {selected : Option ℕ}
    (hsel : ∀ a ∈ T, a.status ≠ .selected) (hscore : ∀ a ∈ T, 0 < a.selScore)
    (hscored : ∃ a ∈ T, Scored prefer a)
    (hdistant : ∀ k a, selected = some k → T[k]? = some a → a.status = .ok → a.distant = 0) :
    ∃ r, chooseSource cfg env prefer T selected = .ok r ∧ Settled r.1 := by
  rw [chooseSource]
  obtain ⟨score, best, hmax⟩ : ∃ score best, maxScore prefer T = (score, best) := ⟨_, _, rfl⟩
  rw [hmax]
  cases best with
  | none =>
      obtain ⟨a, ha, hs⟩ := hscored
      exact absurd (by rw [hmax]) (maxScore_ne_none ha hs (hscore a ha))
  | some best =>
      dsimp only
      split
      next k hk =>
          obtain ⟨hselected, hcond⟩ := Option.filter_eq_some_iff.mp hk
          rw [Bool.and_eq_true] at hcond
          cases hget : T[k]? with
          | none =>
              rw [hget] at hcond
              exact absurd hcond.1 Bool.false_ne_true
          | some a =>
              rw [hget] at hcond
              have hok : a.status = .ok := by simpa using hcond.1
              exact updateReference_settled cfg env hsel hscore hget hok
                (hdistant k a hselected hget hok)
      next =>
          split
          · exact ⟨_, rfl, markOkSources_settled _ hscore⟩
          · obtain ⟨a, ha, hs⟩ := maxScore_some hmax
            have hok : a.status = .ok := by
              by_contra hne
              exact hs (.inl hne)
            refine updateReference_settled cfg env (a := { a with selScore := 1, distant := 0 })
              ?_ ?_ (by rw [List.getElem?_map, ha]; rfl) hok rfl
            · intro b hb
              obtain ⟨a', ha', rfl⟩ := List.mem_map.mp hb
              exact hsel a' ha'
            · intro b hb
              obtain ⟨a', ha', rfl⟩ := List.mem_map.mp hb
              exact one_pos

/-! ### Scores -/

theorem minSelStratum_le {src : Source} (hmem : src ∈ T) (hok : src.status = .ok) :
    minSelStratum T ≤ src.stratum := by
  have hfold : ∀ (l : List Source) (m : ℤ),
      l.foldl (fun stratum src => if stratum > src.stratum then src.stratum else stratum) m ≤ m ∧
        ∀ a ∈ l, l.foldl (fun stratum src =>
          if stratum > src.stratum then src.stratum else stratum) m ≤ a.stratum := by
    intro l
    induction l with
    | nil => exact fun m => ⟨le_refl m, fun a ha => by cases ha⟩
    | cons b l ih =>
        intro m
        rw [List.foldl_cons]
        obtain ⟨h1, h2⟩ := ih (if m > b.stratum then b.stratum else m)
        have hle : (if m > b.stratum then b.stratum else m) ≤ m ∧
            (if m > b.stratum then b.stratum else m) ≤ b.stratum := by
          split <;> omega
        refine ⟨h1.trans hle.1, ?_⟩
        intro a ha
        rcases List.mem_cons.mp ha with rfl | ha
        · exact h1.trans hle.2
        · exact h2 a ha
  rw [minSelStratum]
  have hfilter : src ∈ T.filter fun src => src.status = .ok :=
    List.mem_filter.mpr ⟨hmem, decide_eq_true hok⟩
  split
  next hnil =>
      rw [hnil] at hfilter
      cases hfilter
  next a l hcons =>
      rw [hcons] at hfilter
      obtain ⟨h1, h2⟩ := hfold l a.stratum
      rcases List.mem_cons.mp hfilter with rfl | hmem
      · exact h1
      · exact h2 src hmem

/-- The compared distance of a selectable source is positive. -/
theorem scoreDistance_pos (hweight : 0 ≤ cfg.stratumWeight) (hreselect : 0 ≤ cfg.reselectDistance)
    {src : Source} {minStratum : ℤ} (hstratum : minStratum ≤ src.stratum)
    (hroot : 0 < src.selInfo.rootDistance) : 0 < scoreDistance cfg minStratum src := by
  have hdiff : (0 : ℚ) ≤ (src.stratum - minStratum) * cfg.stratumWeight := by
    refine mul_nonneg ?_ hweight
    have : (minStratum : ℚ) ≤ src.stratum := by exact_mod_cast hstratum
    linarith
  rw [scoreDistance, stratumDistance]
  split <;> linarith

theorem updateScore_pos {minStratum : ℤ} {selected : Option (ℕ × ℚ)} {updated : Option ℕ} {i : ℕ}
    {src : Source} (hscore : 0 < src.selScore)
    (hdist : src.status = .ok → 0 < scoreDistance cfg minStratum src) :
    0 < (updateScore cfg prefer minStratum selected updated i src).selScore := by
  unfold updateScore
  split
  next hs =>
      have hok : src.status = .ok := by
        by_contra hne
        exact hs (.inl hne)
      match selected with
      | some (k, d) =>
          dsimp only
          split
          · dsimp only
            split
            · exact one_pos
            · linarith
          · exact hscore
      | none =>
          dsimp only
          have := hdist hok
          positivity
  next => exact one_pos

/-- What is known when the scores are updated. -/
structure Ready (prefer : Bool) (selected : Option ℕ) (T : List Source) : Prop where
  status_ne : ∀ a ∈ T, a.status ≠ .selected
  exists_ok : ∃ a ∈ T, a.status = .ok
  prefer : ∀ a ∈ T, a.status = .ok → prefer = true → a.selOptions.prefer = true
  score : ∀ a ∈ T, 0 < a.selScore
  distance : ∀ a ∈ T, a.status = .ok → 0 < a.selInfo.rootDistance
  selected : ∀ k, selected = some k → ∃ a, T[k]? = some a ∧ a.distant = 0

theorem scoreSources_settled (env : Env) (hweight : 0 ≤ cfg.stratumWeight)
    (hreselect : 0 ≤ cfg.reselectDistance) {selected : Option ℕ} (updated : Option ℕ)
    (h : Ready prefer selected T) :
    ∃ r, scoreSources cfg env prefer T selected updated = .ok r ∧ Settled r.1 := by
  obtain ⟨sel, hsel⟩ : ∃ sel, selectedDistance cfg (minSelStratum T) T selected = .ok sel := by
    cases hs : selected with
    | none => exact ⟨_, rfl⟩
    | some k =>
        obtain ⟨a, ha, -⟩ := h.selected k hs
        rw [selectedDistance, ha]
        exact ⟨_, rfl⟩
  rw [scoreSources]
  dsimp only
  rw [hsel]
  dsimp only
  have hscored : ∀ a ∈ T, a.status = .ok → Scored prefer a := by
    rintro a ha hok (hne | ⟨hp, hnp⟩)
    · exact hne hok
    · exact hnp (h.prefer a ha hok hp)
  have hpass : Pointwise (fun i a b => a ∈ T ∧
      b = updateScore cfg prefer (minSelStratum T) sel updated i a) T
      (T.mapIdx (updateScore cfg prefer (minSelStratum T) sel updated)) :=
    .of_mapIdx fun i a ha => ⟨List.mem_of_getElem? ha, rfl⟩
  refine chooseSource_settled cfg env ?_ ?_ ?_ ?_
  · refine hpass.forall_mem ?_
    rintro i a b ha ⟨-, rfl⟩
    rw [(updateScore_spec cfg prefer (minSelStratum T) sel updated i a).2.1]
    exact h.status_ne a ha
  · refine hpass.forall_mem ?_
    rintro i a b ha ⟨-, rfl⟩
    refine updateScore_pos (h.score a ha) fun hok => ?_
    exact scoreDistance_pos hweight hreselect (minSelStratum_le ha hok) (h.distance a ha hok)
  · obtain ⟨a, ha, hok⟩ := h.exists_ok
    obtain ⟨i, hi⟩ := List.mem_iff_getElem?.mp ha
    obtain ⟨b, hb, -, rfl⟩ := hpass.exists_right hi
    refine ⟨_, List.mem_of_getElem? hb, ?_⟩
    obtain ⟨hr, hst, -⟩ := updateScore_spec cfg prefer (minSelStratum T) sel updated i a
    have hs := hscored a ha hok
    rw [Scored, hst, hr.selOptions]
    exact hs
  · intro k b hk hb hok
    obtain ⟨a, ha, hmem, rfl⟩ := hpass.exists_left hb
    obtain ⟨a', ha', hd⟩ := h.selected k hk
    obtain rfl : a = a' := Option.some.inj (ha.symm.trans ha')
    obtain ⟨-, hst, hdist⟩ := updateScore_spec cfg prefer (minSelStratum T) sel updated k a
    rw [hdist (hscored a hmem (hst ▸ hok)), hd]

/-! ### The selection -/

/-- What a selection does to each source. -/
structure Kept (selected : Option ℕ) (i : ℕ) (a b : Source) : Prop where
  index : b.index = a.index
  status_ne : b.status ≠ .ok
  eq_of_selected : b.status = .selected → selected = some i

/-- What is known about the table of the search. -/
structure Searched (selected : Option ℕ) (p : List Source) : Prop where
  status_ne : ∀ a ∈ p, a.status ≠ .selected
  score : ∀ a ∈ p, 0 < a.selScore
  distance : ∀ a ∈ p, a.status = .ok → 0 < a.selInfo.rootDistance
  selected : ∀ k, selected = some k → ∃ a, p[k]? = some a ∧ a.distant = 0

/-- All sources are marked, and none is selected. -/
theorem markOkSources_kept {status : Status} (hne : status ≠ .ok) (hne' : status ≠ .selected)
    (hsel : ∀ a ∈ T, a.status ≠ .selected) :
    Pointwise (Kept none) T (markOkSources status T) := by
  refine .of_map fun i a ha => ?_
  have hsela := hsel a (List.mem_of_getElem? ha)
  split
  next hok => exact ⟨rfl, hok, fun h => absurd h hsela⟩
  next => exact ⟨rfl, hne, fun h => absurd h hne'⟩

theorem Judged.fields {a b : Source} (h : Judged a b) :
    b.index = a.index ∧ b.selScore = a.selScore ∧ b.distant = a.distant := by
  obtain ⟨_, _, _, rfl⟩ := h
  exact ⟨rfl, rfl, rfl⟩

/-- A pass of the search keeps what is known. -/
theorem Searched.of_pass {selected : Option ℕ} {p p' : List Source} (h : Searched selected p)
    (hpass : Pointwise (fun _ a b => Judged a b ∧ b.selInfo = a.selInfo ∧
      (a.status ≠ .selected → b.status ≠ .selected) ∧ (b.status = .ok → a.status = .ok)) p p') :
    Searched selected p' := by
  refine ⟨hpass.forall_mem fun _ a b ha hab => hab.2.2.1 (h.status_ne a ha),
    hpass.forall_mem fun _ a b ha hab => hab.1.fields.2.1 ▸ h.score a ha,
    hpass.forall_mem fun _ a b ha hab hok => hab.2.1 ▸ h.distance a ha (hab.2.2.2 hok), ?_⟩
  intro k hk
  obtain ⟨a, ha, hd⟩ := h.selected k hk
  obtain ⟨b, hb, hab⟩ := hpass.exists_right ha
  exact ⟨b, hb, hab.1.fields.2.2.trans hd⟩

/-- A source is left for the scores when a source passes the search. -/
theorem exists_ok_of_passSources {w : Sweep} {p : List Source}
    (h : countOk (p.map (judge w)) ≠ 0) : ∃ b ∈ (passSources w p).2, b.status = .ok := by
  have hpass := passSources_spec w p
  suffices hex : ∃ a ∈ p, (judge w a).status = .ok ∧
      ((passSources w p).1 = true → a.selOptions.prefer = true) by
    obtain ⟨a, ha, hok⟩ := hex
    obtain ⟨i, hi⟩ := List.mem_iff_getElem?.mp ha
    obtain ⟨b, hb, hab⟩ := hpass.exists_right hi
    exact ⟨b, List.mem_of_getElem? hb, hab.ok_iff.mpr hok⟩
  by_cases hprefer : (passSources w p).1 = true
  · obtain ⟨v, hv, hok⟩ := List.any_eq_true.mp hprefer
    obtain ⟨j, hj, rfl⟩ := List.mem_map.mp hv
    obtain ⟨a, ha, rfl⟩ := List.mem_map.mp hj
    obtain ⟨hj2, -, hst2⟩ := voteLeap_spec w (judge w a)
    rw [Bool.and_eq_true, decide_eq_true_eq, hst2,
      ((judge_spec w a).1.trans hj2).selOptions] at hok
    exact ⟨a, ha, hok.1, fun _ => hok.2⟩
  · obtain ⟨b, hb, hok⟩ := countOk_pos_iff.mp (Nat.pos_of_ne_zero h)
    obtain ⟨a, ha, rfl⟩ := List.mem_map.mp hb
    exact ⟨a, ha, hok, fun hp => absurd hp hprefer⟩

theorem Ranked.index {a b : Source} (h : Ranked a b) : b.index = a.index := by
  obtain ⟨_, _, _, _, rfl⟩ := h
  rfl

theorem selectPassing_spec (env : Env) (hweight : 0 ≤ cfg.stratumWeight)
    (hreselect : 0 ≤ cfg.reselectDistance) {w : Sweep} {p : List Source}
    {selected updated : Option ℕ} (h : Searched selected p) :
    ∃ r, selectPassing cfg env w (p.map (judge w)) selected updated = .ok r ∧ Settled r.1 ∧
      Pointwise (Kept r.1.selected) p r.1.sources := by
  have hjudge : Pointwise (fun _ a b => Judged a b ∧ b.selInfo = a.selInfo ∧
      (a.status ≠ .selected → b.status ≠ .selected) ∧ (b.status = .ok → a.status = .ok)) p
      (p.map (judge w)) := by
    refine .of_map fun i a _ => ?_
    obtain ⟨h1, h2, h3, h4⟩ := judge_spec w a
    exact ⟨h1, h2, h3, fun hok => (h4 hok).1⟩
  rw [selectPassing]
  split
  · have hJ := h.of_pass hjudge
    refine ⟨_, rfl, markOkSources_settled _ hJ.score, ?_⟩
    refine hjudge.trans (markOkSources_kept (by simp) (by simp) hJ.status_ne) ?_
    exact fun i a b c hab hbc => ⟨hbc.index.trans hab.1.fields.1, hbc.status_ne, hbc.eq_of_selected⟩
  next hcond =>
      rw [not_or] at hcond
      have hpass := passSources_spec w p
      have hok := exists_ok_of_passSources hcond.1
      have hS := h.of_pass (hpass.mono fun _ a b _ hab => ⟨hab.judged, hab.selInfo, hab.status_ne,
        fun hb => ((judge_spec w a).2.2.2 (hab.ok_iff.mp hb).1).1⟩)
      change ∃ r, (if (passSources w p).1 = true ∧ countOk (passSources w p).2 = 0 then
        .error .preferredFound else scoreSources cfg env (passSources w p).1 (passSources w p).2
          selected updated) = .ok r ∧ _
      rw [if_neg fun hzero => absurd (countOk_pos_iff.mpr hok) (by omega)]
      have hprefer : ∀ b ∈ (passSources w p).2, b.status = .ok → (passSources w p).1 = true →
          b.selOptions.prefer = true := by
        intro b hb hbok hp
        obtain ⟨i, hi⟩ := List.mem_iff_getElem?.mp hb
        obtain ⟨a, ha, hab⟩ := hpass.exists_left hi
        rw [hab.judged.selOptions]
        exact (hab.ok_iff.mp hbok).2 hp
      obtain ⟨r, hr, hsettled⟩ := scoreSources_settled env hweight hreselect updated
        ⟨hS.status_ne, hok, hprefer, hS.score, hS.distance, hS.selected⟩
      refine ⟨r, hr, hsettled, ?_⟩
      refine hpass.trans (scoreSources_outcome hS.status_ne hr).ranked ?_
      exact fun i a b c hab hbc => ⟨hbc.1.index.trans hab.judged.fields.1, hbc.2.1, hbc.2.2⟩

theorem selectAgreeing_spec (env : Env) (hweight : 0 ≤ cfg.stratumWeight)
    (hreselect : 0 ≤ cfg.reselectDistance) {p : Prepared} {selected : Option ℕ}
    (updated : Option ℕ) (h : Searched selected p.sources) (hintervals : Intervals p.sources)
    (hcount : p.nSelSources = countOk p.sources) :
    ∃ r, selectAgreeing cfg env p selected updated = .ok r ∧ Settled r.1 ∧
      Pointwise (Kept r.1.selected) p.sources r.1.sources := by
  obtain ⟨w, hw, hdepth, htrust, -⟩ := sweep_spec env.qsort hintervals
  rw [selectAgreeing, hw]
  dsimp only
  rw [if_neg (not_not.mpr ⟨hdepth, htrust⟩), if_neg (by rw [hcount, length_endpoints, not_not])]
  split
  · exact ⟨_, rfl, markOkSources_settled _ h.score,
      markOkSources_kept (by simp) (by simp) h.status_ne⟩
  · exact selectPassing_spec env hweight hreselect h

/-- What is required of the table when a selection starts. -/
structure Entry (s : State) : Prop where
  status_ne : ∀ a ∈ s.sources, a.status ≠ .ok
  score : ∀ a ∈ s.sources, 0 < a.selScore
  selected : ∀ k, s.selected = some k → ∃ a, s.sources[k]? = some a ∧ a.distant = 0

theorem countUpdate_spec (sources : List Source) (updated : Option ℕ) :
    Pointwise (fun _ a b => ∃ updates, b = { a with updates }) sources
      (countUpdate sources updated) := by
  cases updated with
  | none => exact .refl (fun _ a => ⟨a.updates, rfl⟩) sources
  | some i => exact .of_modify (fun _ a => ⟨a.updates, rfl⟩) fun _ _ => ⟨_, rfl⟩

/-- **A selection returns**, and leaves consistent statuses. -/
theorem selectSource_spec (hweight : 0 ≤ cfg.stratumWeight) (hreselect : 0 ≤ cfg.reselectDistance)
    (henv : PositiveDistances cfg env) {s : State} (h : Entry s) (updated : Option ℕ) :
    ∃ r, selectSource cfg env s updated = .ok r ∧ Settled r.1 ∧
      Pointwise (Kept r.1.selected) s.sources r.1.sources := by
  have hupdate := countUpdate_spec s.sources updated
  rw [selectSource]
  dsimp only
  set sources := countUpdate s.sources updated
  have hstatus : ∀ a ∈ sources, a.status ≠ .ok := by
    refine hupdate.forall_mem ?_
    rintro _ a _ ha ⟨_, rfl⟩
    exact h.status_ne a ha
  obtain ⟨hcandidate, hcount⟩ := prepare_spec cfg env sources
  set P := prepare cfg env sources
  have hindex : Pointwise (fun _ a b => b.index = a.index) s.sources P.sources := by
    refine hupdate.trans hcandidate ?_
    rintro _ a _ c ⟨_, rfl⟩ hbc
    exact hbc.1.fields.1
  have hS : Searched s.selected P.sources := by
    refine ⟨hcandidate.forall_mem fun _ a b _ hab => hab.2.1, ?_, ?_, ?_⟩
    · refine hcandidate.forall_mem fun _ a b ha hab => ?_
      rw [hab.1.fields.2.1]
      refine hupdate.forall_mem (P := fun a => 0 < a.selScore) ?_ a ha
      rintro _ a _ ha ⟨_, rfl⟩
      exact h.score a ha
    · refine hcandidate.forall_mem fun i a b _ hab hok => ?_
      obtain ⟨data, hdata, hinfo⟩ := (hab.2.2 hok).samples
      rw [hinfo]
      exact henv i data hdata
    · intro k hk
      obtain ⟨a, ha, hd⟩ := h.selected k hk
      obtain ⟨b, hb, _, rfl⟩ := hupdate.exists_right ha
      obtain ⟨c, hc, hbc⟩ := hcandidate.exists_right hb
      exact ⟨c, hc, hbc.1.fields.2.2.trans hd⟩
  have hintervals : Intervals P.sources := by
    intro a ha hok
    obtain ⟨i, hi⟩ := List.mem_iff_getElem?.mp ha
    obtain ⟨_, _, hcand⟩ := hcandidate.exists_left hi
    exact (hcand.2.2 hok).lo_le_hi
  have hkept : ∀ {selected : Option ℕ} {l : List Source}, Pointwise (Kept selected) P.sources l →
      Pointwise (Kept selected) s.sources l := by
    intro selected l hl
    exact hindex.trans hl fun i a b c hab hbc =>
      ⟨hbc.index.trans hab, hbc.status_ne, hbc.eq_of_selected⟩
  by_cases hnil : sources = []
  · rw [if_pos hnil]
    refine ⟨_, rfl, ⟨fun k hk => (by cases hk), fun a ha => ?_⟩, hupdate.mono ?_⟩
    · rw [hnil] at ha
      cases ha
    · intro i a b ha _
      have := hupdate.1
      rw [hnil] at this
      rw [List.length_eq_zero_iff.mp this.symm] at ha
      cases ha
  rw [if_neg hnil, if_neg (by simpa using hstatus)]
  split
  · exact ⟨_, rfl, markOkSources_settled _ hS.score,
      hkept (markOkSources_kept (by simp) (by simp) hS.status_ne)⟩
  split
  next hempty =>
      have hzero : countOk P.sources = 0 := by
        have hlen := length_endpoints P.sources
        rw [hempty, List.length_nil] at hlen
        omega
      refine ⟨_, rfl, ⟨fun k hk => (by cases hk), hS.score⟩, hkept ?_⟩
      refine ⟨rfl, ?_⟩
      intro i a b ha hb
      obtain rfl : a = b := Option.some.inj (ha.symm.trans hb)
      have hmem := List.mem_of_getElem? ha
      exact ⟨rfl, countOk_eq_zero_iff.mp hzero a hmem, fun hst => absurd hst (hS.status_ne a hmem)⟩
  next =>
      obtain ⟨r, hr, hsettled, hk⟩ := selectAgreeing_spec env hweight hreselect updated hS
        hintervals hcount
      exact ⟨r, hr, hsettled, hkept hk⟩

end Chrony.Sources
