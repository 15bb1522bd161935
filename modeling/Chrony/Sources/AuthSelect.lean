import Chrony.Sources.Runs

/-!
# The Selection of Authenticated Sources

The directive `authselectmode` says how authenticated and unauthenticated NTP sources are
used together. The mode adds options to the configured options of the sources, and the
options which are added depend on the numbers of selectable sources of both kinds, which
change with the table. This module states the options that the mode prescribes, shows that
every operation leaves them in the table, and what follows for the selection.

## Main results

* `step_prescribed`: every operation keeps the prescribed options.
* `run_authselectmode`: the mode is followed by every selection in every run.
-/

namespace Chrony.Sources

open Lib Lib.IntervalSweep

variable {cfg : Config} {env : Env} {s : State}

/-! ### Prescribed options -/

/-- **The options prescribed by the mode** for a source, when there are `auth` authenticated
and `unauth` unauthenticated NTP sources which can be selected. -/
def prescribedOptions (mode : AuthSelectMode) (auth unauth : ℕ) (src : Source) : SelOptions :=
  let conf := src.confSelOptions
  if conf.noselect then conf
  else
    match mode, src.type, src.authenticated with
    | .require, .ntp, false => { conf with noselect := true }
    | .prefer, .ntp, false => if 0 < auth then { conf with noselect := true } else conf
    | .mix, .ntp, true | .mix, .refclock, _ =>
        if 0 < auth ∧ 0 < unauth then { conf with require := true, trust := true } else conf
    | _, _, _ => conf

/-- Every source of the table has the prescribed options. -/
def Prescribed (cfg : Config) (sources : List Source) : Prop :=
  ∀ src ∈ sources, src.selOptions = prescribedOptions cfg.authSelectMode
    (countNtpSources true sources) (countNtpSources false sources) src

/-- `update_sel_options` computes the prescribed options. -/
theorem effectiveOptions_eq_prescribed (cfg : Config) (sources : List Source) (src : Source) :
    effectiveOptions (addedOptions cfg sources) src = prescribedOptions cfg.authSelectMode
      (countNtpSources true sources) (countNtpSources false sources) src := by
  have hnone : ∀ conf : SelOptions, conf.union .none = conf := by
    intro conf
    simp [SelOptions.union, SelOptions.none]
  have hadd : ∀ conf : SelOptions,
      conf.union { SelOptions.none with noselect := true } = { conf with noselect := true } ∧
      conf.union { SelOptions.none with require := true, trust := true } =
        { conf with require := true, trust := true } := by
    intro conf
    simp [SelOptions.union, SelOptions.none]
  rw [effectiveOptions.eq_def, prescribedOptions.eq_def]
  by_cases hconf : src.confSelOptions.noselect = true
  · rw [if_pos hconf, if_pos hconf]
  · rw [if_neg hconf, if_neg hconf, addedOptions]
    cases cfg.authSelectMode with
    | ignore => cases src.type <;> simp only [hnone, ite_self]
    | mix =>
        by_cases hboth : 0 < countNtpSources true sources ∧ 0 < countNtpSources false sources
        · simp only [gt_iff_lt, if_pos hboth]
          cases src.type <;> cases src.authenticated <;> simp [hnone, hadd]
        · simp only [gt_iff_lt, if_neg hboth, ite_self, hnone]
          cases src.type <;> cases src.authenticated <;> rfl
    | prefer =>
        by_cases hauth : 0 < countNtpSources true sources
        · simp only [gt_iff_lt, if_pos hauth]
          cases src.type <;> cases src.authenticated <;> simp [hnone, hadd]
        · simp only [gt_iff_lt, if_neg hauth, ite_self, hnone]
          cases src.type <;> cases src.authenticated <;> rfl
    | require => cases src.type <;> cases src.authenticated <;> simp [hnone, hadd]

/-! ### Changes that keep the options -/

/-- What the prescribed options depend on, with the options themselves. -/
def Source.options (src : Source) : SourceType × Bool × SelOptions × SelOptions :=
  (src.type, src.authenticated, src.confSelOptions, src.selOptions)

theorem countNtpSources_congr {l l' : List Source}
    (h : l'.map Source.options = l.map Source.options) (authenticated : Bool) :
    countNtpSources authenticated l' = countNtpSources authenticated l := by
  have hcount : ∀ l : List Source, countNtpSources authenticated l =
      (l.map Source.options).countP fun o =>
        !o.2.2.1.noselect && o.1 = .ntp && o.2.1 == authenticated := by
    intro l
    rw [List.countP_map]
    rfl
  rw [hcount, hcount, h]

theorem prescribedOptions_congr {a b : Source} (h : b.options = a.options)
    (mode : AuthSelectMode) (auth unauth : ℕ) :
    prescribedOptions mode auth unauth b = prescribedOptions mode auth unauth a := by
  simp only [Source.options, Prod.mk.injEq] at h
  obtain ⟨htype, hauth, hconf, -⟩ := h
  simp only [prescribedOptions.eq_def, htype, hauth, hconf]

/-- A table with the same options is as prescribed too. -/
theorem Prescribed.congr {l l' : List Source} (h : Prescribed cfg l)
    (hl : l'.map Source.options = l.map Source.options) : Prescribed cfg l' := by
  intro b hb
  rw [countNtpSources_congr hl, countNtpSources_congr hl]
  have hmem : b.options ∈ l.map Source.options := hl ▸ List.mem_map_of_mem hb
  obtain ⟨a, ha, hab⟩ := List.mem_map.mp hmem
  rw [prescribedOptions_congr hab.symm, ← h a ha]
  simp only [Source.options, Prod.mk.injEq] at hab
  exact hab.2.2.2.symm

/-- **A recomputation** makes any table as prescribed. -/
theorem updateSelOptions_prescribed (cfg : Config) (l : List Source) :
    Prescribed cfg (updateSelOptions cfg l) := by
  have hconf : ∀ authenticated, countNtpSources authenticated (updateSelOptions cfg l) =
      countNtpSources authenticated l := by
    intro authenticated
    rw [countNtpSources, updateSelOptions, List.countP_map]
    rfl
  intro b hb
  rw [hconf, hconf]
  obtain ⟨a, -, rfl⟩ := List.mem_map.mp hb
  exact effectiveOptions_eq_prescribed cfg l a

/-! ### The selection -/

theorem Judged.options {a b : Source} (h : Judged a b) : b.options = a.options := by
  obtain ⟨_, _, _, rfl⟩ := h
  rfl

theorem Ranked.options {a b : Source} (h : Ranked a b) : b.options = a.options := by
  obtain ⟨_, _, _, _, rfl⟩ := h
  rfl

theorem markOkSources_options (status : Status) (l : List Source) :
    (markOkSources status l).map Source.options = l.map Source.options := by
  rw [markOkSources, List.map_map]
  refine List.map_congr_left fun a _ => ?_
  rw [Function.comp_apply]
  split <;> rfl

/-- What the end of a selection leaves: the options of the table, and sources without
`noselect` which are used. -/
structure Follows (l : List Source) (r : State × Option RefCall) : Prop where
  options : r.1.sources.map Source.options = l.map Source.options
  used : ∀ i, (r.1.selected = some i ∨ ∃ ref, r.2 = some (.setReference ref) ∧ i ∈ ref.combined) →
    ∃ src, l[i]? = some src ∧ src.selOptions.noselect = false

theorem Follows.of_unselected {l l' : List Source} {call : Option RefCall}
    (hl : l'.map Source.options = l.map Source.options)
    (hcall : ∀ ref, call ≠ some (.setReference ref)) : Follows l (⟨l', none⟩, call) := by
  refine ⟨hl, ?_⟩
  rintro i (hi | ⟨ref, href, -⟩)
  · cases hi
  · exact absurd href (hcall ref)

/-- The selection among the sources which pass uses sources which were selectable before. -/
theorem selectPassing_follows {w : Sweep} {p : List Source} {selected updated : Option ℕ}
    {r : State × Option RefCall} (hsel : ∀ a ∈ p, a.status ≠ .selected)
    (hok : ∀ a ∈ p, a.status = .ok → a.selOptions.noselect = false)
    (hr : selectPassing cfg env w (p.map (judge w)) selected updated = .ok r) : Follows p r := by
  have hjudge : (p.map (judge w)).map Source.options = p.map Source.options := by
    rw [List.map_map]
    exact List.map_congr_left fun a _ => (judge_spec w a).1.options
  rw [selectPassing] at hr
  split at hr
  · cases hr
    exact .of_unselected ((markOkSources_options _ _).trans hjudge) (by simp)
  · dsimp only at hr
    split at hr
    · cases hr
    · have hpass := passSources_spec w p
      have hout : Outcome (passSources w p).2 r := by
        refine scoreSources_outcome ?_ hr
        exact hpass.forall_mem fun _ a b ha hab => hab.status_ne (hsel a ha)
      have hused : ∀ i ∈ okSet (passSources w p).2,
          ∃ src, p[i]? = some src ∧ src.selOptions.noselect = false := by
        intro i hi
        obtain ⟨b, hb, hbok⟩ := mem_okSet.mp hi
        obtain ⟨a, ha, hab⟩ := hpass.exists_left hb
        have haok := ((judge_spec w a).2.2.2 (hab.ok_iff.mp hbok).1).1
        exact ⟨a, ha, hok a (List.mem_of_getElem? ha) haok⟩
      refine ⟨?_, ?_⟩
      · rw [hout.ranked.map_eq fun _ _ _ h => h.1.options]
        exact hpass.map_eq fun _ _ _ h => h.judged.options
      · rintro i (hi | ⟨ref, href, hi⟩)
        · exact hused i (hout.selected i hi)
        · obtain ⟨_, _, _, hcombined⟩ := hout.reference ref href
          exact hused i (hcombined i hi)

/-- **A selection keeps the options**, and uses no source with `noselect`. -/
theorem selectSource_follows {updated : Option ℕ} {r : State × Option RefCall}
    (hr : selectSource cfg env s updated = .ok r) : Follows s.sources r := by
  have hupdate := countUpdate_spec s.sources updated
  rw [selectSource] at hr
  dsimp only at hr
  set sources := countUpdate s.sources updated
  obtain ⟨hcandidate, -⟩ := prepare_spec cfg env sources
  set P := prepare cfg env sources
  have hsources : sources.map Source.options = s.sources.map Source.options := by
    refine hupdate.map_eq ?_
    rintro _ a _ ⟨_, rfl⟩
    rfl
  have hP : P.sources.map Source.options = s.sources.map Source.options :=
    (hcandidate.map_eq fun _ _ _ h => h.1.options).trans hsources
  have hfollows : Follows P.sources r → Follows s.sources r := by
    intro h
    refine ⟨h.options.trans hP, fun i hi => ?_⟩
    obtain ⟨b, hb, hnoselect⟩ := h.used i hi
    have hget := congrArg (fun l => l[i]?) hP
    simp only [List.getElem?_map, hb, Option.map_some] at hget
    obtain ⟨a, ha, hab⟩ := Option.map_eq_some_iff.mp hget.symm
    simp only [Source.options, Prod.mk.injEq] at hab
    exact ⟨a, ha, hab.2.2.2 ▸ hnoselect⟩
  split at hr
  · cases hr
    exact .of_unselected hsources (by simp)
  split at hr
  · cases hr
  split at hr
  · cases hr
    exact .of_unselected ((markOkSources_options _ _).trans hP) (by simp)
  split at hr
  · cases hr
    exact .of_unselected hP (by simp)
  · refine hfollows ?_
    rw [selectAgreeing] at hr
    split at hr
    · cases hr
    next w _ =>
        split at hr
        · cases hr
        split at hr
        · cases hr
        split at hr
        · cases hr
          refine .of_unselected (markOkSources_options _ _) fun ref => ?_
          split <;> simp
        · refine selectPassing_follows ?_ ?_ hr
          · exact hcandidate.forall_mem fun _ a b _ hab => hab.2.1
          · exact hcandidate.forall_mem fun _ a b _ hab hok => (hab.2.2 hok).noselect

/-! ### Operations -/

/-- The arguments of a call of `SRC_SelectSource`, with the table at the call. -/
structure SelectCall where
  env : Env
  state : State
  updated : Option ℕ

/-- The call of `SRC_SelectSource` in an operation, if there is one. -/
def selectCall (cfg : Config) (s : State) : Op → Option SelectCall
  | .create env _ => if s.selected = some s.sources.length then some ⟨env, s, none⟩ else none
  | .destroy env position =>
      match s.sources[position]? with
      | none => none
      | some src =>
          let deadIndex := src.index
          let sources := updateSelOptions cfg (removeSource deadIndex s.sources)
          let selected := match s.selected with
            | none => none
            | some k =>
                if k > deadIndex then some (k - 1) else if k = deadIndex then none else some k
          some ⟨env, ⟨sources, selected⟩, none⟩
  | .reset env position =>
      match s.sources[position]? with
      | none => none
      | some src =>
          if s.selected = some src.index then
            some ⟨env, { s with sources := s.sources.modify position Source.reset }, none⟩
          else none
  | .updateReachability env _ position reachable =>
      let s := { s with sources := s.sources.modify position (·.updateReachability reachable) }
      if s.sources[position]?.any fun src => src.reachability = 0 then some ⟨env, s, none⟩
      else none
  | .resetReachability env _ position =>
      let s := { s with sources := s.sources.modify position fun src =>
        { src with reachability := 0, reachabilitySize := 0, unreachableRun := 0 } }
      let s := { s with sources := s.sources.modify position (·.updateReachability false) }
      if s.sources[position]?.any fun src => src.reachability = 0 then some ⟨env, s, none⟩
      else none
  | .selectSource env updated => some ⟨env, s, updated.filter (· < s.sources.length)⟩
  | .reselectSource env => some ⟨env, { s with selected := none }, none⟩
  | .unknownStep env => some ⟨env, s, none⟩
  | .reloadSources env dumps =>
      some ⟨env, { s with sources := s.sources.mapIdx fun i src => src.load (dumps i) }, none⟩
  | .setRefid .. | .updateStatus .. | .accumulateSample .. | .setActive ..
  | .modifySelectOptions .. | .setReselectDistance _ => none

/-- A change of one source which is not a change of its options. -/
theorem Prescribed.modify {l : List Source} (h : Prescribed cfg l) (f : Source → Source)
    (hf : ∀ a, (f a).options = a.options) (i : ℕ) : Prescribed cfg (l.modify i f) := by
  have hmodify : Pointwise (fun _ a b => b.options = a.options) l (l.modify i f) :=
    .of_modify (fun _ _ => rfl) fun a _ => hf a
  exact h.congr (hmodify.map_eq fun _ _ _ hab => hab)

theorem Prescribed.load {l : List Source} (h : Prescribed cfg l) (dumps : ℕ → Option Dump) :
    Prescribed cfg (l.mapIdx fun i src => src.load (dumps i)) := by
  have hload : Pointwise (fun _ a b => b.options = a.options) l
      (l.mapIdx fun i src => src.load (dumps i)) := by
    refine .of_mapIdx fun i a _ => ?_
    cases dumps i with
    | none => rfl
    | some dump => rfl
  exact h.congr (hload.map_eq fun _ _ _ hab => hab)

/-- The table at a selection is as prescribed. -/
theorem selectCall_prescribed (h : Prescribed cfg s.sources) {op : Op} {c : SelectCall}
    (hc : selectCall cfg s op = some c) : Prescribed cfg c.state.sources := by
  cases op with
  | create env new =>
      rw [selectCall] at hc
      split at hc
      · cases hc
        exact h
      · cases hc
  | destroy env position =>
      rw [selectCall] at hc
      split at hc
      · cases hc
      · cases hc
        exact updateSelOptions_prescribed cfg _
  | reset env position =>
      rw [selectCall] at hc
      split at hc
      · cases hc
      · split at hc
        · cases hc
          exact h.modify Source.reset (fun _ => rfl) position
        · cases hc
  | updateReachability env normalMode position reachable =>
      rw [selectCall] at hc
      dsimp only at hc
      split at hc
      · cases hc
        exact h.modify (·.updateReachability reachable) (fun _ => rfl) position
      · cases hc
  | resetReachability env normalMode position =>
      rw [selectCall] at hc
      dsimp only at hc
      split at hc
      · cases hc
        have hreset := h.modify (fun src => { src with
          reachability := 0, reachabilitySize := 0, unreachableRun := 0 }) (fun _ => rfl) position
        exact hreset.modify (·.updateReachability false) (fun _ => rfl) position
      · cases hc
  | selectSource env updated =>
      cases hc
      exact h
  | reselectSource env =>
      cases hc
      exact h
  | unknownStep env =>
      cases hc
      exact h
  | reloadSources env dumps =>
      cases hc
      exact h.load dumps
  | setRefid position refId ipAddr => cases hc
  | updateStatus position stratum leap leapSecondClose => cases hc
  | accumulateSample position => cases hc
  | setActive position active => cases hc
  | modifySelectOptions ip refId options mask => cases hc
  | setReselectDistance distance => cases hc

theorem map_fst_eq_ok {α β ε : Type} {x : Except ε (α × β)} {a : α} (h : x.map (·.1) = .ok a) :
    ∃ b, x = .ok (a, b) := by
  cases x with
  | error e => cases h
  | ok r =>
      cases h
      exact ⟨r.2, rfl⟩

theorem selectCall_updateReachability {normalMode reachable : Bool} {position : ℕ} {c : SelectCall}
    {s' : State} {calls : List RefCall}
    (hc : (let s := { s with
        sources := s.sources.modify position (·.updateReachability reachable) }
      if s.sources[position]?.any fun src => src.reachability = 0 then
        some (⟨env, s, none⟩ : SelectCall)
      else none) = some c)
    (hupdate : updateReachability cfg env normalMode s position reachable = .ok (s', calls)) :
    ∃ t call, selectSource cfg c.env c.state c.updated = .ok (t, call) ∧
      t.selected = s'.selected := by
  dsimp only at hc
  rw [updateReachability] at hupdate
  dsimp only at hupdate
  split at hc
  next hzero =>
      cases hc
      rw [if_pos hzero, bind_eq_ok_iff] at hupdate
      obtain ⟨⟨t, call⟩, hr, heq⟩ := hupdate
      cases heq
      exact ⟨t, call, hr, rfl⟩
  · cases hc

/-- An operation with a selection ends with what the selection leaves selected. -/
theorem step_of_selectCall {op : Op} {c : SelectCall} {s' : State}
    (hc : selectCall cfg s op = some c) (hstep : step cfg s op = .ok s') :
    ∃ t call, selectSource cfg c.env c.state c.updated = .ok (t, call) ∧
      t.selected = s'.selected := by
  cases op with
  | create env new =>
      rw [selectCall] at hc
      split at hc
      next hselected =>
          cases hc
          obtain ⟨call, hcreate⟩ := map_fst_eq_ok hstep
          rw [createNewInstance, if_pos hselected, bind_eq_ok_iff] at hcreate
          obtain ⟨⟨t, call'⟩, hr, heq⟩ := hcreate
          cases heq
          exact ⟨t, _, hr, rfl⟩
      · cases hc
  | destroy env position =>
      rw [selectCall] at hc
      obtain ⟨call, hdestroy⟩ := map_fst_eq_ok hstep
      rw [destroyInstance] at hdestroy
      split at hc
      · cases hc
      next src hsrc =>
          cases hc
          rw [hsrc] at hdestroy
          dsimp only at hdestroy
          split at hdestroy
          · cases hdestroy
          · exact ⟨s', call, hdestroy, rfl⟩
  | reset env position =>
      rw [selectCall] at hc
      obtain ⟨call, hreset⟩ := map_fst_eq_ok hstep
      rw [resetInstance] at hreset
      split at hc
      · cases hc
      next src hsrc =>
          split at hc
          next hselected =>
              cases hc
              rw [hsrc] at hreset
              dsimp only at hreset
              rw [if_pos hselected] at hreset
              exact ⟨s', call, hreset, rfl⟩
          · cases hc
  | updateReachability env normalMode position reachable =>
      rw [selectCall] at hc
      obtain ⟨calls, hupdate⟩ := map_fst_eq_ok hstep
      exact selectCall_updateReachability hc hupdate
  | resetReachability env normalMode position =>
      rw [selectCall] at hc
      obtain ⟨calls, hupdate⟩ := map_fst_eq_ok hstep
      exact selectCall_updateReachability hc hupdate
  | selectSource env updated =>
      cases hc
      obtain ⟨call, hr⟩ := map_fst_eq_ok hstep
      exact ⟨s', call, hr, rfl⟩
  | reselectSource env =>
      cases hc
      obtain ⟨call, hr⟩ := map_fst_eq_ok hstep
      exact ⟨s', call, hr, rfl⟩
  | unknownStep env =>
      cases hc
      obtain ⟨call, hr⟩ := map_fst_eq_ok hstep
      exact ⟨s', call, hr, rfl⟩
  | reloadSources env dumps =>
      cases hc
      obtain ⟨call, hr⟩ := map_fst_eq_ok hstep
      exact ⟨s', call, hr, rfl⟩
  | setRefid position refId ipAddr => cases hc
  | updateStatus position stratum leap leapSecondClose => cases hc
  | accumulateSample position => cases hc
  | setActive position active => cases hc
  | modifySelectOptions ip refId options mask => cases hc
  | setReselectDistance distance => cases hc

theorem selectSource_prescribed (h : Prescribed cfg s.sources) {updated : Option ℕ}
    {r : State × Option RefCall} (hr : selectSource cfg env s updated = .ok r) :
    Prescribed cfg r.1.sources :=
  h.congr (selectSource_follows hr).options

theorem updateReachability_prescribed (h : Prescribed cfg s.sources) {normalMode reachable : Bool}
    {position : ℕ} {r : State × List RefCall}
    (hr : updateReachability cfg env normalMode s position reachable = .ok r) :
    Prescribed cfg r.1.sources := by
  have hmodify := h.modify (·.updateReachability reachable) (fun _ => rfl) position
  rw [updateReachability] at hr
  dsimp only at hr
  split at hr
  · rw [bind_eq_ok_iff] at hr
    obtain ⟨⟨t, call⟩, hselect, heq⟩ := hr
    cases heq
    exact selectSource_prescribed hmodify hselect
  · cases hr
    exact hmodify

/-- **Every operation keeps the prescribed options.** -/
theorem step_prescribed (h : Prescribed cfg s.sources) {op : Op} {s' : State}
    (hstep : step cfg s op = .ok s') : Prescribed cfg s'.sources := by
  cases op with
  | create env new =>
      obtain ⟨call, hcreate⟩ := map_fst_eq_ok hstep
      rw [createNewInstance] at hcreate
      split at hcreate
      all_goals
        rw [bind_eq_ok_iff] at hcreate
        obtain ⟨r, -, heq⟩ := hcreate
        cases heq
        exact updateSelOptions_prescribed cfg _
  | destroy env position =>
      obtain ⟨call, hdestroy⟩ := map_fst_eq_ok hstep
      rw [destroyInstance] at hdestroy
      split at hdestroy
      · cases hdestroy
        exact h
      · dsimp only at hdestroy
        split at hdestroy
        · cases hdestroy
        · exact selectSource_prescribed (updateSelOptions_prescribed cfg _) hdestroy
  | reset env position =>
      obtain ⟨call, hreset⟩ := map_fst_eq_ok hstep
      have hmodify := h.modify Source.reset (fun _ => rfl) position
      rw [resetInstance] at hreset
      split at hreset
      · cases hreset
        exact h
      · dsimp only at hreset
        split at hreset
        · exact selectSource_prescribed hmodify hreset
        · cases hreset
          exact hmodify
  | setRefid position refId ipAddr =>
      cases hstep
      exact h.modify (fun src => { src with refId, ipAddr }) (fun _ => rfl) position
  | updateStatus position stratum leap leapSecondClose =>
      cases hstep
      refine h.modify (·.updateStatus stratum leap leapSecondClose) (fun a => ?_) position
      rw [Source.updateStatus]
      split <;> rfl
  | accumulateSample position =>
      cases hstep
      exact h
  | setActive position active =>
      cases hstep
      exact h.modify (fun src => { src with active }) (fun _ => rfl) position
  | updateReachability env normalMode position reachable =>
      obtain ⟨calls, hupdate⟩ := map_fst_eq_ok hstep
      exact updateReachability_prescribed h hupdate
  | resetReachability env normalMode position =>
      obtain ⟨calls, hupdate⟩ := map_fst_eq_ok hstep
      have hreset := h.modify (fun src => { src with
        reachability := 0, reachabilitySize := 0, unreachableRun := 0 }) (fun _ => rfl) position
      exact updateReachability_prescribed hreset hupdate
  | modifySelectOptions ip refId options mask =>
      cases hstep
      rw [modifySelectOptions]
      split
      · exact h
      · split
        · exact h
        · exact updateSelOptions_prescribed cfg _
  | selectSource env updated =>
      obtain ⟨call, hr⟩ := map_fst_eq_ok hstep
      exact selectSource_prescribed h hr
  | reselectSource env =>
      obtain ⟨call, hr⟩ := map_fst_eq_ok hstep
      have hnone : Prescribed cfg ({ s with selected := none } : State).sources := h
      exact selectSource_prescribed hnone hr
  | unknownStep env =>
      obtain ⟨call, hr⟩ := map_fst_eq_ok hstep
      exact selectSource_prescribed h hr
  | reloadSources env dumps =>
      obtain ⟨call, hr⟩ := map_fst_eq_ok hstep
      have hload : Prescribed cfg ({ s with
        sources := s.sources.mapIdx fun i src => src.load (dumps i) } : State).sources :=
        h.load dumps
      exact selectSource_prescribed hload hr
  | setReselectDistance distance =>
      cases hstep
      exact h

/-- The mode is not changed by the operations. -/
theorem configAfter_eq (cfg : Config) (ops : List Op) :
    ∃ distance, configAfter cfg ops = { cfg with reselectDistance := distance } := by
  induction ops generalizing cfg with
  | nil => exact ⟨cfg.reselectDistance, rfl⟩
  | cons op ops ih =>
      obtain ⟨distance, hconfig, -⟩ := op.config_eq cfg
      obtain ⟨distance', hafter⟩ := ih (op.config cfg)
      refine ⟨distance', ?_⟩
      rw [configAfter, List.foldl_cons]
      exact hafter.trans (by rw [hconfig])

theorem run_prescribed {ops : List Op} (hrun : run cfg .init ops = .ok s) :
    Prescribed cfg s.sources := by
  suffices hgen : ∀ s₀ : State, Prescribed cfg s₀.sources → run cfg s₀ ops = .ok s →
      Prescribed cfg s.sources from hgen _ (fun src hsrc => by cases hsrc) hrun
  clear hrun
  induction ops generalizing cfg with
  | nil =>
      intro s₀ h hrun
      cases hrun
      exact h
  | cons op ops ih =>
      intro s₀ h hrun
      rw [run, bind_eq_ok_iff] at hrun
      obtain ⟨s₁, hstep, hrun⟩ := hrun
      obtain ⟨distance, hconfig, -⟩ := op.config_eq cfg
      rw [hconfig] at hrun
      have hrest : Prescribed { cfg with reselectDistance := distance } s.sources :=
        ih s₁ (step_prescribed h hstep) hrun
      exact hrest

/-! ### What the modes guarantee -/

/-- The source is an unauthenticated NTP source. -/
def Source.Unauthenticated (src : Source) : Prop :=
  src.type = .ntp ∧ src.authenticated = false

/-- The mode and the table exclude unauthenticated NTP sources. -/
def AuthRequired (cfg : Config) (sources : List Source) : Prop :=
  cfg.authSelectMode = .require ∨
    cfg.authSelectMode = .prefer ∧ 0 < countNtpSources true sources

/-- The mode mixes NTP sources of both kinds, and no unauthenticated one is configured to be
required or trusted. -/
structure Mixed (cfg : Config) (sources : List Source) : Prop where
  mode : cfg.authSelectMode = .mix
  auth : 0 < countNtpSources true sources
  unauth : 0 < countNtpSources false sources
  conf : ∀ src ∈ sources, src.Unauthenticated →
    src.confSelOptions.require = false ∧ src.confSelOptions.trust = false

/-- Unauthenticated NTP sources which are excluded have the option `noselect`. -/
theorem Prescribed.noselect {l : List Source} (h : Prescribed cfg l) (hauth : AuthRequired cfg l)
    {src : Source} (hsrc : src ∈ l) (hun : src.Unauthenticated) :
    src.selOptions.noselect = true := by
  rw [h src hsrc, prescribedOptions.eq_def]
  by_cases hconf : src.confSelOptions.noselect = true
  · rw [if_pos hconf, hconf]
  · rw [if_neg hconf, hun.1, hun.2]
    rcases hauth with hmode | ⟨hmode, hpos⟩
    · rw [hmode]
    · rw [hmode]
      simp [hpos]

/-- With sources of both kinds, the sources which can be selected and are not unauthenticated
NTP sources are required and trusted, and no other source which can be selected is. -/
theorem Prescribed.mixed {l : List Source} (h : Prescribed cfg l) (hmix : Mixed cfg l)
    {src : Source} (hsrc : src ∈ l) (hselect : src.selOptions.noselect = false) :
    (src.selOptions.require = true ↔ ¬src.Unauthenticated) ∧
      (src.selOptions.trust = true ↔ ¬src.Unauthenticated) := by
  have hopt := h src hsrc
  have hunconf := hmix.conf src hsrc
  have hconf : ¬src.confSelOptions.noselect = true := by
    intro hconf
    rw [prescribedOptions.eq_def, if_pos hconf] at hopt
    rw [hopt, hconf] at hselect
    cases hselect
  rw [prescribedOptions.eq_def, if_neg hconf, hmix.mode] at hopt
  rw [hopt]
  rw [Source.Unauthenticated] at hunconf ⊢
  cases htype : src.type with
  | refclock => simp [hmix.auth, hmix.unauth]
  | ntp =>
      cases hauth : src.authenticated with
      | true => simp [hmix.auth, hmix.unauth]
      | false =>
          obtain ⟨hrequire, htrust⟩ := hunconf ⟨htype, hauth⟩
          simp [hrequire, htrust]

/-- An excluded source is neither selected nor combined. -/
theorem selectSource_authenticated (h : Prescribed cfg s.sources)
    (hauth : AuthRequired cfg s.sources) {updated : Option ℕ} {r : State × Option RefCall}
    (hr : selectSource cfg env s updated = .ok r) {i : ℕ} {src : Source}
    (hsrc : r.1.sources[i]? = some src)
    (hi : r.1.selected = some i ∨ ∃ ref, r.2 = some (.setReference ref) ∧ i ∈ ref.combined) :
    ¬src.Unauthenticated := by
  obtain ⟨hoptions, hused⟩ := selectSource_follows hr
  obtain ⟨a, ha, hselect⟩ := hused i hi
  have hget := congrArg (fun l => l[i]?) hoptions
  simp only [List.getElem?_map, hsrc, ha, Option.map_some, Option.some.injEq, Source.options,
    Prod.mk.injEq] at hget
  rintro ⟨htype, hun⟩
  have hnoselect := h.noselect hauth (List.mem_of_getElem? ha)
    ⟨hget.1.symm.trans htype, hget.2.1.symm.trans hun⟩
  rw [hselect] at hnoselect
  cases hnoselect

/-- The sources whose majority counts are the trusted ones if one of them is selectable. -/
theorem considered_of_trusted {p : List Source} {i : ℕ} (hi : i ∈ okSet p)
    (htrusted : trusted p i = true) :
    considered p = (okSet p).filter fun i => trusted p i :=
  if_pos ⟨i, hi, htrusted⟩

/-- **A mixed reference.** One of the sources which agree with the best interval is not an
unauthenticated NTP source, and more than half of the trusted selectable sources, which
are not either, have a point in common. -/
structure MixedSelection (p : List Source) (w : Sweep) : Prop where
  required : ∃ i ∈ okSet (p.map (judge w)), ∃ src, p[i]? = some src ∧ ¬src.Unauthenticated
  trust_iff : ∀ i ∈ okSet p, ∀ src, p[i]? = some src →
    (trusted p i = true ↔ ¬src.Unauthenticated)
  majority : ∃ x, ((okSet p).filter fun i => trusted p i).card <
    2 * (((okSet p).filter fun i => trusted p i).filter
      fun i => loAt p i ≤ x ∧ x ≤ hiAt p i).card

theorem selectSource_mixed (h : Prescribed cfg s.sources) (hmix : Mixed cfg s.sources)
    {updated : Option ℕ} {s' : State} {ref : Reference}
    (hr : selectSource cfg env s updated = .ok (s', some (.setReference ref))) :
    ∃ w, sweep (prepare cfg env (countUpdate s.sources updated)).sources
        (env.qsort.sort (endpoints (prepare cfg env (countUpdate s.sources updated)).sources)) =
          .ok w ∧
      MixedSelection (prepare cfg env (countUpdate s.sources updated)).sources w := by
  obtain ⟨w, hw, hsound⟩ := selectSource_sound cfg env s s' updated ref hr
  obtain ⟨hcandidate, -⟩ := prepare_spec cfg env (countUpdate s.sources updated)
  set p := (prepare cfg env (countUpdate s.sources updated)).sources
  have hp : p.map Source.options = s.sources.map Source.options := by
    refine (hcandidate.map_eq fun _ _ _ hab => hab.1.options).trans ?_
    refine (countUpdate_spec s.sources updated).map_eq ?_
    rintro _ a _ ⟨_, rfl⟩
    rfl
  have hprescribed : Prescribed cfg p := h.congr hp
  have hmixed : Mixed cfg p := by
    refine ⟨hmix.mode, ?_, ?_, fun b hb hun => ?_⟩
    · rw [countNtpSources_congr hp]
      exact hmix.auth
    · rw [countNtpSources_congr hp]
      exact hmix.unauth
    · have hmem : b.options ∈ s.sources.map Source.options := hp ▸ List.mem_map_of_mem hb
      obtain ⟨a, ha, hab⟩ := List.mem_map.mp hmem
      simp only [Source.options, Prod.mk.injEq] at hab
      rw [← hab.2.2.1]
      exact hmix.conf a ha ⟨hab.1.trans hun.1, hab.2.1.trans hun.2⟩
  have hselectable : ∀ a ∈ p, a.status = .ok → a.selOptions.noselect = false :=
    hcandidate.forall_mem fun _ a b _ hab hok => (hab.2.2 hok).noselect
  have htrusted : ∀ i ∈ okSet p, ∀ src, p[i]? = some src →
      (trusted p i = true ↔ ¬src.Unauthenticated) := by
    intro i hi src hsrc
    obtain ⟨a, ha, hok⟩ := mem_okSet.mp hi
    obtain rfl : a = src := Option.some.inj (ha.symm.trans hsrc)
    have hmem := List.mem_of_getElem? ha
    rw [trusted, ha]
    exact (hprescribed.mixed hmixed hmem (hselectable a hmem hok)).2
  -- a selectable authenticated source is required, so a required one passes
  obtain ⟨i, hi, a, ha, haok, hun⟩ : ∃ i ∈ okSet (p.map (judge w)), ∃ a, p[i]? = some a ∧
      a.status = .ok ∧ ¬a.Unauthenticated := by
    obtain ⟨b, hb, hauth⟩ := List.countP_pos_iff.mp hmixed.auth
    simp only [Bool.and_eq_true, Bool.not_eq_true', decide_eq_true_eq, beq_iff_eq] at hauth
    have hb' : b.selOptions.require = true := by
      rw [hprescribed b hb, prescribedOptions.eq_def, if_neg (by simp [hauth.1.1]), hmix.mode,
        hauth.1.2, hauth.2]
      simp [hmixed.auth, hmixed.unauth]
    obtain ⟨w', hw', -, hpassing⟩ := selectAgreeing_reference (selectSource_reference hr)
    obtain rfl : w' = w := Except.ok.inj (hw'.symm.trans hw)
    obtain ⟨i, a, ha, hok, hreq'⟩ :=
      exists_required_of_selReqSource (selectPassing_reference hpassing).1 hb hb'
    have haok := ((judge_spec w' a).2.2.2 hok).1
    have hmem := List.mem_of_getElem? ha
    refine ⟨i, mem_okSet_map.mpr ⟨a, ha, hok⟩, a, ha, haok, ?_⟩
    exact (hprescribed.mixed hmixed hmem (hselectable a hmem haok)).1.mp hreq'
  have hiok : i ∈ okSet p := mem_okSet.mpr ⟨a, ha, haok⟩
  have hmajority := hsound.majority
  rw [considered_of_trusted hiok ((htrusted i hiok a ha).mpr hun)] at hmajority
  exact ⟨w, hw, ⟨i, hi, a, ha, hun⟩, htrusted, hmajority⟩

/-- **The mode `authselectmode` in every run.** After any sequence of operations, every source
has the options that the mode prescribes for its configured options, type and authentication
and for the numbers of selectable authenticated and unauthenticated NTP sources. In every
call of `SRC_SelectSource` by the next operation, unauthenticated NTP sources are neither
selected nor combined when they are excluded, and with mixed sources the reference is set
only if a source that is not an unauthenticated NTP source agrees with the best interval,
and more than half of the trusted selectable sources agree. -/
theorem run_authselectmode (cfg : Config) (ops : List Op) (s : State)
    (hrun : run cfg .init ops = .ok s) :
    (∀ src ∈ s.sources, src.selOptions = prescribedOptions cfg.authSelectMode
      (countNtpSources true s.sources) (countNtpSources false s.sources) src) ∧
    ∀ op c s', selectCall (configAfter cfg ops) s op = some c →
      step (configAfter cfg ops) s op = .ok s' →
      ∃ t call, selectSource (configAfter cfg ops) c.env c.state c.updated = .ok (t, call) ∧
        t.selected = s'.selected ∧
        (AuthRequired cfg c.state.sources → ∀ i src, t.sources[i]? = some src →
          (t.selected = some i ∨ ∃ ref, call = some (.setReference ref) ∧ i ∈ ref.combined) →
          ¬src.Unauthenticated) ∧
        (Mixed cfg c.state.sources → ∀ ref, call = some (.setReference ref) →
          let p := (prepare (configAfter cfg ops) c.env
            (countUpdate c.state.sources c.updated)).sources
          ∃ w, sweep p (c.env.qsort.sort (endpoints p)) = .ok w ∧ MixedSelection p w) := by
  have h := run_prescribed hrun
  refine ⟨h, fun op c s' hc hstep => ?_⟩
  obtain ⟨distance, hconfig⟩ := configAfter_eq cfg ops
  rw [hconfig] at hc hstep ⊢
  obtain ⟨t, call, hr, hselected⟩ := step_of_selectCall hc hstep
  have hprescribed : Prescribed { cfg with reselectDistance := distance } s.sources := h
  have hcall := selectCall_prescribed hprescribed hc
  refine ⟨t, call, hr, hselected, fun hauth i src hsrc hi => ?_, ?_⟩
  · exact selectSource_authenticated hcall hauth hr hsrc hi
  · rintro hmix ref rfl
    exact selectSource_mixed hcall ⟨hmix.mode, hmix.auth, hmix.unauth, hmix.conf⟩ hr

/-- An authenticated and an unauthenticated source get a sample. -/
def mixedOps : List Op :=
  [.create sampleEnv ⟨1, .ntp, true, .none, .inet4 1, 100000⟩,
    .create sampleEnv ⟨2, .ntp, false, .none, .inet4 2, 100000⟩,
    .updateStatus 0 2 .normal false, .updateReachability sampleEnv true 0 true,
    .updateStatus 1 2 .normal false, .updateReachability sampleEnv true 1 true]

/-- The authenticated one of two sources is required and trusted. The interval of the other
one is not contained in its interval, so it is not combined. -/
theorem run_authselectmode_mixedOps :
    ∃ s, run sampleConfig .init mixedOps = .ok s ∧
      s.sources.map (·.selOptions) =
        [{ SelOptions.none with trust := true, require := true }, .none] ∧
      ∃ s' t ref w, step sampleConfig s (.selectSource sampleEnv (some 0)) = .ok s' ∧
        selectSource sampleConfig sampleEnv s (some 0) = .ok (t, some (.setReference ref)) ∧
        (t.selected, ref.combined) = (some 0, [0]) ∧ t.selected = s'.selected ∧
        MixedSelection (prepare sampleConfig sampleEnv (countUpdate s.sources (some 0))).sources
          w := by
  have hrun : (run sampleConfig .init mixedOps).toOption.map (fun s =>
      (s.sources.map (·.selOptions), s.sources.length, countNtpSources true s.sources,
        countNtpSources false s.sources,
        s.sources.all fun src => !src.confSelOptions.require && !src.confSelOptions.trust)) =
      some ([{ SelOptions.none with trust := true, require := true }, .none], 2, 1, 1, true) := by
    decide +kernel
  obtain ⟨s, hs, hresult⟩ := exists_ok_of_map_toOption hrun
  simp only [Prod.mk.injEq] at hresult
  obtain ⟨hoptions, hlength, hauth, hunauth, hconf⟩ := hresult
  have hselect : (run sampleConfig .init mixedOps).toOption.bind (fun s =>
      (selectSource sampleConfig sampleEnv s (some 0)).toOption.map fun r =>
        (r.1.selected, r.2.bind fun
          | .setUnsynchronised => none
          | .setReference ref => some ref.combined)) = some (some 0, some [0]) := by
    decide +kernel
  rw [hs] at hselect
  obtain ⟨⟨t, call⟩, hr, hcall⟩ := exists_ok_of_map_toOption hselect
  have hupdated : (some 0).filter (· < s.sources.length) = some 0 := by simp [hlength]
  have hstep : step sampleConfig s (.selectSource sampleEnv (some 0)) = .ok t := by
    rw [step, hupdated, hr]
    rfl
  have hmixed : Mixed sampleConfig s.sources := by
    refine ⟨rfl, by rw [hauth]; decide, by rw [hunauth]; decide, fun src hsrc _ => ?_⟩
    simpa using List.all_eq_true.mp hconf src hsrc
  obtain ⟨-, hnext⟩ := run_authselectmode sampleConfig mixedOps s hs
  obtain ⟨t', call', hr', hselected, -, hmix⟩ := hnext _
    ⟨sampleEnv, s, (some 0).filter (· < s.sources.length)⟩ t rfl hstep
  dsimp only at hr' hmix
  rw [hupdated] at hr' hmix
  cases hr.symm.trans hr'
  rcases call with _ | _ | ref
  · cases congrArg Prod.snd hcall
  · cases congrArg Prod.snd hcall
  · obtain ⟨w, -, hselection⟩ := hmix hmixed ref rfl
    exact ⟨s, hs, hoptions, t, t, ref, w, hstep, hr, by simpa using hcall, rfl, hselection⟩

end Chrony.Sources
