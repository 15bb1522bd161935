import Chrony.Lib.Run
import Chrony.Sources.Status

/-!
# Runs of the Table of Sources

The public operations of `sources.c` as steps. Each operation which can call
`SRC_SelectSource` comes with what the selection reads from other modules.

## Main results

* `run_selection_status`: the statuses are consistent after every sequence of operations in which
  no distance is negative.
* `run_selection_status_negativeOps`: an assertion which fails with a negative distance.
-/

namespace Chrony.Sources

open Lib Lib.IntervalSweep

/-! ### Operations -/

/-- The arguments of `SRC_CreateNewInstance` kept in the table. -/
structure NewSource where
  refId : BitVec 32
  type : SourceType
  authenticated : Bool
  selOptions : SelOptions
  ipAddr : IPAddr
  maxUnreach : ℤ

/-- What `load_source` reads from a valid dump file. -/
structure Dump where
  reach : ℕ
  reachSize : ℕ
  stratum : ℤ
  leap : Leap

section Operations

variable (cfg : Config)

/-- The new instance of `SRC_CreateNewInstance`. -/
def NewSource.toSource (new : NewSource) (index : ℕ) : Source :=
  Source.reset
    { index
      refId := new.refId
      ipAddr := new.ipAddr
      active := false
      reachability := 0
      reachabilitySize := 0
      unreachableRun := 0
      maxUnreachableRun := new.maxUnreach
      updates := 0
      distant := 0
      status := .badStats
      type := new.type
      authenticated := new.authenticated
      confSelOptions := new.selOptions
      selOptions := new.selOptions
      selScore := 1
      selInfo := ⟨0, 0, 0, 0, 0⟩
      stratum := 0
      leap := .unsynchronised
      leapVote := false }

/-- `SRC_CreateNewInstance`. The reset of the new instance would start a selection if the
instance was selected. -/
def createNewInstance (env : Env) (s : State) (new : NewSource) :
    Except Assertion (State × Option RefCall) := do
  let (s, call) ←
    if s.selected = some s.sources.length then selectSource cfg env s none else pure (s, none)
  let sources := s.sources ++ [new.toSource s.sources.length]
  pure ({ s with sources := updateSelOptions cfg sources }, call)

/-- The table without the instance at `deadIndex`. -/
def removeSource (deadIndex : ℕ) (sources : List Source) : List Source :=
  (sources.eraseIdx deadIndex).mapIdx fun i src =>
    if deadIndex ≤ i then { src with index := i } else src

/-- `SRC_DestroyInstance`. -/
def destroyInstance (env : Env) (s : State) (position : ℕ) :
    Except Assertion (State × Option RefCall) :=
  match s.sources[position]? with
  | none => .ok (s, none)
  | some src =>
      let deadIndex := src.index
      if deadIndex ≠ position then .error .instanceInTable
      else
        let sources := updateSelOptions cfg (removeSource deadIndex s.sources)
        let selected := match s.selected with
          | none => none
          | some k => if k > deadIndex then some (k - 1) else if k = deadIndex then none else some k
        selectSource cfg env ⟨sources, selected⟩ none

/-- `SRC_ResetInstance`. -/
def resetInstance (env : Env) (s : State) (position : ℕ) :
    Except Assertion (State × Option RefCall) :=
  match s.sources[position]? with
  | none => .ok (s, none)
  | some src =>
      let s := { s with sources := s.sources.modify position Source.reset }
      if s.selected = some src.index then selectSource cfg env s none else .ok (s, none)

/-- `SRC_UpdateReachability`. The flag says whether the mode of the reference is normal. -/
def updateReachability (env : Env) (normalMode : Bool) (s : State) (position : ℕ)
    (reachable : Bool) : Except Assertion (State × List RefCall) := do
  let s := { s with sources := s.sources.modify position (·.updateReachability reachable) }
  let calls := if !normalMode && specialModeEnd env.stats s.sources then
    [RefCall.setUnsynchronised] else []
  if s.sources[position]?.any fun src => src.reachability = 0 then
    let (s, call) ← selectSource cfg env s none
    pure (s, calls ++ call.toList)
  else pure (s, calls)

/-- `SRC_ModifySelectOptions`. -/
def modifySelectOptions (s : State) (ip : IPAddr) (refId : BitVec 32)
    (options mask : SelOptions) : State :=
  match findSource s.sources ip refId with
  | none => s
  | some i =>
      if s.sources[i]?.any fun src => src.confSelOptions.inter mask = options then s
      else
        let sources := s.sources.modify i fun src =>
          { src with confSelOptions := (src.confSelOptions.inter mask.compl).union options }
        { s with sources := updateSelOptions cfg sources }

/-- `load_source`, and the update counted by `SRC_ReloadSources`. -/
def Source.load (src : Source) (dump : Option Dump) : Source :=
  let src := match dump with
    | none => src
    | some dump =>
        { src with
          reachability := dump.reach % 2 ^ sourceReachBits
          reachabilitySize := min dump.reachSize sourceReachBits
          stratum := dump.stratum
          leap := dump.leap }
  { src with updates := src.updates + 1 }

/-- `SRC_UpdateStatus`, when no leap second is close. -/
def Source.updateStatus (src : Source) (stratum : ℤ) (leap : Leap) (leapSecondClose : Bool) :
    Source :=
  if leapSecondClose then { src with stratum } else { src with stratum, leap }

/-- The public operations. Instances are named by their positions in the table. -/
inductive Op
  | create (env : Env) (new : NewSource)
  | destroy (env : Env) (position : ℕ)
  | reset (env : Env) (position : ℕ)
  | setRefid (position : ℕ) (refId : BitVec 32) (ipAddr : IPAddr)
  | updateStatus (position : ℕ) (stratum : ℤ) (leap : Leap) (leapSecondClose : Bool)
  | accumulateSample (position : ℕ)
  | setActive (position : ℕ) (active : Bool)
  | updateReachability (env : Env) (normalMode : Bool) (position : ℕ) (reachable : Bool)
  | resetReachability (env : Env) (normalMode : Bool) (position : ℕ)
  | modifySelectOptions (ip : IPAddr) (refId : BitVec 32) (options mask : SelOptions)
  | selectSource (env : Env) (updated : Option ℕ)
  | reselectSource (env : Env)
  | unknownStep (env : Env)
  | reloadSources (env : Env) (dumps : ℕ → Option Dump)
  | setReselectDistance (distance : ℚ)

/-- The table after an operation. -/
def step (s : State) : Op → Except Assertion State
  | .create env new => (createNewInstance cfg env s new).map (·.1)
  | .destroy env position => (destroyInstance cfg env s position).map (·.1)
  | .reset env position => (resetInstance cfg env s position).map (·.1)
  | .setRefid position refId ipAddr =>
      .ok { s with sources := s.sources.modify position fun src => { src with refId, ipAddr } }
  | .updateStatus position stratum leap leapSecondClose =>
      .ok { s with
        sources := s.sources.modify position (·.updateStatus stratum leap leapSecondClose) }
  | .accumulateSample _ => .ok s
  | .setActive position active =>
      .ok { s with sources := s.sources.modify position fun src => { src with active } }
  | .updateReachability env normalMode position reachable =>
      (updateReachability cfg env normalMode s position reachable).map (·.1)
  | .resetReachability env normalMode position =>
      let s := { s with sources := s.sources.modify position fun src =>
        { src with reachability := 0, reachabilitySize := 0, unreachableRun := 0 } }
      (updateReachability cfg env normalMode s position false).map (·.1)
  | .modifySelectOptions ip refId options mask =>
      .ok (modifySelectOptions cfg s ip refId options mask)
  | .selectSource env updated =>
      (selectSource cfg env s (updated.filter (· < s.sources.length))).map (·.1)
  | .reselectSource env => (selectSource cfg env { s with selected := none } none).map (·.1)
  | .unknownStep env => (selectSource cfg env s none).map (·.1)
  | .reloadSources env dumps =>
      let s := { s with sources := s.sources.mapIdx fun i src => src.load (dumps i) }
      (selectSource cfg env s none).map (·.1)
  | .setReselectDistance _ => .ok s

end Operations

/-- The configuration after an operation. The configured distance is only the initial value of
`reselect_distance`, which is changed by `SRC_SetReselectDistance`. -/
def Op.config (cfg : Config) : Op → Config
  | .setReselectDistance distance =>
      if cfg.reselectDistance ≠ distance then { cfg with reselectDistance := distance } else cfg
  | _ => cfg

/-- The configuration after a sequence of operations. -/
def configAfter (cfg : Config) (ops : List Op) : Config :=
  ops.foldl Op.config cfg

/-- The table after a sequence of operations. -/
def run (cfg : Config) (s : State) : List Op → Except Assertion State
  | [] => .ok s
  | op :: ops => do
      let s ← step cfg s op
      run (op.config cfg) s ops

/-- The table before any operation. -/
def State.init : State := ⟨[], none⟩

/-! ### The invariant -/

/-- **The invariant of the table** between operations. -/
structure Inv (s : State) : Prop where
  /-- The index of an instance is its position. -/
  index_eq : ∀ (i : ℕ) (src : Source), s.sources[i]? = some src → src.index = i
  /-- No source is left in the transient status. -/
  status_ne : ∀ src ∈ s.sources, src.status ≠ .ok
  /-- The selected index is valid, and its source has the right status. -/
  selected : ∀ k, s.selected = some k → ∃ src, s.sources[k]? = some src ∧ src.status = .selected
  /-- No other source has it. -/
  unique : ∀ (i : ℕ) (src : Source), s.sources[i]? = some src → src.status = .selected →
    s.selected = some i
  distant : ∀ (k : ℕ) (src : Source), s.selected = some k → s.sources[k]? = some src →
    src.distant = 0
  score : ∀ src ∈ s.sources, 0 < src.selScore

variable {cfg : Config} {env : Env} {s : State} {α : Type}

theorem Inv.init : Inv State.init where
  index_eq i src h := by cases h
  status_ne src h := by cases h
  selected k h := by cases h
  unique i src h := by cases h
  distant k src h := by cases h
  score src h := by cases h

theorem Inv.entry (h : Inv s) : Entry s := by
  refine ⟨h.status_ne, h.score, ?_⟩
  intro k hk
  obtain ⟨src, hsrc, -⟩ := h.selected k hk
  exact ⟨src, hsrc, h.distant k src hk hsrc⟩

/-- What the invariant says about a source does not change. -/
structure SameStatus (a b : Source) : Prop where
  index : b.index = a.index
  status : b.status = a.status
  distant : b.distant = a.distant
  selScore : b.selScore = a.selScore

theorem Inv.of_same (h : Inv s) {l : List Source}
    (hl : Pointwise (fun _ => SameStatus) s.sources l) : Inv { s with sources := l } := by
  refine ⟨?_, ?_, ?_, ?_, ?_, ?_⟩
  · intro i b hb
    obtain ⟨a, ha, hab⟩ := hl.exists_left hb
    exact hab.index.trans (h.index_eq i a ha)
  · exact hl.forall_mem fun _ a b ha hab => hab.status ▸ h.status_ne a ha
  · intro k hk
    obtain ⟨a, ha, hst⟩ := h.selected k hk
    obtain ⟨b, hb, hab⟩ := hl.exists_right ha
    exact ⟨b, hb, hab.status.trans hst⟩
  · intro i b hb hst
    obtain ⟨a, ha, hab⟩ := hl.exists_left hb
    exact h.unique i a ha (hab.status ▸ hst)
  · intro k b hk hb
    obtain ⟨a, ha, hab⟩ := hl.exists_left hb
    exact hab.distant.trans (h.distant k a hk ha)
  · exact hl.forall_mem fun _ a b ha hab => hab.selScore ▸ h.score a ha

/-- A change of one instance. -/
theorem Inv.of_modify (h : Inv s) {f : Source → Source} (hf : ∀ a, SameStatus a (f a))
    (i : ℕ) : Inv { s with sources := s.sources.modify i f } :=
  h.of_same (.of_modify (fun _ _ => ⟨rfl, rfl, rfl, rfl⟩) fun a _ => hf a)

theorem updateSelOptions_same (cfg : Config) (l : List Source) :
    Pointwise (fun _ => SameStatus) l (updateSelOptions cfg l) :=
  .of_map fun _ _ _ => ⟨rfl, rfl, rfl, rfl⟩

/-- A new instance at the end of the table. -/
theorem Inv.append (h : Inv s) {src : Source} (hindex : src.index = s.sources.length)
    (hok : src.status ≠ .ok) (hsel : src.status ≠ .selected) (hscore : 0 < src.selScore) :
    Inv { s with sources := s.sources ++ [src] } := by
  have hget : ∀ (i : ℕ) (b : Source), (s.sources ++ [src])[i]? = some b →
      s.sources[i]? = some b ∨ (i = s.sources.length ∧ b = src) := by
    intro i b hb
    rw [List.getElem?_append] at hb
    split at hb
    · exact .inl hb
    next hge =>
        rw [List.getElem?_singleton] at hb
        split at hb
        next h0 =>
            cases hb
            exact .inr ⟨by omega, rfl⟩
        next => cases hb
  have hleft : ∀ (i : ℕ) (a : Source), s.sources[i]? = some a →
      (s.sources ++ [src])[i]? = some a := by
    intro i a ha
    rw [List.getElem?_append_left (List.getElem?_eq_some_iff.mp ha).1, ha]
  refine ⟨?_, ?_, ?_, ?_, ?_, ?_⟩
  · intro i b hb
    rcases hget i b hb with hb | ⟨rfl, rfl⟩
    · exact h.index_eq i b hb
    · exact hindex
  · intro b hb
    rcases List.mem_append.mp hb with hb | hb
    · exact h.status_ne b hb
    · rwa [List.mem_singleton.mp hb]
  · intro k hk
    obtain ⟨a, ha, hst⟩ := h.selected k hk
    exact ⟨a, hleft k a ha, hst⟩
  · intro i b hb hst
    rcases hget i b hb with hb | ⟨-, rfl⟩
    · exact h.unique i b hb hst
    · exact absurd hst hsel
  · intro k b hk hb
    obtain ⟨a, ha, -⟩ := h.selected k hk
    obtain rfl : a = b := Option.some.inj ((hleft k a ha).symm.trans hb)
    exact h.distant k a hk ha
  · intro b hb
    rcases List.mem_append.mp hb with hb | hb
    · exact h.score b hb
    · rwa [List.mem_singleton.mp hb]

theorem getElem?_removeSource (d : ℕ) (l : List Source) (i : ℕ) :
    (removeSource d l)[i]? =
      if i < d then l[i]? else l[i + 1]?.map fun src => { src with index := i } := by
  rw [removeSource, List.getElem?_mapIdx, List.getElem?_eraseIdx]
  by_cases hlt : i < d
  · simp only [if_pos hlt, if_neg (not_le.mpr hlt), Option.map_id']
  · simp only [if_neg hlt, if_pos (not_lt.mp hlt)]

section Steps

variable (hweight : 0 ≤ cfg.stratumWeight) (hreselect : 0 ≤ cfg.reselectDistance)
include hweight hreselect

/-- A selection establishes the invariant. -/
theorem selectSource_inv (henv : PositiveDistances cfg env) (h : Entry s)
    (hindex : ∀ (i : ℕ) (src : Source), s.sources[i]? = some src → src.index = i)
    (updated : Option ℕ) : ∃ r, selectSource cfg env s updated = .ok r ∧ Inv r.1 := by
  obtain ⟨r, hr, hsettled, hkept⟩ := selectSource_spec hweight hreselect henv h updated
  refine ⟨r, hr, ?_, hkept.forall_mem fun _ _ _ _ hab => hab.status_ne, ?_, ?_, ?_,
    hsettled.score⟩
  · intro i b hb
    obtain ⟨a, ha, hab⟩ := hkept.exists_left hb
    exact hab.index.trans (hindex i a ha)
  · intro k hk
    obtain ⟨src, hsrc, hst, -⟩ := hsettled.selected k hk
    exact ⟨src, hsrc, hst⟩
  · intro i b hb hst
    obtain ⟨a, ha, hab⟩ := hkept.exists_left hb
    exact hab.eq_of_selected hst
  · intro k src hk hsrc
    obtain ⟨src', hsrc', -, hd⟩ := hsettled.selected k hk
    obtain rfl : src = src' := Option.some.inj (hsrc.symm.trans hsrc')
    exact hd

theorem destroyInstance_inv (henv : PositiveDistances cfg env) (h : Inv s) (position : ℕ) :
    ∃ r, destroyInstance cfg env s position = .ok r ∧ Inv r.1 := by
  rw [destroyInstance]
  cases hsrc : s.sources[position]? with
  | none => exact ⟨_, rfl, h⟩
  | some src =>
      have hindex := h.index_eq position src hsrc
      dsimp only
      rw [if_neg (not_not.mpr hindex), hindex]
      have hsame := updateSelOptions_same cfg (removeSource position s.sources)
      have hremoved : ∀ (i : ℕ) (b : Source), (removeSource position s.sources)[i]? = some b →
          b.index = i ∧ ∃ a ∈ s.sources, b.status = a.status ∧ b.selScore = a.selScore := by
        intro i b hb
        rw [getElem?_removeSource] at hb
        split at hb
        · exact ⟨h.index_eq i b hb, b, List.mem_of_getElem? hb, rfl, rfl⟩
        · obtain ⟨a, ha, rfl⟩ := Option.map_eq_some_iff.mp hb
          exact ⟨rfl, a, List.mem_of_getElem? ha, rfl, rfl⟩
      refine selectSource_inv hweight hreselect henv ⟨?_, ?_, ?_⟩ ?_ none
      · refine hsame.forall_mem fun _ b c hb hbc => ?_
        obtain ⟨i, hi⟩ := List.mem_iff_getElem?.mp hb
        obtain ⟨-, a, ha, hst, -⟩ := hremoved i b hi
        rw [hbc.status, hst]
        exact h.status_ne a ha
      · refine hsame.forall_mem fun _ b c hb hbc => ?_
        obtain ⟨i, hi⟩ := List.mem_iff_getElem?.mp hb
        obtain ⟨-, a, ha, -, hs⟩ := hremoved i b hi
        rw [hbc.selScore, hs]
        exact h.score a ha
      · intro j hj
        dsimp only at hj ⊢
        suffices hget : ∃ b, (removeSource position s.sources)[j]? = some b ∧ b.distant = 0 by
          obtain ⟨b, hb, hd⟩ := hget
          obtain ⟨c, hc, hbc⟩ := hsame.exists_right hb
          exact ⟨c, hc, hbc.distant.trans hd⟩
        cases hsel : s.selected with
        | none =>
            rw [hsel] at hj
            cases hj
        | some k =>
            rw [hsel] at hj
            obtain ⟨a, ha, -⟩ := h.selected k hsel
            have hd := h.distant k a hsel ha
            rw [getElem?_removeSource]
            dsimp only at hj
            split at hj
            next hgt =>
                cases hj
                rw [if_neg (by omega), show k - 1 + 1 = k by omega, ha]
                exact ⟨_, rfl, hd⟩
            next hle =>
                split at hj
                · cases hj
                · cases hj
                  rw [if_pos (by omega)]
                  exact ⟨a, ha, hd⟩
      · intro i c hc
        obtain ⟨b, hb, hbc⟩ := hsame.exists_left hc
        exact hbc.index.trans (hremoved i b hb).1

theorem resetInstance_inv (henv : PositiveDistances cfg env) (h : Inv s) (position : ℕ) :
    ∃ r, resetInstance cfg env s position = .ok r ∧ Inv r.1 := by
  rw [resetInstance]
  cases hsrc : s.sources[position]? with
  | none => exact ⟨_, rfl, h⟩
  | some src =>
      have hindex := h.index_eq position src hsrc
      have hreset : Pointwise (fun i a b => b = a ∨ (i = position ∧ b = a.reset)) s.sources
          (s.sources.modify position Source.reset) :=
        .of_modify (fun _ _ => .inl rfl) fun _ _ => .inr ⟨rfl, rfl⟩
      have hindex' : ∀ (i : ℕ) (b : Source),
          (s.sources.modify position Source.reset)[i]? = some b → b.index = i := by
        intro i b hb
        obtain ⟨a, ha, rfl | ⟨-, rfl⟩⟩ := hreset.exists_left hb
        · exact h.index_eq i _ ha
        · exact h.index_eq i a ha
      have hstatus : ∀ b ∈ s.sources.modify position Source.reset, b.status ≠ .ok := by
        refine hreset.forall_mem ?_
        rintro i a b ha (rfl | ⟨-, rfl⟩)
        · exact h.status_ne _ ha
        · exact Status.noConfusion
      have hscore : ∀ b ∈ s.sources.modify position Source.reset, 0 < b.selScore := by
        refine hreset.forall_mem ?_
        rintro i a b ha (rfl | ⟨-, rfl⟩)
        · exact h.score _ ha
        · exact one_pos
      dsimp only
      rw [hindex]
      split
      next hsel =>
          refine selectSource_inv hweight hreselect henv ⟨hstatus, hscore, ?_⟩ hindex' none
          intro k hk
          obtain ⟨a, ha, -⟩ := h.selected k hk
          obtain ⟨b, hb, rfl | ⟨-, rfl⟩⟩ := hreset.exists_right ha
          · exact ⟨_, hb, h.distant k _ hk ha⟩
          · exact ⟨_, hb, rfl⟩
      next hsel =>
          refine ⟨_, rfl, hindex', hstatus, ?_, ?_, ?_, hscore⟩
          · intro k hk
            obtain ⟨a, ha, hst⟩ := h.selected k hk
            obtain ⟨b, hb, rfl | ⟨rfl, -⟩⟩ := hreset.exists_right ha
            · exact ⟨_, hb, hst⟩
            · exact absurd hk hsel
          · intro i b hb hst
            obtain ⟨a, ha, rfl | ⟨-, rfl⟩⟩ := hreset.exists_left hb
            · exact h.unique i _ ha hst
            · cases hst
          · intro k b hk hb
            obtain ⟨a, ha, rfl | ⟨-, rfl⟩⟩ := hreset.exists_left hb
            · exact h.distant k _ hk ha
            · rfl

theorem updateReachability_inv (henv : PositiveDistances cfg env) (h : Inv s) (normalMode : Bool)
    (position : ℕ) (reachable : Bool) :
    ∃ r, updateReachability cfg env normalMode s position reachable = .ok r ∧ Inv r.1 := by
  have hinv := h.of_modify (f := (·.updateReachability reachable))
    (fun _ => ⟨rfl, rfl, rfl, rfl⟩) position
  rw [updateReachability]
  dsimp only
  split
  · obtain ⟨r, hr, hr'⟩ := selectSource_inv hweight hreselect henv hinv.entry hinv.index_eq none
    rw [hr]
    exact ⟨_, rfl, hr'⟩
  · exact ⟨_, rfl, hinv⟩

end Steps

theorem createNewInstance_inv (cfg : Config) (env : Env) (h : Inv s) (new : NewSource) :
    ∃ r, createNewInstance cfg env s new = .ok r ∧ Inv r.1 := by
  have hne : s.selected ≠ some s.sources.length := by
    intro hsel
    obtain ⟨src, hsrc, -⟩ := h.selected _ hsel
    exact absurd (List.getElem?_eq_some_iff.mp hsrc).1 (lt_irrefl _)
  rw [createNewInstance, if_neg hne]
  refine ⟨_, rfl, ?_⟩
  exact (h.append rfl (by simp [NewSource.toSource, Source.reset])
    (by simp [NewSource.toSource, Source.reset]) one_pos).of_same (updateSelOptions_same cfg _)

/-- The environment of the selection which an operation can start. -/
def Op.env? : Op → Option Env
  | .create env _ => some env
  | .destroy env _ => some env
  | .reset env _ => some env
  | .updateReachability env _ _ _ => some env
  | .resetReachability env _ _ => some env
  | .selectSource env _ => some env
  | .reselectSource env => some env
  | .unknownStep env => some env
  | .reloadSources env _ => some env
  | .setRefid .. => none
  | .updateStatus .. => none
  | .accumulateSample .. => none
  | .setActive .. => none
  | .modifySelectOptions .. => none
  | .setReselectDistance _ => none

theorem map_fst_ok {x : Except Assertion (State × α)} (h : ∃ r, x = .ok r ∧ Inv r.1) :
    ∃ s', x.map (·.1) = .ok s' ∧ Inv s' := by
  obtain ⟨r, rfl, hr⟩ := h
  exact ⟨r.1, rfl, hr⟩

theorem modifySelectOptions_inv (cfg : Config) (h : Inv s) (ip : IPAddr) (refId : BitVec 32)
    (options mask : SelOptions) : Inv (modifySelectOptions cfg s ip refId options mask) := by
  rw [modifySelectOptions]
  split
  · exact h
  · split
    · exact h
    · exact (h.of_modify (f := fun src => { src with
        confSelOptions := (src.confSelOptions.inter mask.compl).union options })
        (fun _ => ⟨rfl, rfl, rfl, rfl⟩) _).of_same (updateSelOptions_same cfg _)

/-- **Every operation returns** and keeps the invariant. -/
theorem step_inv (hweight : 0 ≤ cfg.stratumWeight) (hreselect : 0 ≤ cfg.reselectDistance)
    (h : Inv s) {op : Op} (henv : ∀ env ∈ op.env?, PositiveDistances cfg env) :
    ∃ s', step cfg s op = .ok s' ∧ Inv s' := by
  cases op with
  | create env new => exact map_fst_ok (createNewInstance_inv cfg env h new)
  | destroy env position =>
      exact map_fst_ok (destroyInstance_inv hweight hreselect (henv env rfl) h position)
  | reset env position =>
      exact map_fst_ok (resetInstance_inv hweight hreselect (henv env rfl) h position)
  | setRefid position refId ipAddr =>
      exact ⟨_, rfl, h.of_modify (f := fun src => { src with refId, ipAddr })
        (fun _ => ⟨rfl, rfl, rfl, rfl⟩) position⟩
  | updateStatus position stratum leap leapSecondClose =>
      refine ⟨_, rfl, h.of_modify (f := (·.updateStatus stratum leap leapSecondClose))
        (fun a => ?_) position⟩
      rw [Source.updateStatus]
      split
      · exact ⟨rfl, rfl, rfl, rfl⟩
      · exact ⟨rfl, rfl, rfl, rfl⟩
  | accumulateSample position => exact ⟨_, rfl, h⟩
  | setActive position active =>
      exact ⟨_, rfl, h.of_modify (f := fun src => { src with active })
        (fun _ => ⟨rfl, rfl, rfl, rfl⟩) position⟩
  | updateReachability env normalMode position reachable =>
      exact map_fst_ok (updateReachability_inv hweight hreselect (henv env rfl) h normalMode
        position reachable)
  | resetReachability env normalMode position =>
      exact map_fst_ok (updateReachability_inv hweight hreselect (henv env rfl)
        (h.of_modify (f := fun src => { src with
          reachability := 0, reachabilitySize := 0, unreachableRun := 0 })
          (fun _ => ⟨rfl, rfl, rfl, rfl⟩) position) normalMode position false)
  | modifySelectOptions ip refId options mask =>
      exact ⟨_, rfl, modifySelectOptions_inv cfg h ip refId options mask⟩
  | selectSource env updated =>
      exact map_fst_ok (selectSource_inv hweight hreselect (henv env rfl) h.entry h.index_eq _)
  | reselectSource env =>
      have hentry : Entry { s with selected := none } := by
        refine ⟨h.status_ne, h.score, ?_⟩
        rintro k ⟨⟩
      exact map_fst_ok (selectSource_inv hweight hreselect (henv env rfl) hentry h.index_eq none)
  | unknownStep env =>
      exact map_fst_ok (selectSource_inv hweight hreselect (henv env rfl) h.entry h.index_eq none)
  | reloadSources env dumps =>
      have hload : Inv { s with sources := s.sources.mapIdx fun i src => src.load (dumps i) } := by
        refine h.of_same (.of_mapIdx fun i a _ => ?_)
        cases dumps i with
        | none => exact ⟨rfl, rfl, rfl, rfl⟩
        | some dump => exact ⟨rfl, rfl, rfl, rfl⟩
      exact map_fst_ok (selectSource_inv hweight hreselect (henv env rfl) hload.entry
        hload.index_eq none)
  | setReselectDistance distance => exact ⟨_, rfl, h⟩

/-- An operation changes only `reselect_distance` in the configuration. -/
theorem Op.config_eq (cfg : Config) (op : Op) :
    ∃ distance, op.config cfg = { cfg with reselectDistance := distance } ∧
      (distance = cfg.reselectDistance ∨ op = .setReselectDistance distance) := by
  cases op with
  | setReselectDistance distance =>
      rw [Op.config]
      split
      · exact ⟨distance, rfl, .inr rfl⟩
      · exact ⟨cfg.reselectDistance, rfl, .inl rfl⟩
  | _ => exact ⟨cfg.reselectDistance, rfl, .inl rfl⟩

/-- **The statuses are consistent after every sequence of operations** in which no distance
is negative. No assertion fails, no source is left in the transient status, the selected
index is valid and its source is the only one with the status of a selected source, and the
indices of the instances are their positions in the table. The root distances are taken
positive. -/
theorem run_selection_status (cfg : Config) (hweight : 0 ≤ cfg.stratumWeight)
    (hreselect : 0 ≤ cfg.reselectDistance) (ops : List Op)
    (hset : ∀ distance, .setReselectDistance distance ∈ ops → 0 ≤ distance)
    (henv : ∀ op ∈ ops, ∀ env ∈ op.env?, PositiveDistances cfg env) :
    ∃ s, run cfg .init ops = .ok s ∧ Inv s := by
  suffices hgen : ∀ s, Inv s → ∃ s', run cfg s ops = .ok s' ∧ Inv s' from hgen _ .init
  induction ops generalizing cfg with
  | nil => exact fun s h => ⟨s, rfl, h⟩
  | cons op ops ih =>
      intro s h
      obtain ⟨s₁, hstep, h₁⟩ := step_inv hweight hreselect h (henv op List.mem_cons_self)
      obtain ⟨distance, hconfig, hdistance⟩ := op.config_eq cfg
      have hdistance' : 0 ≤ distance := by
        rcases hdistance with rfl | rfl
        · exact hreselect
        · exact hset distance List.mem_cons_self
      obtain ⟨s', hrun, h'⟩ := ih (op.config cfg) (by rwa [hconfig]) (by rwa [hconfig])
        (fun d hd => hset d (List.mem_cons_of_mem _ hd))
        (fun op' hop' => by
          rw [hconfig]
          exact henv op' (List.mem_cons_of_mem _ hop')) s₁ h₁
      refine ⟨s', ?_, h'⟩
      rw [run, hstep]
      exact hrun

/-- The second of two sources is selected, and the first one is destroyed. -/
def sampleOps : List Op :=
  let new : NewSource := ⟨1, .ntp, false, .none, .inet4 1, 100000⟩
  [.create sampleEnv new, .create sampleEnv new, .setReselectDistance (1 / 1000),
    .updateStatus 1 2 .normal false, .updateReachability sampleEnv true 1 true,
    .selectSource sampleEnv (some 1), .destroy sampleEnv 0]

theorem sampleEnv_positiveDistances : PositiveDistances sampleConfig sampleEnv := by
  intro i data hdata
  obtain ⟨rfl, -⟩ := Prod.mk.inj (Option.some.inj hdata)
  norm_num [addExtraDispersion, sampleEnv]

/-- The selections read the same. -/
theorem positiveDistances_of_sampleEnv {ops : List Op}
    (h : ∀ op ∈ ops, op.env? = none ∨ op.env? = some sampleEnv) :
    ∀ op ∈ ops, ∀ env ∈ op.env?, PositiveDistances sampleConfig env := by
  intro op hop env henv
  rcases h op hop with hnone | hsome
  · rw [hnone] at henv
    cases henv
  · rw [hsome] at henv
    obtain rfl := Option.some.inj henv
    exact sampleEnv_positiveDistances

/-- The selected source moves to the first position with its status. -/
theorem run_selection_status_sampleOps :
    ∃ s, run sampleConfig .init sampleOps = .ok s ∧
      (s.selected, s.sources.map (·.status)) = (some 0, [.selected]) ∧ Inv s := by
  have hset : ∀ distance, .setReselectDistance distance ∈ sampleOps → 0 ≤ distance := by
    intro distance hmem
    simp only [sampleOps, List.mem_cons, List.not_mem_nil, or_false, reduceCtorEq, false_or,
      Op.setReselectDistance.injEq] at hmem
    rw [hmem]
    norm_num
  have henv : ∀ op ∈ sampleOps, ∀ env ∈ op.env?, PositiveDistances sampleConfig env :=
    positiveDistances_of_sampleEnv (by simp [sampleOps, Op.env?])
  obtain ⟨s, hs, hstatus⟩ := exists_ok_of_map_toOption (b := (some 0, [Status.selected]))
    (f := fun s => (s.selected, s.sources.map (·.status)))
    (show (run sampleConfig .init sampleOps).toOption.map _ = _ by decide +kernel)
  obtain ⟨s', hs', hinv⟩ := run_selection_status sampleConfig (by decide +kernel)
    (by decide +kernel) sampleOps hset henv
  obtain rfl : s = s' := Except.ok.inj (hs.symm.trans hs')
  exact ⟨s, hs, hstatus, hinv⟩

/-- The first sample of the only source after a negative distance was set. -/
def negativeOps : List Op :=
  [.create sampleEnv ⟨1, .ntp, false, .none, .inet4 1, 100000⟩, .setReselectDistance (-1),
    .updateStatus 0 2 .normal false, .updateReachability sampleEnv true 0 true,
    .selectSource sampleEnv (some 0)]

/-- **A negative distance makes an assertion fail.** The root distance of the only source is
close to 0.1, its score is negative, and no source has the maximum score. -/
theorem run_selection_status_negativeOps :
    (∀ op ∈ negativeOps, ∀ env ∈ op.env?, PositiveDistances sampleConfig env) ∧
      run sampleConfig .init negativeOps = .error .maxScoreIndexValid := by
  refine ⟨positiveDistances_of_sampleEnv (by simp [negativeOps, Op.env?]), ?_⟩
  decide +kernel

end Chrony.Sources
