import Chrony.Conf.SourceDirs

/-!
# Reloads of Source Directories

The sources which are added at a time follow from the log of the calls. After a reload, they are
to be the sources of the array which have the status of an added source, with the ID under which
they were added, so that they can be removed later.

A source which could not be added before is added again. The outcome of this addition is stored
in the array, but the status and ID of the previous reload are then copied over it, as for a source
which was not added again. If the addition succeeds, the source is forgotten: it is added in every
following reload, and it is not removed when it is not listed anymore.

## Main results

* `run_inStep`: the reloads keep the sources in step if no repeated addition succeeds.
* `run_forgets_source`: a source which is not removed.
-/

namespace Chrony.Conf

open Lib Lib.Bytes
open NtpSources (Status)

/-! ### The order of sources -/

/-- The key of a source in the order of `compare_sources`. -/
abbrev SpecKey := List ℕ ×ₗ ℤ ×ₗ ℤ ×ₗ ℤ ×ₗ ℤ ×ₗ List ℕ

def SourceSpec.key (spec : SourceSpec) : SpecKey :=
  toLex (spec.name.map BitVec.toNat, toLex (spec.type.toInt, toLex (spec.pool.toInt,
    toLex (spec.family, toLex (spec.port, spec.params.map BitVec.toNat)))))

theorem SourceSpec.key_injective : Function.Injective SourceSpec.key := by
  have hbytes : Function.Injective (List.map (BitVec.toNat (w := 8))) :=
    List.map_injective_iff.mpr fun _ _ h => BitVec.eq_of_toNat_eq h
  have htype : Function.Injective NtpSourceType.toInt := by
    intro a b h
    cases a <;> cases b <;> simp_all [NtpSourceType.toInt]
  have hpool : Function.Injective Bool.toInt := by decide
  rintro ⟨name, type, pool, family, port, params⟩ ⟨name', type', pool', family', port', params'⟩ h
  simp only [SourceSpec.key, toLex_inj, Prod.mk.injEq] at h
  obtain ⟨hname, ht, hp, rfl, rfl, hparams⟩ := h
  rw [hbytes hname, htype ht, hpool hp, hbytes hparams]

theorem signs_compareMemory (a b : List Byte) :
    Signs (compareMemory a b) (a.map BitVec.toNat) (b.map BitVec.toNat) := by
  induction a, b using compareMemory.induct with
  | case1 => exact ⟨by simp [compareMemory], by simp [compareMemory]⟩
  | case2 b bs => exact ⟨by simp [compareMemory], by simp [compareMemory]⟩
  | case3 a as => exact ⟨by simp [compareMemory], by simp [compareMemory]⟩
  | case4 a as b bs hlt =>
      rw [compareMemory, if_pos hlt]
      simp [Signs, List.cons_lt_cons_iff, hlt, hlt.le, hlt.ne, hlt.ne']
  | case5 a as b bs hnot hlt =>
      rw [compareMemory, if_neg hnot, if_pos hlt]
      simp [Signs, List.cons_lt_cons_iff, hlt, hlt.le, hlt.ne, hlt.ne']
  | case6 a as b bs hnot hnot' ih =>
      have heq : a.toNat = b.toNat := by omega
      rw [compareMemory, if_neg hnot, if_neg hnot']
      simpa [Signs, List.cons_lt_cons_iff, heq] using ih

/-- The key of a source. -/
def NtpSource.key (source : NtpSource) : SpecKey := source.spec.key

theorem signs_compareSources (a b : NtpSource) : Signs (compareSources a b) a.key b.key :=
  (signs_compareMemory _ _).lex ((signs_sub _ _).lex ((signs_sub _ _).lex
    ((signs_sub _ _).lex ((signs_sub _ _).lex (signs_compareMemory _ _)))))

theorem compareSources_le_zero_iff (a b : NtpSource) :
    compareSources a b ≤ 0 ↔ a.key ≤ b.key := by
  rw [← not_lt, ← not_lt]
  exact not_congr (signs_compareSources a b).2

/-- The loaded sources are those of the files, sorted. -/
theorem loadSources_perm (files : List SourceSpec) :
    (loadSources files).Perm (files.map parseSource) :=
  List.perm_insertionSort _ _

theorem loadSources_sorted (files : List SourceSpec) :
    ((loadSources files).map NtpSource.key).Pairwise (· ≤ ·) := by
  have : Std.Total fun a b : NtpSource => compareSources a b ≤ 0 := ⟨fun a b => by
    simpa only [compareSources_le_zero_iff] using le_total _ _⟩
  have : IsTrans NtpSource fun a b => compareSources a b ≤ 0 := ⟨fun a b c => by
    simpa only [compareSources_le_zero_iff] using le_trans⟩
  rw [List.pairwise_map]
  exact (List.pairwise_insertionSort _ (files.map parseSource)).imp
    fun hle => (compareSources_le_zero_iff _ _).mp hle

/-! ### Added sources -/

/-- An added source: what was specified, the status of the addition, and its ID. -/
abbrev Added := SourceSpec × Status × BitVec 32

/-- What is added by a call. -/
def Event.gained : Event → Option Added
  | .addSourceByName spec outcome =>
      if outcome.status = .success ∨ outcome.status = .unresolvedName then
        outcome.confId.map fun id => (spec, outcome.status, id)
      else none
  | _ => none

/-- The added sources after one more call. -/
def liveStep (l : List Added) : Event → List Added
  | .removeSourcesById id => l.filter fun a => a.2.2 ≠ id
  | event => l ++ event.gained.toList

/-- **The sources which are added** after the calls of a log. -/
def live (log : List Event) : List Added :=
  log.foldl liveStep []

/-- The added source of an entry of the array, if it has the status of an added source. -/
def NtpSource.added (source : NtpSource) : Option Added :=
  if source.wasAdded then some (source.spec, source.status, source.confId) else none

/-- **The IDs are not reused** while they are in use, as assigned by `get_next_conf_id`. -/
def FreshIds (log : List Event) : Prop :=
  ∀ l₁ spec outcome l₂ id, log = l₁ ++ .addSourceByName spec outcome :: l₂ →
    outcome.confId = some id → id ∉ (live l₁).map fun a => a.2.2

theorem liveStep_of_ne {event : Event} (h : ∀ id, event ≠ .removeSourcesById id) (l : List Added) :
    liveStep l event = l ++ event.gained.toList := by
  cases event with
  | removeSourcesById id => exact absurd rfl (h id)
  | addSourceByName spec outcome => rfl
  | resolveSources => rfl

theorem live_append (l₁ l₂ : List Event) : live (l₁ ++ l₂) = l₂.foldl liveStep (live l₁) :=
  List.foldl_append

theorem FreshIds.of_append {l₁ l₂ : List Event} (h : FreshIds (l₁ ++ l₂)) : FreshIds l₁ :=
  fun l spec outcome l' id heq =>
    h l spec outcome (l' ++ l₂) id (by rw [heq, List.append_assoc, List.cons_append])

/-- Different added sources have different IDs. -/
theorem live_nodup {log : List Event} (h : FreshIds log) :
    ((live log).map fun a => a.2.2).Nodup := by
  induction log using List.reverseRecOn with
  | nil => exact List.nodup_nil
  | append_singleton log event ih =>
      have ih := ih h.of_append
      rw [live_append, List.foldl_cons, List.foldl_nil]
      cases event with
      | removeSourcesById id => exact ih.sublist (List.filter_sublist.map _)
      | resolveSources =>
          simpa [liveStep, Event.gained] using ih
      | addSourceByName spec outcome =>
          have hgained : ∀ a ∈ (Event.addSourceByName spec outcome).gained,
              outcome.confId = some a.2.2 := by
            intro a ha
            rw [Event.gained] at ha
            split at ha
            · obtain ⟨id, hid, rfl⟩ := Option.map_eq_some_iff.mp ha
              exact hid
            · cases ha
          change ((live log ++ (Event.addSourceByName spec outcome).gained.toList).map _).Nodup
          cases hevent : (Event.addSourceByName spec outcome).gained with
          | none => simpa using ih
          | some a =>
              rw [Option.toList_some, List.map_append, List.map_singleton,
                List.nodup_append_comm, List.singleton_append, List.nodup_cons]
              exact ⟨h log spec outcome [] a.2.2 rfl (hgained a hevent), ih⟩

theorem foldl_liveStep_remove (l : List Added) (ids : List (BitVec 32)) :
    (ids.map Event.removeSourcesById).foldl liveStep l = l.filter fun a => a.2.2 ∉ ids := by
  induction ids generalizing l with
  | nil => simp
  | cons id ids ih =>
      rw [List.map_cons, List.foldl_cons, ih, liveStep, List.filter_filter]
      refine List.filter_congr fun a _ => ?_
      simp [Bool.and_comm]

theorem foldl_liveStep_add (l : List Added) {events : List Event}
    (h : ∀ id, Event.removeSourcesById id ∉ events) :
    events.foldl liveStep l = l ++ events.filterMap Event.gained := by
  induction events generalizing l with
  | nil => simp
  | cons event events ih =>
      have hne : ∀ id, event ≠ .removeSourcesById id := by
        rintro id rfl
        exact h id List.mem_cons_self
      rw [List.foldl_cons, liveStep_of_ne hne,
        ih _ fun id hmem => h id (List.mem_cons_of_mem _ hmem)]
      cases hgained : event.gained with
      | none => rw [List.filterMap_cons_none hgained, Option.toList_none, List.append_nil]
      | some a =>
          rw [List.filterMap_cons_some hgained, Option.toList_some, List.append_assoc,
            List.singleton_append]

/-! ### The passes -/

/-- What is specified by the source of a call. -/
def Event.spec : Event → Option SourceSpec
  | .addSourceByName spec _ => some spec
  | _ => none

/-- The sources of a turn which were not changed. -/
def kept : Turn NtpSource NtpSource → Option Added
  | .same prev _ => prev.added
  | _ => none

section Passes

variable {T : List (Turn NtpSource NtpSource)} {outcome : ℕ → Outcome} {n : ℕ}

theorem addSources_cons (outcome : ℕ → Outcome) (n : ℕ) (turn : Turn NtpSource NtpSource)
    (T : List (Turn NtpSource NtpSource)) :
    addSources outcome n (turn :: T) =
      ((addSource (outcome n) turn).1.toList ++
          (addSources outcome (if addsSource turn then n + 1 else n) T).1,
        (addSource (outcome n) turn).2.toList ++
          (addSources outcome (if addsSource turn then n + 1 else n) T).2) :=
  rfl

/-- The source of a turn in which both sources are the same. The outcome is not used. -/
theorem addSource_same (o : Outcome) (prev new : NtpSource) :
    (addSource o (.same prev new)).1 =
      some { new with status := prev.status, confId := prev.confId } := by
  rw [addSource]
  cases prev.wasAdded <;> rfl

/-- The sources of the array are those of the files. -/
theorem addSources_specs (outcome : ℕ → Outcome) (n : ℕ) (T : List (Turn NtpSource NtpSource)) :
    (addSources outcome n T).1.map NtpSource.spec =
      (T.filterMap Turn.right).map NtpSource.spec := by
  induction T generalizing n with
  | nil => rfl
  | cons turn T ih =>
      rw [addSources_cons, List.map_append, ih]
      cases turn with
      | missing prev => rfl
      | same prev new =>
          rw [addSource_same]
          rfl
      | extra new => rfl

/-- The call of a turn. -/
theorem addSource_event (o : Outcome) (turn : Turn NtpSource NtpSource) :
    (addSource o turn).2 = if addsSource turn then
      turn.right.map fun new => .addSourceByName new.spec o else none := by
  cases turn with
  | missing prev => rfl
  | same prev new =>
      rw [addSource, addsSource]
      cases prev.wasAdded <;> rfl
  | extra new => rfl

theorem addSources_not_remove (outcome : ℕ → Outcome) (n : ℕ)
    (T : List (Turn NtpSource NtpSource)) (id : BitVec 32) :
    Event.removeSourcesById id ∉ (addSources outcome n T).2 := by
  induction T generalizing n with
  | nil => exact List.not_mem_nil
  | cons turn T ih =>
      rw [addSources_cons, List.mem_append, Option.mem_toList, addSource_event]
      refine not_or.mpr ⟨fun hmem => ?_, ih _⟩
      split at hmem
      · obtain ⟨new, -, heq⟩ := Option.map_eq_some_iff.mp hmem
        cases heq
      · cases hmem

/-- **The number of the additions of a source.** -/
theorem count_addSources (hT : ∀ prev new, .same prev new ∈ T → prev.spec = new.spec)
    (spec : SourceSpec) :
    ((addSources outcome n T).2.filterMap Event.spec).count spec =
      (T.filter fun t => t.key NtpSource.key NtpSource.key = spec.key).countP addsSource := by
  induction T generalizing n with
  | nil => rfl
  | cons turn T ih =>
      have ih := fun n => ih (n := n) fun prev new hmem => hT prev new (List.mem_cons_of_mem _ hmem)
      have hkey : ∀ new ∈ turn.right,
          (turn.key NtpSource.key NtpSource.key = spec.key ↔ new.spec = spec) := by
        intro new hnew
        cases turn with
        | missing prev => cases hnew
        | same prev new' =>
            obtain rfl : new' = new := Option.some.inj hnew
            rw [Turn.key, NtpSource.key, hT prev new' List.mem_cons_self,
              SourceSpec.key_injective.eq_iff]
        | extra new' =>
            obtain rfl : new' = new := Option.some.inj hnew
            exact SourceSpec.key_injective.eq_iff
      rw [addSources_cons, List.filterMap_append, List.count_append, ih, addSource_event,
        List.filter_cons]
      cases hadds : addsSource turn with
      | false =>
          by_cases hk : turn.key NtpSource.key NtpSource.key = spec.key
          · simp [hk, hadds]
          · simp [hk]
      | true =>
          obtain ⟨new, hnew⟩ : ∃ new, turn.right = some new := by
            cases turn with
            | missing prev => cases hadds
            | same prev new => exact ⟨new, rfl⟩
            | extra new => exact ⟨new, rfl⟩
          have hkey := hkey new hnew
          by_cases hspec : new.spec = spec
          · simp [hnew, hkey, hspec, hadds, Event.spec, Nat.add_comm]
          · simp [hnew, hkey, hspec, Event.spec]

/-- **The added sources after the second pass**, if no repeated addition succeeds. -/
theorem addSources_added (hT : ∀ prev new, .same prev new ∈ T → prev.spec = new.spec)
    (hretry : ∀ m prev new, (T.filter addsSource)[m]? = some (.same prev new) →
      (Event.addSourceByName new.spec (outcome (n + m))).gained = none) :
    ((addSources outcome n T).1.filterMap NtpSource.added).Perm
      (T.filterMap kept ++ (addSources outcome n T).2.filterMap Event.gained) := by
  induction T generalizing n with
  | nil => exact List.Perm.refl _
  | cons turn T ih =>
      have hT' := fun prev new hmem => hT prev new (List.mem_cons_of_mem _ hmem)
      rw [addSources_cons, List.filterMap_append, List.filterMap_append]
      cases turn with
      | missing prev => exact ih hT' hretry
      | same prev new =>
          have hkept : (NtpSource.mk new.spec prev.status prev.confId).added = prev.added := by
            rw [NtpSource.added, NtpSource.added, hT prev new List.mem_cons_self]
            rfl
          have hevent : (addSource (outcome n) (.same prev new)).2.toList.filterMap Event.gained =
              [] := by
            rw [addSource_event]
            cases hadds : addsSource (.same prev new) with
            | false => rfl
            | true =>
                have hnone := hretry 0 prev new (by rw [List.filter_cons_of_pos hadds]; rfl)
                exact List.filterMap_cons_none hnone
          have hrest := ih (n := if addsSource (.same prev new) then n + 1 else n) hT' (by
            intro m prev' new' hm
            cases hadds : addsSource (.same prev new) with
            | false =>
                exact hretry m prev' new' (by rwa [List.filter_cons_of_neg (by simp [hadds])])
            | true =>
                rw [if_pos rfl, Nat.add_assoc, Nat.add_comm 1]
                exact hretry (m + 1) prev' new' (by rwa [List.filter_cons_of_pos hadds]))
          rw [addSource_same, hevent, List.nil_append, Option.toList_some]
          cases hadded : prev.added with
          | none =>
              rw [List.filterMap_cons_none (hkept.trans hadded), List.filterMap_nil,
                List.filterMap_cons_none (show kept (.same prev new) = none from hadded)]
              exact hrest
          | some a =>
              rw [List.filterMap_cons_some (hkept.trans hadded), List.filterMap_nil,
                List.filterMap_cons_some (show kept (.same prev new) = some a from hadded)]
              exact hrest.cons a
      | extra new =>
          have hgained : (new.add (outcome n)).added =
              (Event.addSourceByName new.spec (outcome n)).gained := by
            rw [NtpSource.added, NtpSource.wasAdded, NtpSource.add, Event.gained]
            by_cases hstatus : (outcome n).status = .success ∨ (outcome n).status = .unresolvedName
            · obtain ⟨id, hid⟩ := Option.isSome_iff_exists.mp ((outcome n).assigned hstatus)
              simp [hstatus, hid]
            · simp [hstatus]
          have hrest := ih (n := n + 1) hT' (by
            intro m prev' new' hm
            rw [Nat.add_assoc, Nat.add_comm 1]
            exact hretry (m + 1) prev' new' hm)
          change (List.filterMap NtpSource.added [new.add (outcome n)] ++ _).Perm
            (T.filterMap kept ++
              (List.filterMap Event.gained [.addSourceByName new.spec (outcome n)] ++ _))
          cases hadded : (new.add (outcome n)).added with
          | none =>
              rw [List.filterMap_cons_none hadded, List.filterMap_nil,
                List.filterMap_cons_none (hgained.symm.trans hadded), List.filterMap_nil]
              exact hrest
          | some a =>
              rw [List.filterMap_cons_some hadded, List.filterMap_nil,
                List.filterMap_cons_some (hgained.symm.trans hadded), List.filterMap_nil]
              exact (hrest.cons a).trans List.perm_middle.symm

/-- The ID of the previous source of a turn, if it was added. -/
def prevId (turn : Turn NtpSource NtpSource) : Option (BitVec 32) :=
  (turn.left.bind NtpSource.added).map fun a => a.2.2

/-- A source which is not missing does not have the ID of a missing one. -/
theorem id_notMem_missing (hnodup : (T.filterMap prevId).Nodup) {prev new : NtpSource}
    (hmem : .same prev new ∈ T) (hadded : prev.wasAdded) :
    prev.confId ∉ T.filterMap missingId := by
  intro hmissing
  obtain ⟨turn, hturn, hid⟩ := List.mem_filterMap.mp hmissing
  cases turn with
  | same prev' new' => cases hid
  | extra new' => cases hid
  | missing prev' =>
      rw [missingId] at hid
      split at hid
      next hadded' =>
          have : Std.Symm fun t t' : Turn NtpSource NtpSource =>
              ∀ x, prevId t = some x → ∀ y, prevId t' = some y → x ≠ y :=
            ⟨fun t t' h x hx y hy => (h y hy x hx).symm⟩
          have hne : Turn.same prev new ≠ .missing prev' := nofun
          have hdiffer := (List.pairwise_filterMap.mp hnodup).forall hmem hturn hne
          refine hdiffer prev.confId ?_ prev'.confId ?_ (Option.some.inj hid).symm
          · simp [prevId, Turn.left, NtpSource.added, hadded]
          · simp [prevId, Turn.left, NtpSource.added, hadded']
      next => cases hid

/-- **The added sources after the first pass** are those which are not missing. -/
theorem filter_missing (hnodup : (T.filterMap prevId).Nodup) :
    ((T.filterMap Turn.left).filterMap NtpSource.added).filter
        (fun a => a.2.2 ∉ T.filterMap missingId) = T.filterMap kept := by
  rw [List.filterMap_filterMap, List.filter_filterMap]
  refine List.filterMap_congr fun turn hturn => ?_
  cases turn with
  | extra new => rfl
  | missing prev =>
      cases hadded : prev.wasAdded with
      | false => simp [Turn.left, NtpSource.added, hadded, kept]
      | true =>
          have hid : prev.confId ∈ T.filterMap missingId :=
            List.mem_filterMap.mpr ⟨_, hturn, by rw [missingId, if_pos hadded]⟩
          simpa [Turn.left, NtpSource.added, hadded, kept] using hid
  | same prev new =>
      cases hadded : prev.wasAdded with
      | false => simp [Turn.left, NtpSource.added, hadded, kept]
      | true =>
          have hid := id_notMem_missing hnodup hturn hadded
          simpa [Turn.left, NtpSource.added, hadded, kept] using hid

end Passes

/-! ### Reloads -/

/-- **The sources are in step with the files** after a reload:

* the added sources are those of the array, with the status and ID of their addition,
* the array has what is listed in the files,
* an added source is removed, by its ID, exactly if there are not enough listings for it,
* a listing is added once if it is new, or the source could not be added before,
* a source which is not listed anymore is removed. -/
structure InStep (s : State) (r : Reload) (s' : State) : Prop where
  log_eq : s'.log = s.log ++ reloadEvents s r.files r.outcome
  current : (live s'.log).Perm (s'.ntpSources.filterMap NtpSource.added)
  listed : (s'.ntpSources.map NtpSource.spec).Perm r.files
  removed : ∀ spec i source, (s.ntpSources.filter (·.spec = spec))[i]? = some source →
    source.wasAdded → (.removeSourcesById source.confId ∈ reloadEvents s r.files r.outcome ↔
      r.files.count spec ≤ i)
  added : ∀ spec, ((reloadEvents s r.files r.outcome).filterMap Event.spec).count spec =
    ((s.ntpSources.filter (·.spec = spec)).take (r.files.count spec)).countP (!·.wasAdded) +
      (r.files.count spec - (s.ntpSources.filter (·.spec = spec)).length)
  dropped : ∀ a ∈ live s.log, a.1 ∉ r.files →
    .removeSourcesById a.2.2 ∈ reloadEvents s r.files r.outcome

/-- **No repeated addition succeeds**: when a source which could not be added before is added
again, the outcome is another error. -/
def RetriesFail (s : State) (r : Reload) : Prop :=
  ∀ n prev new, ((turns s r.files).filter addsSource)[n]? = some (.same prev new) →
    (r.outcome n).status ≠ .success ∧ (r.outcome n).status ≠ .unresolvedName

/-- The condition holds for all reloads of a sequence. -/
def RunRetriesFail : State → List Reload → Prop
  | _, [] => True
  | s, r :: reloads =>
      RetriesFail s r ∧ RunRetriesFail (reloadSourceDirs s r.files r.outcome) reloads

/-- What is kept by the reloads. -/
structure Inv (s : State) : Prop where
  enabled : s.confNtpSourcesAdded = true
  sorted : (s.ntpSources.map NtpSource.key).Pairwise (· ≤ ·)
  current : (live s.log).Perm (s.ntpSources.filterMap NtpSource.added)

theorem turns_spec_eq (s : State) (files : List SourceSpec) {prev new : NtpSource}
    (h : .same prev new ∈ turns s files) : prev.spec = new.spec :=
  SourceSpec.key_injective ((signs_compareSources prev new).eq_zero_iff.mp (cmp_eq_zero_of_same h))

/-- The turns of one source. -/
theorem filter_turns {s : State} (h : Inv s) (files : List SourceSpec) (spec : SourceSpec) :
    (turns s files).filter (fun t => t.key NtpSource.key NtpSource.key = spec.key) =
      pairUp (s.ntpSources.filter (·.spec = spec))
        ((loadSources files).filter (·.spec = spec)) := by
  have hkey : ∀ l : List NtpSource,
      l.filter (fun source => source.key = spec.key) = l.filter fun source => source.spec = spec :=
    fun l => List.filter_congr fun source _ =>
      decide_eq_decide.mpr SourceSpec.key_injective.eq_iff
  rw [turns, filter_align signs_compareSources h.sorted (loadSources_sorted files), hkey, hkey]

theorem length_filter_loadSources (files : List SourceSpec) (spec : SourceSpec) :
    ((loadSources files).filter (·.spec = spec)).length = files.count spec := by
  rw [((loadSources_perm files).filter _).length_eq, List.filter_map, List.length_map,
    List.count_eq_length_filter]
  rfl

theorem mem_reloadEvents_remove {s : State} {r : Reload} {id : BitVec 32} :
    .removeSourcesById id ∈ reloadEvents s r.files r.outcome ↔
      id ∈ (turns s r.files).filterMap missingId := by
  have hadd := addSources_not_remove r.outcome 0 (turns s r.files) id
  rw [reloadEvents, List.mem_append, List.mem_append, List.mem_map]
  constructor
  · rintro ((⟨id', hid, heq⟩ | hmem) | hmem)
    · cases heq
      exact hid
    · exact absurd hmem hadd
    · split at hmem
      · cases List.mem_singleton.mp hmem
      · cases hmem
  · exact fun hid => .inl (.inl ⟨id, hid, rfl⟩)

theorem prevIds_nodup {s : State} (h : Inv s) (hfresh : FreshIds s.log) (files : List SourceSpec) :
    ((turns s files).filterMap prevId).Nodup := by
  have heq : (turns s files).filterMap prevId =
      (s.ntpSources.filterMap NtpSource.added).map fun a => a.2.2 := by
    have hleft : (turns s files).filterMap Turn.left = s.ntpSources := filterMap_left_align _ _
    rw [← hleft, List.filterMap_filterMap, List.map_filterMap]
    rfl
  rw [heq, ← (h.current.map _).nodup_iff]
  exact live_nodup hfresh

/-- **The added sources after a reload.** -/
theorem live_reload {s : State} (h : Inv s) (hfresh : FreshIds s.log) {r : Reload}
    (hretry : RetriesFail s r) :
    (live (s.log ++ reloadEvents s r.files r.outcome)).Perm
      ((addSources r.outcome 0 (turns s r.files)).1.filterMap NtpSource.added) := by
  set T := turns s r.files with hT
  have hkept : ((live s.log).filter fun a => a.2.2 ∉ T.filterMap missingId).Perm
      (T.filterMap kept) := by
    rw [← filter_missing (prevIds_nodup h hfresh r.files), ← hT]
    refine List.Perm.filter _ ?_
    rw [hT, turns, filterMap_left_align]
    exact h.current
  have hgained : ∀ m prev new, (T.filter addsSource)[m]? = some (.same prev new) →
      (Event.addSourceByName new.spec (r.outcome (0 + m))).gained = none := by
    intro m prev new hm
    obtain ⟨hsuccess, hunresolved⟩ := hretry m prev new hm
    rw [Nat.zero_add, Event.gained, if_neg (by simp [hsuccess, hunresolved])]
  have hadded := addSources_added (fun prev new hmem => turns_spec_eq s r.files hmem) hgained
  have hnone : ∀ id, Event.removeSourcesById id ∉ (addSources r.outcome 0 T).2 ++
      if (addSources r.outcome 0 T).2.any Event.isUnresolved then [.resolveSources] else [] := by
    intro id hmem
    rcases List.mem_append.mp hmem with hmem | hmem
    · exact addSources_not_remove r.outcome 0 T id hmem
    · split at hmem
      · cases List.mem_singleton.mp hmem
      · cases hmem
  have hresolve : (if (addSources r.outcome 0 T).2.any Event.isUnresolved then
      [Event.resolveSources] else []).filterMap Event.gained = [] := by
    split <;> rfl
  rw [live_append, reloadEvents, ← hT, List.append_assoc, List.foldl_append,
    foldl_liveStep_remove, foldl_liveStep_add _ hnone, List.filterMap_append, hresolve,
    List.append_nil]
  exact (hkept.append_right _).trans hadded.symm

/-- **One reload.** -/
theorem reload_inStep {s : State} (h : Inv s) (hfresh : FreshIds s.log) {r : Reload}
    (hretry : RetriesFail s r) :
    Inv (reloadSourceDirs s r.files r.outcome) ∧
      InStep s r (reloadSourceDirs s r.files r.outcome) := by
  have hspecs := addSources_specs r.outcome 0 (turns s r.files)
  have hloaded : (turns s r.files).filterMap Turn.right = loadSources r.files :=
    filterMap_right_align _ _
  have hlive := live_reload h hfresh hretry
  rw [hloaded] at hspecs
  have hremoved : ∀ spec i source, (s.ntpSources.filter (·.spec = spec))[i]? = some source →
      source.wasAdded → (.removeSourcesById source.confId ∈ reloadEvents s r.files r.outcome ↔
        r.files.count spec ≤ i) := by
    intro spec i source hsource hadded
    obtain ⟨hsame, hmissing⟩ := mem_pairUp ((loadSources r.files).filter (·.spec = spec)) hsource
    rw [length_filter_loadSources, ← filter_turns h r.files spec] at hsame hmissing
    rw [mem_reloadEvents_remove]
    constructor
    · intro hid
      by_contra hlt
      obtain ⟨new, hmem⟩ := hsame (not_le.mp hlt)
      exact id_notMem_missing (prevIds_nodup h hfresh r.files) (List.mem_of_mem_filter hmem)
        hadded hid
    · intro hle
      exact List.mem_filterMap.mpr
        ⟨_, List.mem_of_mem_filter (hmissing hle), by rw [missingId, if_pos hadded]⟩
  rw [reloadSourceDirs, if_pos h.enabled]
  refine ⟨⟨h.enabled, ?_, hlive⟩, rfl, hlive, ?_, hremoved, ?_, ?_⟩
  · have hkeys : (addSources r.outcome 0 (turns s r.files)).1.map NtpSource.key =
        (loadSources r.files).map NtpSource.key := by
      have hmap := congrArg (List.map SourceSpec.key) hspecs
      rw [List.map_map, List.map_map] at hmap
      exact hmap
    exact hkeys ▸ loadSources_sorted r.files
  · have hperm := (loadSources_perm r.files).map NtpSource.spec
    rw [List.map_map] at hperm
    exact (hspecs ▸ hperm).trans (List.Perm.of_eq (List.map_id _))
  · intro spec
    have hcount : (reloadEvents s r.files r.outcome).filterMap Event.spec =
        (addSources r.outcome 0 (turns s r.files)).2.filterMap Event.spec := by
      have hremoves : (((turns s r.files).filterMap missingId).map
          Event.removeSourcesById).filterMap Event.spec = [] := by
        rw [List.filterMap_map]
        exact List.filterMap_eq_nil_iff.mpr fun _ _ => rfl
      have hresolve : (if (addSources r.outcome 0 (turns s r.files)).2.any Event.isUnresolved then
          [Event.resolveSources] else []).filterMap Event.spec = [] := by
        split <;> rfl
      rw [reloadEvents, List.filterMap_append, List.filterMap_append, hremoves, hresolve,
        List.nil_append, List.append_nil]
    rw [hcount, count_addSources fun prev new hmem => turns_spec_eq s r.files hmem,
      filter_turns h, countP_pairUp _ _ addsSource (fun prev => !prev.wasAdded)
        (fun _ _ => rfl) (fun _ => rfl) (fun _ => rfl), length_filter_loadSources]
  · intro a ha hnot
    -- the source is one of the array, and there is no listing for it
    obtain ⟨source, hsource, hadded⟩ := List.mem_filterMap.mp (h.current.mem_iff.mp ha)
    rw [NtpSource.added] at hadded
    split at hadded
    next hwas =>
        obtain rfl := Option.some.inj hadded
        have hmem : source ∈ s.ntpSources.filter (·.spec = source.spec) :=
          List.mem_filter.mpr ⟨hsource, decide_eq_true rfl⟩
        obtain ⟨i, hi⟩ := List.mem_iff_getElem?.mp hmem
        refine (hremoved source.spec i source hi hwas).mpr ?_
        rw [List.count_eq_zero.mpr hnot]
        exact Nat.zero_le i
    next => cases hadded

theorem run_concat (s : State) (reloads : List Reload) (r : Reload) :
    run s (reloads ++ [r]) = reloadSourceDirs (run s reloads) r.files r.outcome :=
  List.foldl_append

theorem FreshIds.of_reload {s : State} {r : Reload}
    (h : FreshIds (reloadSourceDirs s r.files r.outcome).log) : FreshIds s.log := by
  rw [reloadSourceDirs] at h
  split at h
  · exact h.of_append
  · exact h

theorem RunRetriesFail.append {s : State} {reloads : List Reload} {r : Reload}
    (h : RunRetriesFail s (reloads ++ [r])) :
    RunRetriesFail s reloads ∧ RetriesFail (run s reloads) r := by
  induction reloads generalizing s with
  | nil => exact ⟨trivial, h.1⟩
  | cons r' reloads ih => exact ⟨⟨h.1, (ih h.2).1⟩, (ih h.2).2⟩

theorem run_inv {reloads : List Reload} (hfresh : FreshIds (run initial reloads).log)
    (hretry : RunRetriesFail initial reloads) : Inv (run initial reloads) := by
  induction reloads using List.reverseRecOn with
  | nil => exact ⟨rfl, List.Pairwise.nil, List.Perm.refl _⟩
  | append_singleton reloads r ih =>
      obtain ⟨hretries, hlast⟩ := hretry.append
      rw [run_concat] at hfresh ⊢
      exact (reload_inStep (ih hfresh.of_reload hretries) hfresh.of_reload hlast).1

/-- **Reloads keep the sources in step with the files** if no repeated addition succeeds. -/
theorem run_inStep (reloads : List Reload) (r : Reload)
    (hfresh : FreshIds (run initial (reloads ++ [r])).log)
    (hretry : RunRetriesFail initial (reloads ++ [r])) :
    InStep (run initial reloads) r (run initial (reloads ++ [r])) := by
  obtain ⟨hretries, hlast⟩ := hretry.append
  rw [run_concat] at hfresh ⊢
  exact (reload_inStep (run_inv hfresh.of_reload hretries) hfresh.of_reload hlast).2

/-- A server with no options. -/
def plainServer : SourceSpec := ⟨[97], .server, false, 0, 123, []⟩

/-- The outcomes of an addition which succeeds. -/
def succeeding (id : BitVec 32) : Outcome := ⟨.success, some id, fun _ => rfl⟩

/-- The outcome of an addition when there are too many sources. -/
def failing (id : BitVec 32) : Outcome := ⟨.tooManySources, some id, fun _ => rfl⟩

/-- Two more servers. -/
def otherServer : SourceSpec := { plainServer with name := [98] }

def newServer : SourceSpec := { plainServer with name := [99] }

/-- One server is added, and there are too many sources for the other one. -/
def firstReload : Reload :=
  ⟨[plainServer, otherServer], fun n => if n = 0 then succeeding 1 else failing 2⟩

/-- The added server is not listed anymore, the other one fails again, and a new one is added. -/
def secondReload : Reload :=
  ⟨[otherServer, newServer], fun n => if n = 0 then failing 3 else succeeding 4⟩

theorem FreshIds.concat {log : List Event} (h : FreshIds log) (event : Event)
    (hevent : ∀ spec outcome id, event = .addSourceByName spec outcome →
      outcome.confId = some id → id ∉ (live log).map fun a => a.2.2) :
    FreshIds (log ++ [event]) := by
  intro l₁ spec outcome l₂ id heq hid
  induction l₂ using List.reverseRecOn with
  | nil =>
      obtain ⟨rfl, hcons⟩ := List.append_inj' heq rfl
      exact hevent spec outcome id (List.cons.inj hcons).1 hid
  | append_singleton l₂ last _ =>
      rw [← List.cons_append, ← List.append_assoc] at heq
      obtain ⟨rfl, -⟩ := List.append_inj' heq rfl
      exact h l₁ spec outcome l₂ id rfl hid

/-- The calls of both reloads. -/
theorem run_reloads_log :
    (run initial [firstReload]).log =
        [.addSourceByName plainServer (succeeding 1), .addSourceByName otherServer (failing 2)] ∧
      (run initial [firstReload, secondReload]).log =
        [.addSourceByName plainServer (succeeding 1), .addSourceByName otherServer (failing 2),
          .removeSourcesById 1, .addSourceByName otherServer (failing 3),
          .addSourceByName newServer (succeeding 4)] := by
  decide

theorem run_inStep_secondReload :
    InStep (run initial [firstReload]) secondReload (run initial [firstReload, secondReload]) ∧
      live (run initial [firstReload, secondReload]).log = [(newServer, .success, 4)] ∧
      (run initial [firstReload, secondReload]).ntpSources =
        [⟨otherServer, .tooManySources, 2⟩, ⟨newServer, .success, 4⟩] := by
  refine ⟨run_inStep [firstReload] secondReload ?_ ⟨?_, ?_, trivial⟩, by decide, by decide⟩
  · change FreshIds (run initial [firstReload, secondReload]).log
    rw [run_reloads_log.2]
    have hempty : FreshIds [] := fun l₁ _ _ _ _ heq => by
      cases l₁ <;> cases heq
    have hadded : ∀ (log : List Event) (spec : SourceSpec) (outcome : Outcome) (id : BitVec 32),
        outcome.confId = some id → id ∉ (live log).map (fun a => a.2.2) → FreshIds log →
        FreshIds (log ++ [.addSourceByName spec outcome]) := by
      intro log spec outcome id hid hnew h
      refine h.concat _ fun spec' outcome' id' heq hid' => ?_
      cases heq
      obtain rfl := Option.some.inj (hid.symm.trans hid')
      exact hnew
    have hfirst := hadded _ otherServer (failing 2) 2 rfl (by decide)
      (hadded _ plainServer (succeeding 1) 1 rfl (by decide) hempty)
    have hremoved := hfirst.concat (.removeSourcesById 1) fun _ _ _ heq _ => by cases heq
    exact hadded _ newServer (succeeding 4) 4 rfl (by decide)
      (hadded _ otherServer (failing 3) 3 rfl (by decide) hremoved)
  · intro n prev new hn
    have hturns : (turns initial firstReload.files).filter addsSource =
        [.extra (parseSource plainServer), .extra (parseSource otherServer)] := by rfl
    rw [hturns] at hn
    rcases n with _ | _ | n <;> cases hn
  · intro n prev new hn
    have hturns : (turns (run initial [firstReload]) secondReload.files).filter addsSource =
        [.same ⟨otherServer, .tooManySources, 2⟩ (parseSource otherServer),
          .extra (parseSource newServer)] := by rfl
    change ((turns (run initial [firstReload]) secondReload.files).filter addsSource)[n]? = _ at hn
    rw [hturns] at hn
    cases n with
    | zero => decide
    | succ n => cases n <;> cases hn

/-- **A source which is forgotten.** Its addition fails and then succeeds in the next reload. The
array still has the failure and the first ID, and the source is not removed by a reload which does
not list it. -/
theorem run_forgets_source :
    let s := run initial
      [⟨[plainServer], fun _ => failing 1⟩, ⟨[plainServer], fun _ => succeeding 2⟩]
    live s.log = [(plainServer, .success, 2)] ∧
      s.ntpSources = [⟨plainServer, .tooManySources, 1⟩] ∧
      reloadEvents s [] (fun _ => failing 3) = [] ∧
      ¬ InStep (run initial [⟨[plainServer], fun _ => failing 1⟩])
        ⟨[plainServer], fun _ => succeeding 2⟩ s := by
  have hlive : live (run initial [⟨[plainServer], fun _ => failing 1⟩,
      ⟨[plainServer], fun _ => succeeding 2⟩]).log = [(plainServer, .success, 2)] := by decide
  have hsources : (run initial [⟨[plainServer], fun _ => failing 1⟩,
      ⟨[plainServer], fun _ => succeeding 2⟩]).ntpSources =
        [⟨plainServer, .tooManySources, 1⟩] := by decide
  refine ⟨hlive, hsources, by decide, fun h => ?_⟩
  have hcurrent := h.current
  rw [hlive, hsources] at hcurrent
  exact absurd hcurrent.length_eq (by decide)

end Chrony.Conf
