import Chrony.NtpSources.Runs

/-!
# Runs of the Resolver of Names

The names to be resolved are in a list which is walked by a chain of callbacks: the handler
of an answer starts the request for the next source in the list. Between two answers the
list gets new sources, the round may be restarted, and the records that the sources refer
to are replaced or removed.

The operations on the table of the records do not change what the resolver has to do
(`SameResolver`), except that the reset of a selected source may schedule bad sources for a
replacement. What is kept by that (`Stable`) is kept by the changes of addresses. Between
two requests this is the invariant `ResolverInv` of the list, of the request and of the
timeout; during the answer to a request, when new sources are only put at the end of the
list, it is that the answered source stays in the list (`Answering`). None of the assertions
of the resolver fails, and with the invariant of the table no assertion fails in any run.

## Main results

* `step_resolver`: every event keeps the invariant of the resolver, and fails only in the
  table.
* `run_resolver`: every run succeeds, and leaves the resolver in order.
-/

namespace Chrony.NtpSources

open Chrony.Lib Chrony.Lib.OpenAddressing

variable {env : Env}

/-- The assertions about the records. -/
def Abort.OfTable (e : Abort) : Prop :=
  e = .recordLocked ∨ e = .addressDuplicated ∨ e = .emptyRecord

/-- What fails neither in the resolver nor in the table does not fail. -/
theorem exists_ok_of_returns {α : Type} {x : Except Abort α} {P Q : α → Prop}
    (hP : Returns Abort.OfResolver x P) (hQ : Returns Abort.OfTable x Q) :
    ∃ a, x = .ok a ∧ P a ∧ Q a := by
  cases x with
  | ok a => exact ⟨a, rfl, hP, hQ⟩
  | error e =>
      obtain ⟨hlocked, hduplicated, hempty⟩ := hP
      rcases hQ with rfl | rfl | rfl
      · exact absurd rfl hlocked
      · exact absurd rfl hduplicated
      · exact absurd rfl hempty

/-! ### The table does not change the resolver -/

/-- The resolver has the same to do in both states. There may be more pools. -/
structure SameResolver (s s' : State) : Prop where
  unresolvedSources : s'.unresolvedSources = s.unresolvedSources
  allocated : s'.allocated = s.allocated
  resolvingId : s'.resolvingId = s.resolvingId
  resolvingTimeouts : s'.resolvingTimeouts = s.resolvingTimeouts
  resolvingSource : s'.resolvingSource = s.resolvingSource
  requests : s'.requests = s.requests
  pools : s.pools.length ≤ s'.pools.length

namespace SameResolver

variable {s s' s'' : State}

theorem refl (s : State) : SameResolver s s := ⟨rfl, rfl, rfl, rfl, rfl, rfl, le_rfl⟩

theorem trans (h : SameResolver s s') (h' : SameResolver s' s'') : SameResolver s s'' where
  unresolvedSources := h'.unresolvedSources.trans h.unresolvedSources
  allocated := h'.allocated.trans h.allocated
  resolvingId := h'.resolvingId.trans h.resolvingId
  resolvingTimeouts := h'.resolvingTimeouts.trans h.resolvingTimeouts
  resolvingSource := h'.resolvingSource.trans h.resolvingSource
  requests := h'.requests.trans h.requests
  pools := h.pools.trans h'.pools

end SameResolver

theorem modifyPool_sameResolver (s : State) (poolId : Option ℕ) (f : SourcePool → SourcePool) :
    SameResolver s (s.modifyPool poolId f) := by
  cases poolId with
  | none => exact SameResolver.refl s
  | some id => exact ⟨rfl, rfl, rfl, rfl, rfl, rfl, by simp [State.modifyPool]⟩

theorem rehashRecords_sameResolver (env : Env) (s : State) :
    Returns Abort.OfTable (rehashRecords env s) (SameResolver s) := by
  rw [rehashRecords]
  split
  · exact .inl rfl
  · refine Returns.foldlM (fun s' slot hs' => ?_) _ ⟨rfl, rfl, rfl, rfl, rfl, rfl, le_rfl⟩
    rw [rehashRecord.eq_def]
    split
    · exact hs'
    · split
      · exact hs'.trans ⟨rfl, rfl, rfl, rfl, rfl, rfl, le_rfl⟩
      · exact .inr (.inl rfl)

theorem nestedUpdate_sameResolver (env : Env) (s : State) (u : AddressUpdate) :
    SameResolver s (nestedUpdate env s u) := by
  rw [nestedUpdate]
  split
  · exact SameResolver.refl s
  · rw [postponeUpdate]
    split
    · exact SameResolver.refl s
    · exact ⟨rfl, rfl, rfl, rfl, rfl, rfl, le_rfl⟩

theorem nestedUpdates_sameResolver (env : Env) (s : State) (updates : List AddressUpdate) :
    SameResolver s (updates.foldl (nestedUpdate env) s) := by
  induction updates generalizing s with
  | nil => exact SameResolver.refl s
  | cons u updates ih => exact (nestedUpdate_sameResolver env s u).trans (ih _)

/-- **What is kept by the nested calls** of a change of an address, in which the bad sources
are found. -/
structure Stable (env : Env) (bad : List BadSource) (P : State → Prop) : Prop where
  same : ∀ {s s'}, SameResolver s s' → P s → P s'
  handle : ∀ b ∈ bad, ∀ s, P s → Returns Abort.OfTable (handleBadSource env s b) P

namespace Stable

variable {bad : List BadSource} {P : State → Prop} {s : State}

/-- Without bad sources the resolver has the same to do. -/
theorem sameResolver (env : Env) (s₀ : State) : Stable env [] (SameResolver s₀) :=
  ⟨fun h hs => hs.trans h, fun b hb => by cases hb⟩

theorem handleBadSources (h : Stable env bad P) (hs : P s) :
    Returns Abort.OfTable (bad.foldlM (handleBadSource env) s) P := by
  induction bad generalizing s with
  | nil => exact hs
  | cons b bad ih =>
      have htail : Stable env bad P :=
        ⟨h.same, fun b' hb' => h.handle b' (List.mem_cons_of_mem _ hb')⟩
      rw [List.foldlM_cons]
      exact (h.handle b List.mem_cons_self s hs).bind fun s' hs' => ih htail hs'

theorem changeRecord (h : Stable env bad P) (hs : P s) (slot : ℕ) (r : SourceRecord)
    (old new : RemoteAddress) (replacement : Bool) (updates : List AddressUpdate) :
    Returns Abort.OfTable (changeRecord env s slot r old new replacement updates bad) P := by
  have hlock : SameResolver s { s with recordLock := true } :=
    ⟨rfl, rfl, rfl, rfl, rfl, rfl, le_rfl⟩
  have hnested : SameResolver s (if replacement then
      updates.foldl (nestedUpdate env) { s with recordLock := true }
      else { s with recordLock := true }) := by
    split
    · exact hlock.trans (nestedUpdates_sameResolver env _ updates)
    · exact hlock
  rw [NtpSources.changeRecord]
  generalize (if replacement then updates.foldl (nestedUpdate env) { s with recordLock := true }
    else { s with recordLock := true }) = s₁ at hnested ⊢
  have hset : SameResolver s₁
      { s₁ with records := s₁.records.set slot (some { r with remoteAddr := new }) } :=
    ⟨rfl, rfl, rfl, rfl, rfl, rfl, le_rfl⟩
  refine (h.handleBadSources (h.same (hnested.trans hset) hs)).bind fun s₂ hs₂ => ?_
  split
  · exact .inr (.inr rfl)
  next r₂ _ =>
      have hchange : SameResolver s₂
          { s₂ with records := s₂.records.set slot (some (r₂.changeAddress new replacement)) } :=
        ⟨rfl, rfl, rfl, rfl, rfl, rfl, le_rfl⟩
      have hpool := hchange.trans (modifyPool_sameResolver _ r₂.poolId
        (SourcePool.changeAddress old.ipAddr new.ipAddr r₂.tentative))
      have hunlock : ∀ s', SameResolver s₂ s' →
          SameResolver s₂ { s' with recordLock := false } :=
        fun _ h => ⟨h.1, h.2, h.3, h.4, h.5, h.6, h.7⟩
      exact h.same (hunlock _ hpool) hs₂

theorem changeSourceAddress (h : Stable env bad P) (hs : P s) (old new : RemoteAddress)
    (replacement : Bool) (updates : List AddressUpdate) :
    Returns Abort.OfTable (changeSourceAddress env s old new replacement updates bad)
      fun res => P res.2 := by
  rw [NtpSources.changeSourceAddress]
  split
  · next slot _ =>
      dsimp only
      split
      · exact hs
      · split
        · exact .inl rfl
        · split
          · exact .inr (.inr rfl)
          · next r _ =>
              refine (h.changeRecord hs slot r old new replacement updates).bind fun s₁ hs₁ => ?_
              split
              · exact (rehashRecords_sameResolver env s₁).bind fun s' hs' => h.same hs' hs₁
              · exact hs₁
  · exact hs

theorem handleSavedAddressUpdate (h : Stable env bad P) (hs : P s) :
    Returns Abort.OfTable (handleSavedAddressUpdate env s bad) P := by
  rw [NtpSources.handleSavedAddressUpdate]
  dsimp only
  split
  · exact hs
  · refine (h.changeSourceAddress hs _ _ false []).bind fun res hres => ?_
    have hsaved : ∀ u, SameResolver res.2 { res.2 with savedAddressUpdate := u } :=
      fun u => ⟨rfl, rfl, rfl, rfl, rfl, rfl, le_rfl⟩
    exact h.same (hsaved _) hres

theorem updateSourceNtpAddress (h : Stable env bad P) (hs : P s) (u : AddressUpdate) :
    Returns Abort.OfTable (updateSourceNtpAddress env s u bad) fun res => P res.2 := by
  rw [NtpSources.updateSourceNtpAddress]
  split
  · exact hs
  · split
    · exact h.changeSourceAddress hs _ _ false []
    · rw [postponeUpdate]
      split
      · exact hs
      · have hsaved : SameResolver s { s with savedAddressUpdate := u } :=
          ⟨rfl, rfl, rfl, rfl, rfl, rfl, le_rfl⟩
        exact h.same hsaved hs

end Stable

theorem makeRoom_sameResolver (env : Env) (s : State) (remoteAddr : RemoteAddress) (slot : ℕ) :
    Returns Abort.OfTable (makeRoom env s remoteAddr slot) fun res => SameResolver s res.1 := by
  rw [makeRoom]
  split
  · exact SameResolver.refl s
  · refine (rehashRecords_sameResolver env s).bind fun s' hs' => ?_
    split
    · exact hs'
    · exact .inr (.inl rfl)

theorem storeRecord_sameResolver (env : Env) (s : State) (slot : ℕ) (remoteAddr : RemoteAddress)
    (name : Option String) (family : Family) (poolId : Option ℕ) (confId : BitVec 32)
    (updates : List AddressUpdate) :
    SameResolver s (storeRecord env s slot remoteAddr name family poolId confId updates) := by
  have hlock : SameResolver s { s with recordLock := true } :=
    ⟨rfl, rfl, rfl, rfl, rfl, rfl, le_rfl⟩
  rw [storeRecord]
  refine (hlock.trans (nestedUpdates_sameResolver env _ updates)).trans ?_
  refine SameResolver.trans ?_ (modifyPool_sameResolver _ poolId _)
  exact ⟨rfl, rfl, rfl, rfl, rfl, rfl, le_rfl⟩

theorem addSource_sameResolver (env : Env) (s : State) (remoteAddr : RemoteAddress)
    (name : Option String) (family : Family) (poolId : Option ℕ) (confId : BitVec 32)
    (updates : List AddressUpdate) :
    Returns Abort.OfTable (addSource env s remoteAddr name family poolId confId updates)
      fun res => SameResolver s res.2 := by
  rw [addSource]
  split
  · next slot _ =>
      split
      · exact SameResolver.refl s
      · split
        · exact SameResolver.refl s
        · split
          · exact SameResolver.refl s
          · have hcount : SameResolver s { s with nSources := s.nSources + 1 } :=
              ⟨rfl, rfl, rfl, rfl, rfl, rfl, le_rfl⟩
            refine (makeRoom_sameResolver env _ remoteAddr slot).bind fun res hres => ?_
            dsimp only
            split
            · exact .inl rfl
            · exact ((Stable.sameResolver env s).handleSavedAddressUpdate
                ((hcount.trans hres).trans
                  (storeRecord_sameResolver env _ _ _ name family poolId confId updates))).bind
                fun s₂ hs₂ => hs₂
  · exact SameResolver.refl s

theorem addSources_sameResolver (name : String) (family : Family) (port : BitVec 16)
    (poolId : Option ℕ) (confId : BitVec 32) (updates : ℕ → List AddressUpdate) (n i : ℕ)
    (s : State) :
    Returns Abort.OfTable (addSources env name family port poolId confId updates n i s)
      fun res => SameResolver s res.2 := by
  induction n generalizing i s with
  | zero => exact SameResolver.refl s
  | succ n ih =>
      rw [addSources]
      have hid : SameResolver s
          (if i > 0 then { s with lastAddressId := s.lastAddressId + 1 } else s) := by
        split <;> exact ⟨rfl, rfl, rfl, rfl, rfl, rfl, le_rfl⟩
      refine (addSource_sameResolver env _ _ _ _ _ _ _).bind fun res hres => ?_
      dsimp only
      split
      · exact hid.trans hres
      · exact (ih (i + 1) res.2).mono fun _ h => (hid.trans hres).trans h

theorem addPool_sameResolver (s : State) (params : ℤ) : SameResolver s (addPool s params).2 := by
  rw [addPool]
  split
  · exact ⟨rfl, rfl, rfl, rfl, rfl, rfl, by simp⟩
  · exact ⟨rfl, rfl, rfl, rfl, rfl, rfl, by simp⟩

/-- The ID of a new pool is that of a pool in the array. -/
theorem addPool_lt (s : State) (params : ℤ) :
    (addPool s params).1 < (addPool s params).2.pools.length := by
  rw [addPool]
  split
  · next id hunused =>
      have hmem := List.mem_of_find?_eq_some hunused
      simpa using hmem
  · simp

theorem replaceSourceConnectable_stable {P : State → Prop} (h : ∀ bad, Stable env bad P) {s : State}
    (hs : P s) (old : RemoteAddress) (port : BitVec 16) (new : ResolvedAddr) :
    Returns Abort.OfTable (replaceSourceConnectable env s old port new) fun res => P res.2 := by
  rw [replaceSourceConnectable]
  split
  · exact hs
  · refine ((h new.bad).changeSourceAddress hs old _ true new.updates).bind fun res hres => ?_
    dsimp only
    split
    · exact hres
    · exact ((h new.badSaved).handleSavedAddressUpdate hres).bind fun _ h => h

theorem replaceLoop_stable {P : State → Prop} (h : ∀ bad, Stable env bad P)
    (us : UnresolvedSource) (addrs : List ResolvedAddr) {s : State} (hs : P s) :
    Returns Abort.OfTable (replaceLoop env us addrs s) P := by
  induction addrs generalizing s with
  | nil => exact hs
  | cons new addrs ih =>
      rw [replaceLoop]
      split
      · exact ih hs
      · split
        · split
          · exact ih hs
          · exact (replaceSourceConnectable_stable h hs _ _ new).bind fun res hres => ih hres
        · refine (replaceSourceConnectable_stable h hs _ _ new).bind fun res hres => ?_
          dsimp only
          split
          · exact hres
          · exact ih hres

/-! ### The invariant of the resolver -/

/-- The sources in the list are different allocated ones, and those of a pool refer to a
pool that exists and are not refreshments. -/
structure UnresolvedList (s : State) : Prop where
  numbers : (s.unresolvedSources.map UnresolvedSource.number).Nodup
  allocated : ∀ us ∈ s.unresolvedSources, us.number < s.allocated
  pools : ∀ us ∈ s.unresolvedSources, ∀ id, us.poolId = some id →
    id < s.pools.length ∧ us.refreshment = false

/-- **The invariant of the resolver.** There is exactly one request, for the source that is
being resolved, which is in the list, or none. The ID of the timeout is set if there is
one, and then no source is being resolved. -/
structure ResolverInv (s : State) : Prop extends UnresolvedList s where
  requests : s.requests = s.resolvingSource.toList
  member : ∀ us, s.resolvingSource = some us → us ∈ s.unresolvedSources
  timeout : s.resolvingTimeouts = if s.resolvingId then 1 else 0
  scheduled : s.resolvingId = true → s.resolvingSource = none

/-- The resolver between two requests, without a timeout. -/
structure ResolverIdle (s : State) : Prop extends UnresolvedList s where
  requests : s.requests = []
  resolvingId : s.resolvingId = false
  timeout : s.resolvingTimeouts = 0

/-- **The resolver during an answer**: no request is left, and the source that was resolved is
in the list. -/
structure Answering (us : UnresolvedSource) (s : State) : Prop extends ResolverIdle s where
  resolving : s.resolvingSource = some us
  member : us ∈ s.unresolvedSources

namespace SameResolver

variable {s s' : State}

theorem list (h : SameResolver s s') (hs : UnresolvedList s) : UnresolvedList s' where
  numbers := by rw [h.unresolvedSources]; exact hs.numbers
  allocated := by rw [h.unresolvedSources, h.allocated]; exact hs.allocated
  pools := by
    intro us hus id hid
    rw [h.unresolvedSources] at hus
    have hpool := hs.pools us hus id hid
    exact ⟨hpool.1.trans_le h.pools, hpool.2⟩

theorem inv (h : SameResolver s s') (hs : ResolverInv s) : ResolverInv s' where
  toUnresolvedList := h.list hs.toUnresolvedList
  requests := by rw [h.requests, h.resolvingSource]; exact hs.requests
  member := by rw [h.resolvingSource, h.unresolvedSources]; exact hs.member
  timeout := by rw [h.resolvingTimeouts, h.resolvingId]; exact hs.timeout
  scheduled := by rw [h.resolvingId, h.resolvingSource]; exact hs.scheduled

theorem idle (h : SameResolver s s') (hs : ResolverIdle s) : ResolverIdle s' where
  toUnresolvedList := h.list hs.toUnresolvedList
  requests := by rw [h.requests]; exact hs.requests
  resolvingId := by rw [h.resolvingId]; exact hs.resolvingId
  timeout := by rw [h.resolvingTimeouts]; exact hs.timeout

theorem answering (h : SameResolver s s') {us : UnresolvedSource} (hs : Answering us s) :
    Answering us s' where
  toResolverIdle := h.idle hs.toResolverIdle
  resolving := by rw [h.resolvingSource]; exact hs.resolving
  member := by rw [h.unresolvedSources]; exact hs.member

end SameResolver

namespace UnresolvedList

variable {s : State}

/-- Sources may be taken out of the list. -/
theorem filter (h : UnresolvedList s) (p : UnresolvedSource → Bool) :
    UnresolvedList { s with unresolvedSources := s.unresolvedSources.filter p } where
  numbers := h.numbers.sublist (List.filter_sublist.map _)
  allocated us hus := h.allocated us (List.mem_of_mem_filter hus)
  pools us hus := h.pools us (List.mem_of_mem_filter hus)

/-- The next source in the list is another one, and stays in the list when the previous
one is removed. -/
theorem next (h : UnresolvedList s) {us next : UnresolvedSource}
    (hnext : nextUnresolved s us = some next) :
    next ∈ s.unresolvedSources ∧ next.number ≠ us.number := by
  rw [nextUnresolved] at hnext
  set rest := s.unresolvedSources.dropWhile (·.number ≠ us.number) with hrest
  have hsub : rest.Sublist s.unresolvedSources := List.dropWhile_sublist _
  refine ⟨hsub.subset (List.mem_of_getElem? hnext), ?_⟩
  match hcons : rest with
  | [] => simp at hnext
  | [_] => simp at hnext
  | first :: second :: tail =>
      obtain rfl : second = next := by simpa using hnext
      have hfirst : first.number = us.number := by
        have hhead := List.head?_dropWhile_not (fun v : UnresolvedSource => v.number ≠ us.number)
          s.unresolvedSources
        rw [← hrest] at hhead
        simpa using hhead
      have hnodup := h.numbers.sublist (hsub.map UnresolvedSource.number)
      rw [List.map_cons, List.nodup_cons] at hnodup
      intro heq
      refine hnodup.1 ?_
      rw [hfirst, ← heq]
      exact List.mem_map_of_mem List.mem_cons_self

end UnresolvedList

theorem ResolverInv.idle {s : State} (h : ResolverInv s) (hnone : s.resolvingSource = none)
    (hid : s.resolvingId = false) : ResolverIdle s where
  toUnresolvedList := h.toUnresolvedList
  requests := by rw [h.requests, hnone]; rfl
  resolvingId := hid
  timeout := by rw [h.timeout, hid]; rfl

theorem ResolverIdle.inv {s : State} (h : ResolverIdle s) (hnone : s.resolvingSource = none) :
    ResolverInv s where
  toUnresolvedList := h.toUnresolvedList
  requests := by rw [h.requests, hnone]; rfl
  member us hus := by
    rw [hnone] at hus
    cases hus
  timeout := by rw [h.timeout, h.resolvingId]; rfl
  scheduled _ := hnone

/-- A new source is put at the end of the list. -/
theorem UnresolvedList.append {s : State} (h : UnresolvedList s) {us : UnresolvedSource}
    (hpool : ∀ id, us.poolId = some id → id < s.pools.length ∧ us.refreshment = false) :
    UnresolvedList (appendUnresolvedSource s us) where
  numbers := by
    simp only [appendUnresolvedSource, List.map_append, List.map_cons, List.map_nil]
    refine List.nodup_append.mpr ⟨h.numbers, List.nodup_singleton _, ?_⟩
    rintro n hn m hm rfl
    obtain ⟨v, hv, rfl⟩ := List.mem_map.mp hn
    have := h.allocated v hv
    rw [List.mem_singleton] at hm
    omega
  allocated := by
    intro v hv
    simp only [appendUnresolvedSource, List.mem_append, List.mem_singleton] at hv ⊢
    rcases hv with hv | rfl
    · have := h.allocated v hv
      omega
    · exact Nat.lt_succ_self _
  pools := by
    intro v hv
    simp only [appendUnresolvedSource, List.mem_append, List.mem_singleton] at hv ⊢
    rcases hv with hv | rfl
    · exact h.pools v hv
    · exact hpool

theorem appendUnresolvedSource_resolver {s : State} (h : ResolverInv s) {us : UnresolvedSource}
    (hpool : ∀ id, us.poolId = some id → id < s.pools.length ∧ us.refreshment = false) :
    ResolverInv (appendUnresolvedSource s us) where
  toUnresolvedList := h.toUnresolvedList.append hpool
  requests := h.requests
  member v hv := List.mem_append_left _ (h.member v hv)
  timeout := h.timeout
  scheduled := h.scheduled

/-- The request for a source of the list. -/
theorem startRequest_resolver {s : State} (h : ResolverIdle s) {us : UnresolvedSource}
    (hus : us ∈ s.unresolvedSources) : ResolverInv (startRequest s us) where
  numbers := h.numbers
  allocated := h.allocated
  pools := h.pools
  requests := by
    change s.requests ++ [us] = [us]
    rw [h.requests]
    rfl
  member v hv := by
    obtain rfl := Option.some.inj hv
    exact hus
  timeout := by
    change s.resolvingTimeouts = if s.resolvingId then 1 else 0
    rw [h.timeout, h.resolvingId]
    rfl
  scheduled hid := by
    change s.resolvingId = true at hid
    rw [h.resolvingId] at hid
    cases hid

/-! ### Requests -/

/-- **`resolve_sources`** succeeds between two requests, and starts one for the first source
in the list if there is one. -/
theorem resolveSources'_resolver (env : Env) {s : State} (h : ResolverIdle s)
    (hnone : s.resolvingSource = none) :
    ∃ s', resolveSources' env s = .ok s' ∧ ResolverInv s' ∧
      (s'.unresolvedSources ≠ [] → s'.requests ≠ []) := by
  rw [resolveSources', if_neg (by simp [hnone])]
  have hlist := h.toUnresolvedList.filter fun us => ¬ isResolved env s us
  dsimp only
  generalize s.unresolvedSources.filter (fun us => ¬ isResolved env s us) = l at hlist ⊢
  cases l with
  | nil =>
      have hidle : ResolverIdle { s with unresolvedSources := [] } :=
        ⟨hlist, h.requests, h.resolvingId, h.timeout⟩
      exact ⟨_, rfl, hidle.inv hnone, fun hne => absurd rfl hne⟩
  | cons us l =>
      refine ⟨_, rfl, startRequest_resolver ⟨hlist, h.requests, h.resolvingId, h.timeout⟩
        List.mem_cons_self, fun _ => ?_⟩
      simp [startRequest]

theorem removeResolvingTimeout_resolver {s : State} (h : ResolverInv s)
    (hnone : s.resolvingSource = none) :
    ∃ s', removeResolvingTimeout s = .ok s' ∧ ResolverIdle s' ∧ s'.resolvingSource = none := by
  rw [removeResolvingTimeout]
  cases hid : s.resolvingId with
  | false => exact ⟨s, rfl, h.idle hnone hid, hnone⟩
  | true =>
      have htimeout := h.timeout
      rw [hid, if_pos rfl] at htimeout
      simp only [htimeout]
      refine ⟨_, rfl, ⟨?_, ?_, rfl, rfl⟩, hnone⟩
      · exact ⟨h.numbers, h.allocated, h.pools⟩
      · change s.requests = []
        rw [h.requests, hnone]
        rfl

/-- **`NSR_ResolveSources`** succeeds. If sources are left to be resolved, there is a
request, or a timeout. -/
theorem resolveSources_resolver (env : Env) {s : State} (h : ResolverInv s) :
    ∃ s', resolveSources env s = .ok s' ∧ ResolverInv s' ∧
      (s'.unresolvedSources ≠ [] → s'.requests ≠ []) := by
  rw [resolveSources]
  split
  · next hnil => exact ⟨s, rfl, h, fun hne => absurd hnil hne⟩
  · split
    · next hnone =>
        obtain ⟨s₁, hremove, hidle, hnone₁⟩ := removeResolvingTimeout_resolver h hnone
        rw [hremove]
        exact resolveSources'_resolver env hidle hnone₁
    · next hsome =>
        refine ⟨_, rfl, ⟨⟨h.numbers, h.allocated, h.pools⟩, h.requests, h.member, h.timeout,
          h.scheduled⟩, fun _ => ?_⟩
        change s.requests ≠ []
        rw [h.requests]
        cases hus : s.resolvingSource with
        | none => exact absurd hus hsome
        | some us => simp

theorem resolveSourceReplacement_resolver (env : Env) {s : State} (h : ResolverInv s) (slot : ℕ)
    (r : SourceRecord) (refreshment : Bool) :
    ∃ s', resolveSourceReplacement env s slot r refreshment = .ok s' ∧ ResolverInv s' := by
  have hsame : SameResolver s { s with
      records := s.records.set slot (some { r with lastResolving := s.lastEventMonoTime }) } :=
    ⟨rfl, rfl, rfl, rfl, rfl, rfl, le_rfl⟩
  have happend : ResolverInv (appendUnresolvedSource
      { s with
        records := s.records.set slot (some { r with lastResolving := s.lastEventMonoTime }) }
      ⟨0, r.remoteAddr, none, r.name, r.family, true, refreshment⟩) :=
    appendUnresolvedSource_resolver (hsame.inv h) fun id hid => by cases hid
  rw [resolveSourceReplacement]
  split
  · obtain ⟨s', hresolve, hs', -⟩ := resolveSources_resolver env happend
    exact ⟨s', hresolve, hs'⟩
  · exact ⟨_, rfl, happend⟩

/-- During an answer the resolving is not started again. -/
theorem resolveSourceReplacement_answering (env : Env) {us : UnresolvedSource} {s : State}
    (h : Answering us s) (slot : ℕ) (r : SourceRecord) (refreshment : Bool) :
    ∃ s', resolveSourceReplacement env s slot r refreshment = .ok s' ∧ Answering us s' := by
  have hsame : SameResolver s { s with
      records := s.records.set slot (some { r with lastResolving := s.lastEventMonoTime }) } :=
    ⟨rfl, rfl, rfl, rfl, rfl, rfl, le_rfl⟩
  have hs := hsame.answering h
  have hlist : UnresolvedList (appendUnresolvedSource _
      ⟨0, r.remoteAddr, none, r.name, r.family, true, refreshment⟩) :=
    hs.toUnresolvedList.append fun id hid => by cases hid
  rw [resolveSourceReplacement]
  refine ⟨_, if_neg ?_, ⟨⟨hlist, hs.requests, hs.resolvingId, hs.timeout⟩, hs.resolving,
    List.mem_append_left _ hs.member⟩⟩
  change ¬s.resolvingSource = none
  rw [h.resolving]
  exact Option.some_ne_none us

/-- What holds before and after a replacement is scheduled. -/
theorem handleBadSource_of_replacement (env : Env) {P : State → Prop}
    (hsame : ∀ {s s'}, SameResolver s s' → P s → P s')
    (hrep : ∀ s slot r, P s → ∃ s', resolveSourceReplacement env s slot r false = .ok s' ∧ P s')
    {s : State} (h : P s) (b : BadSource) : Returns Abort.OfTable (handleBadSource env s b) P := by
  rw [handleBadSource]
  split
  · exact h
  · split
    · exact .inr (.inr rfl)
    · split
      · exact h
      · split
        · exact h
        · have hnext : ∀ t slot r, Returns Abort.OfTable
              (resolveSourceReplacement env { s with nextReplacement := t } slot r false) P := by
            intro t slot r
            have htime : SameResolver s { s with nextReplacement := t } :=
              ⟨rfl, rfl, rfl, rfl, rfl, rfl, le_rfl⟩
            obtain ⟨s', hs', h'⟩ := hrep _ slot r (hsame htime h)
            exact Returns.of_ok hs' h'
          exact hnext _ _ _

/-- **The invariant is stable**: bad sources may be scheduled for a replacement at any time. -/
theorem ResolverInv.stable (env : Env) (bad : List BadSource) : Stable env bad ResolverInv where
  same h := h.inv
  handle b _ _ hs := handleBadSource_of_replacement env (fun h => h.inv)
    (fun _ slot r h => resolveSourceReplacement_resolver env h slot r false) hs b

/-- So is the state during an answer. -/
theorem Answering.stable (env : Env) (us : UnresolvedSource) (bad : List BadSource) :
    Stable env bad (Answering us) where
  same h := h.answering
  handle b _ _ hs := handleBadSource_of_replacement env (fun h => h.answering)
    (fun _ slot r h => resolveSourceReplacement_answering env h slot r false) hs b

theorem rehashRecords_resolver (env : Env) {s : State} (h : ResolverInv s) :
    Returns Abort.OfTable (rehashRecords env s) ResolverInv :=
  (rehashRecords_sameResolver env s).mono fun _ hs => hs.inv h

/-! ### Removals -/

theorem cleanSourceRecord_resolver (env : Env) {s : State} (h : ResolverInv s) (slot : ℕ)
    (bad : List BadSource) :
    Returns Abort.OfTable (cleanSourceRecord env s slot bad) ResolverInv := by
  rw [cleanSourceRecord]
  split
  · exact .inr (.inr rfl)
  · next r _ =>
      have hpool := modifyPool_sameResolver s r.poolId (SourcePool.remove r)
      generalize s.modifyPool r.poolId (SourcePool.remove r) = s₁ at hpool ⊢
      have hrecord : SameResolver s₁ { s₁ with records := s₁.records.set slot none } :=
        ⟨rfl, rfl, rfl, rfl, rfl, rfl, le_rfl⟩
      refine ((ResolverInv.stable env bad).handleBadSources ((hpool.trans hrecord).inv h)).bind
        fun s₂ hs₂ => ?_
      have hcount : SameResolver s₂ { s₂ with nSources := s₂.nSources - 1 } :=
        ⟨rfl, rfl, rfl, rfl, rfl, rfl, le_rfl⟩
      exact hcount.inv hs₂

theorem cleanRecords_resolver (env : Env) {s : State} (h : ResolverInv s)
    (p : SourceRecord → Bool) (bad : ℕ → List BadSource) :
    Returns Abort.OfTable (cleanRecords env s p bad) fun acc => ResolverInv acc.1 := by
  rw [cleanRecords]
  refine Returns.foldlM (fun acc i hacc => ?_) _ h
  rw [cleanIf]
  split
  · exact hacc
  · split
    · exact (cleanSourceRecord_resolver env hacc i (bad i)).bind fun _ hs => hs
    · exact hacc

theorem removeSource_resolver (env : Env) {s : State} (h : ResolverInv s) (address : IPAddr)
    (bad : List BadSource) :
    Returns Abort.OfTable (removeSource env s address bad) fun res => ResolverInv res.2 := by
  rw [removeSource]
  split
  · exact h
  · refine (cleanSourceRecord_resolver env h _ bad).bind fun s₁ hs₁ => ?_
    exact (rehashRecords_resolver env hs₁).bind fun _ hs₂ => hs₂

theorem removePoolSources_resolver (env : Env) {s : State} (h : ResolverInv s) (poolId : ℕ)
    (tentative unresolved : Bool) (bad : ℕ → List BadSource) :
    Returns Abort.OfTable (removePoolSources env s poolId tentative unresolved bad)
      ResolverInv := by
  rw [removePoolSources]
  refine (cleanRecords_resolver env h _ bad).bind fun acc hacc => ?_
  dsimp only
  split
  · exact rehashRecords_resolver env hacc
  · exact hacc

/-! ### Answers of the resolver -/

/-- **The assertion of `process_resolved_name`** holds for every source in the list. -/
theorem processResolvedName_answering (env : Env) {s : State} {us : UnresolvedSource}
    (h : Answering us s) (addrs : List ResolvedAddr) (first : BitVec 16) :
    Returns Abort.OfTable (processResolvedName env s us addrs first) (Answering us) := by
  rw [processResolvedName]
  split
  · next hrefresh =>
      obtain ⟨id, hid⟩ := Option.ne_none_iff_exists'.mp hrefresh.2
      have hnot := (h.pools us h.member id hid).2
      rw [hrefresh.1] at hnot
      cases hnot
  · split
    · exact h
    · exact replaceLoop_stable (Answering.stable env us) us _ h

/-- The end of a turn: a request for another source of the list, or a timeout if the list is
not empty. -/
theorem continueResolving_resolver {s : State} (h : ResolverIdle s)
    {next : Option UnresolvedSource} (hnext : ∀ us, next = some us → us ∈ s.unresolvedSources) :
    ResolverInv (continueResolving s next) := by
  cases next with
  | some us => exact startRequest_resolver h (hnext us rfl)
  | none =>
      rw [continueResolving]
      dsimp only
      have hlist : UnresolvedList s := h.toUnresolvedList
      split
      · refine ⟨⟨hlist.numbers, hlist.allocated, hlist.pools⟩, h.requests, ?_, ?_, fun _ => rfl⟩
        · exact fun us hus => by cases hus
        · change s.resolvingTimeouts + 1 = 1
          rw [h.timeout]
      · refine ResolverIdle.inv ⟨⟨hlist.numbers, hlist.allocated, hlist.pools⟩, h.requests,
          h.resolvingId, h.timeout⟩ rfl

/-- **The assertions of `name_resolve_handler`** hold for the answer to the request for the
source that is being resolved, and the next request is for a source that is still in the
list. -/
theorem nameResolveHandler_resolver (env : Env) {s : State} {us : UnresolvedSource}
    (h : Answering us s) (result : DnsResult) (first : BitVec 16) :
    Returns Abort.OfTable (nameResolveHandler env s us result first) ResolverInv := by
  have hend : ∀ (s : State) (failed : Bool), ResolverIdle s →
      Returns Abort.OfTable
        (let next := nextUnresolved s us
         let s :=
          if failed ∨ us.address.ipAddr.isReal ∨ us.refreshment ∨ isResolved env s us then
            removeUnresolvedSource s us
          else s
         if next = none ∧ s.resolvingRestart then
          .ok (continueResolving { s with resolvingRestart := false } s.unresolvedSources.head?)
         else .ok (continueResolving s next)) ResolverInv := by
    intro s failed hs
    dsimp only
    have hremove : ResolverIdle
        (if failed ∨ us.address.ipAddr.isReal ∨ us.refreshment ∨ isResolved env s us then
          removeUnresolvedSource s us else s) := by
      split
      · exact ⟨hs.toUnresolvedList.filter _, hs.requests, hs.resolvingId, hs.timeout⟩
      · exact hs
    have hkept : ∀ next, nextUnresolved s us = some next → next ∈
        (if failed ∨ us.address.ipAddr.isReal ∨ us.refreshment ∨ isResolved env s us then
          removeUnresolvedSource s us else s).unresolvedSources := by
      intro next hnext
      obtain ⟨hmem, hne⟩ := hs.toUnresolvedList.next hnext
      split
      · exact List.mem_filter.mpr ⟨hmem, by simpa using hne⟩
      · exact hmem
    generalize (if failed ∨ us.address.ipAddr.isReal ∨ us.refreshment ∨ isResolved env s us then
      removeUnresolvedSource s us else s) = s₁ at hremove hkept ⊢
    split
    · have hrestart : SameResolver s₁ { s₁ with resolvingRestart := false } :=
        ⟨rfl, rfl, rfl, rfl, rfl, rfl, le_rfl⟩
      exact continueResolving_resolver (hrestart.idle hremove) fun v hv => List.mem_of_head? hv
    · exact continueResolving_resolver hremove hkept
  rw [nameResolveHandler, if_neg (by simp [h.resolving]), if_neg (by simp [h.resolvingId])]
  cases result with
  | success addrs =>
      exact (processResolvedName_answering env h addrs first).bind
        fun s' hs' => hend s' false hs'.toResolverIdle
  | tryAgain => exact hend s false h.toResolverIdle
  | failure => exact hend s true h.toResolverIdle

/-! ### Additions, refreshments and responses -/

theorem addSourceByName_resolver (env : Env) {s : State} (h : ResolverInv s) (name : String)
    (family : Family) (port : BitVec 16) (pool : Bool) (params : ℤ)
    (updates : ℕ → List AddressUpdate) :
    Returns Abort.OfTable (addSourceByName env s name family port pool params updates)
      fun res => ResolverInv res.2 := by
  have hconf : ∀ s : State, SameResolver s (getNextConfId s).2 :=
    fun s => ⟨rfl, rfl, rfl, rfl, rfl, rfl, le_rfl⟩
  rw [addSourceByName]
  cases env.stringToIP name with
  | some ip =>
      dsimp only
      split
      · exact h
      · exact (addSource_sameResolver env _ _ _ _ _ _ _).mono
          fun _ hs => ((hconf s).trans hs).inv h
  | none =>
      dsimp only
      split
      · exact h
      · have hid : SameResolver s { s with lastAddressId := s.lastAddressId + 1 } :=
          ⟨rfl, rfl, rfl, rfl, rfl, rfl, le_rfl⟩
        have h₁ := hid.inv h
        generalize ({ s with lastAddressId := s.lastAddressId + 1 } : State) = s₁ at h₁ ⊢
        split
        · refine (addSources_sameResolver name family port none _ updates 1 0 _).mono
            fun _ hs => ((hconf _).trans hs).inv ?_
          exact appendUnresolvedSource_resolver h₁ fun id hid => by cases hid
        · have hpool := addPool_sameResolver s₁ params
          have hlt : (addPool s₁ params).1 < (addPool s₁ params).2.pools.length :=
            addPool_lt s₁ params
          generalize addPool s₁ params = res at hpool hlt ⊢
          refine (addSources_sameResolver name family port (some res.1) _ updates _ 0 _).mono
            fun _ hs => ((hconf _).trans hs).inv ?_
          refine appendUnresolvedSource_resolver (hpool.inv h₁) fun id hid => ?_
          obtain rfl := Option.some.inj hid
          exact ⟨hlt, rfl⟩

theorem maybeRefreshSource_resolver (env : Env) {s : State} (h : ResolverInv s) :
    Returns Abort.OfTable (maybeRefreshSource env s) ResolverInv := by
  have htime : ∀ t, ResolverInv { s with lastRefreshment := t } := by
    intro t
    have hsame : SameResolver s { s with lastRefreshment := t } :=
      ⟨rfl, rfl, rfl, rfl, rfl, rfl, le_rfl⟩
    exact hsame.inv h
  rw [maybeRefreshSource]
  dsimp only
  split
  · exact h
  · split
    · exact htime _
    · next slot r _ =>
        split
        · exact htime _
        · obtain ⟨s', hs', h'⟩ := resolveSourceReplacement_resolver env
            (htime s.lastEventMonoTime) slot r true
          exact Returns.of_ok hs' h'

theorem refreshAddresses_resolver (env : Env) {s : State} (h : ResolverInv s) :
    Returns Abort.OfTable (refreshAddresses env s) ResolverInv := by
  refine Returns.foldlM (fun s' i hs' => ?_) _ h
  split
  · exact hs'
  · next r _ =>
      obtain ⟨s'', hs'', h''⟩ := resolveSourceReplacement_resolver env hs' i r true
      exact Returns.of_ok hs'' h''

theorem confirmSource_resolver (env : Env) {s : State} (h : ResolverInv s) (slot : ℕ)
    (bad : ℕ → List BadSource) :
    Returns Abort.OfTable (confirmSource env s slot bad) ResolverInv := by
  rw [confirmSource]
  split
  · exact .inr (.inr rfl)
  · next r _ =>
      have hsame : SameResolver s
          { s with records := s.records.set slot (some r.confirm) } :=
        ⟨rfl, rfl, rfl, rfl, rfl, rfl, le_rfl⟩
      have hset := hsame.inv h
      split
      · dsimp only
        split
        · exact hset
        · next id _ =>
            have hpool := (modifyPool_sameResolver _ (some id) SourcePool.confirm).inv hset
            split
            · exact removePoolSources_resolver env hpool id true false bad
            · exact hpool
      · exact h

theorem processRx_resolver (env : Env) {s : State} (h : ResolverInv s)
    (remoteAddr : RemoteAddress) (rx : Rx) :
    Returns Abort.OfTable (processRx env s remoteAddr rx) ResolverInv := by
  rw [processRx]
  split
  · refine ((ResolverInv.stable env rx.bad).handleBadSources h).bind fun s₁ hs₁ => ?_
    split
    · exact hs₁
    · refine (confirmSource_resolver env hs₁ _ rx.badRemoved).bind fun s₂ hs₂ => ?_
      exact maybeRefreshSource_resolver env hs₂
  · exact h

/-! ### Runs -/

/-- **Every event keeps the invariant of the resolver**, and fails only in the table. -/
theorem step_resolver (env : Env) {s : State} (h : ResolverInv s) (e : Event) :
    Returns Abort.OfTable (step env s e) ResolverInv := by
  cases e with
  | addSource remoteAddr updates =>
      refine (addSource_sameResolver env (getNextConfId s).2 remoteAddr none .unspec none _
        updates).bind fun res hres => ?_
      have hconf : SameResolver s (getNextConfId s).2 := ⟨rfl, rfl, rfl, rfl, rfl, rfl, le_rfl⟩
      exact (hconf.trans hres).inv h
  | addSourceByName name family port pool params updates =>
      exact (addSourceByName_resolver env h name family port pool params updates).bind
        fun _ hres => hres
  | resolveSources =>
      obtain ⟨s', hs', h', -⟩ := resolveSources_resolver env h
      exact Returns.of_ok hs' h'
  | resolveSourcesTimeout =>
      rw [step]
      split
      · exact h
      · next hpending =>
          have htimeout := h.timeout
          have hid : s.resolvingId = true := by
            by_contra hid
            rw [if_neg hid] at htimeout
            exact hpending htimeout
          have hnone := h.scheduled hid
          rw [if_pos hid] at htimeout
          have hidle : ResolverIdle { s with
              resolvingId := false, resolvingTimeouts := s.resolvingTimeouts - 1 } :=
            ⟨⟨h.numbers, h.allocated, h.pools⟩, by rw [h.requests, hnone]; rfl, rfl,
              by simp [htimeout]⟩
          obtain ⟨s', hs', h', -⟩ := resolveSources'_resolver env hidle hnone
          exact Returns.of_ok hs' h'
  | nameResolved result first =>
      rw [step]
      split
      · exact h
      · next us requests hrequests =>
          obtain ⟨hresolving, rfl⟩ : s.resolvingSource = some us ∧ requests = [] := by
            have hsource := h.requests
            rw [hrequests] at hsource
            cases hv : s.resolvingSource <;> simp_all
          have hid : s.resolvingId = false := by
            by_contra hid
            have hnone := h.scheduled (by simpa using hid)
            rw [hresolving] at hnone
            cases hnone
          have hidle : ResolverIdle { s with requests := [] } :=
            ⟨⟨h.numbers, h.allocated, h.pools⟩, rfl, hid, by rw [h.timeout, hid]; rfl⟩
          exact nameResolveHandler_resolver env ⟨hidle, hresolving, h.member us hresolving⟩
            result first
  | removeSource address bad =>
      exact (removeSource_resolver env h address bad).bind fun _ hres => hres
  | removeSourcesById confId bad =>
      exact (cleanRecords_resolver env h _ bad).bind fun _ hacc => rehashRecords_resolver env hacc
  | removeAllSources bad =>
      exact (cleanRecords_resolver env h _ bad).bind fun _ hacc => rehashRecords_resolver env hacc
  | handleBadSource bad =>
      exact (ResolverInv.stable env [bad]).handle bad (List.mem_singleton_self bad) s h
  | refreshAddresses => exact refreshAddresses_resolver env h
  | updateSourceNtpAddress update bad =>
      exact ((ResolverInv.stable env bad).updateSourceNtpAddress h update).bind fun _ hres => hres
  | processRx remoteAddr rx => exact processRx_resolver env h remoteAddr rx
  | setTime now =>
      have hsame : SameResolver s { s with lastEventMonoTime := now } :=
        ⟨rfl, rfl, rfl, rfl, rfl, rfl, le_rfl⟩
      exact hsame.inv h

theorem run_resolverInv (env : Env) (events : List Event) :
    Returns Abort.OfTable (run env events) ResolverInv := by
  have hinit : Returns Abort.OfTable (initialise env) ResolverInv := by
    refine rehashRecords_resolver env ?_
    refine ⟨⟨List.nodup_nil, ?_, ?_⟩, rfl, ?_, rfl, fun _ => rfl⟩
    · exact fun us hus => by cases hus
    · exact fun us hus => by cases hus
    · exact fun us hus => by cases hus
  exact hinit.bind fun _ hs => Returns.foldlM (fun _ e h => step_resolver env h e) events hs

/-- **The asynchronous resolving of names.** No assertion fails in any run. After it, no
source is being resolved and there is no request, or the source that is being resolved is
in the list, with the one request that there is; so no source with a request was freed. If
the ID of the timeout is set, the timeout is live and no source is being resolved. A next
call of `NSR_ResolveSources` also succeeds, and if there are unresolved sources then, there
is a request or a timeout. -/
theorem run_resolver (env : Env) (events : List Event) :
    ∃ s, run env events = .ok s ∧
      (s.resolvingSource = none ∧ s.requests = [] ∨
        ∃ us ∈ s.unresolvedSources, s.resolvingSource = some us ∧ s.requests = [us]) ∧
      (s.unresolvedSources.map UnresolvedSource.number).Nodup ∧
      (s.resolvingId = true → s.resolvingSource = none ∧ s.resolvingTimeouts = 1) ∧
      (s.resolvingId = false → s.resolvingTimeouts = 0) ∧
      ∃ s', resolveSources env s = .ok s' ∧
        (s'.unresolvedSources ≠ [] → s'.requests ≠ [] ∨ s'.resolvingTimeouts ≠ 0) := by
  obtain ⟨s, hrun, -, h⟩ := exists_ok_of_returns (run_inv env events) (run_resolverInv env events)
  obtain ⟨s', hresolve, -, hleft⟩ := resolveSources_resolver env h
  refine ⟨s, hrun, ?_, h.numbers, fun hid => ⟨h.scheduled hid, ?_⟩, fun hid => ?_,
    s', hresolve, fun hne => .inl (hleft hne)⟩
  · have hrequests := h.requests
    cases hus : s.resolvingSource with
    | none => exact .inl ⟨rfl, by rw [hrequests, hus]; rfl⟩
    | some us => exact .inr ⟨us, h.member us hus, rfl, by rw [hrequests, hus]; rfl⟩
  · rw [h.timeout, if_pos hid]
  · rw [h.timeout, hid]
    rfl

/-- A source of a pool that is selected gets another address. The selection that follows finds
a bad source, which is resolved next. -/
example : (run exampleEnv
    [.addSource ⟨.inet4 5, 123⟩ [],
      .addSourceByName "pool" .unspec 123 true 1 (fun _ => []),
      .resolveSources,
      .nameResolved (.success [{ exampleAddr 1 with bad := [⟨.inet4 5, 0⟩] }]) 0]).toOption.map
    (fun s => (s.unresolvedSources.map (·.address.ipAddr), s.requests.map (·.address.ipAddr))) =
    some ([.unspec, .inet4 5], [.inet4 5]) := by
  decide +kernel

end Chrony.NtpSources
