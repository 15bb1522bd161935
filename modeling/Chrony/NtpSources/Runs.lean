import Chrony.NtpSources.Invariant

/-!
# Runs of the Operations on the NTP Sources

The invariant of the table and of the pools holds after every event.

## Main results

* `step_inv`: every event keeps the invariant, and fails only in the resolver.
* `run_hash_table`: the hash table is in order after every run.
* `run_pools`: the counters of the pools are right after every run.
-/

namespace Chrony.NtpSources

open Chrony.Lib Chrony.Lib.OpenAddressing

variable {env : Env}

/-! ### Removals -/

/-- What holds between a removal and the next rehash. The pool `except` may still have
tentative sources that are about to be removed. -/
def Removing (except : Option ℕ) (s : State) : Prop :=
  Loose s ∧ Settled except (stored s) s.pools

theorem Refreshed.removing {s s' : State} {except : Option ℕ} (h : Refreshed s s')
    (hs : Removing except s) : Removing except s' :=
  ⟨h.loose hs.1, h.settled hs.2⟩

/-- The slots after a removal: the slot of the record is empty. -/
def Cleaned (slot : ℕ) (s s' : State) : Prop :=
  s'.records.length = s.records.length ∧ ∀ i, (entry s'.records i).map SourceRecord.core =
    if i = slot then none else (entry s.records i).map SourceRecord.core

theorem cleanSourceRecord_spec {s : State} {except : Option ℕ} (h : Removing except s)
    {slot : ℕ} {r : SourceRecord} (hr : entry s.records slot = some r) (bad : List BadSource) :
    Returns Abort.OfResolver (cleanSourceRecord env s slot bad)
      fun s' => Removing except s' ∧ Cleaned slot s s' := by
  have hlt := (List.getElem?_eq_some_iff.mp (entry_eq_some.mp hr)).1
  have hperm := reduceOption_perm_cons hr
  set s₁ : State := { s.modifyPool r.poolId (SourcePool.remove r) with
    records := (s.modifyPool r.poolId (SourcePool.remove r)).records.set slot none } with hs₁
  have hs₁' : s₁ = { s with
      records := s.records.set slot none
      pools := modifyPools s.pools r.poolId (SourcePool.remove r) } := by
    rw [hs₁, modifyPool_eq]
  have hremoved : Removing except { s₁ with nSources := s₁.nSources - 1 } := by
    rw [hs₁']
    refine ⟨?_, settled_remove (h.1.counted.perm hperm) (h.2.perm hperm)⟩
    exact
      { keys := (keys_cons_iff.mp (h.1.keys.perm hperm)).2.2
        count := by
          have hcount := h.1.count
          rw [stored, hperm.length_eq, List.length_cons] at hcount
          change (((s.records.set slot none).reduceOption.length : ℕ) : ℤ) = s.nSources - 1
          push_cast at hcount
          omega
        max := by
          have hmax := h.1.max
          change s.nSources - 1 ≤ _
          omega
        unlocked := h.1.unlocked
        saved := h.1.saved
        counted := poolsCounted_remove (h.1.counted.perm hperm) }
  simp only [cleanSourceRecord, hr]
  refine (handleBadSources_spec env s₁ bad).bind fun s₂ hs₂ => ?_
  have href : Refreshed { s₁ with nSources := s₁.nSources - 1 }
      { s₂ with nSources := s₂.nSources - 1 } :=
    ⟨hs₂.records, by simp [hs₂.nSources], hs₂.recordLock, hs₂.pools, hs₂.saved⟩
  refine ⟨href.removing hremoved, ?_, fun i => ?_⟩
  · rw [href.length, hs₁']
    exact List.length_set
  · rw [href.entry, hs₁']
    change (entry (s.records.set slot none) i).map _ = _
    rw [entry_set _ hlt]
    split <;> rfl

/-- The loops that remove records leave none of those to be removed, and change nothing if
there are none. -/
theorem cleanRecords_spec {s : State} {except : Option ℕ} (h : Removing except s)
    {p : SourceRecord → Bool} (hp : ∀ r, p r.core = p r) (bad : ℕ → List BadSource) :
    Returns Abort.OfResolver (cleanRecords env s p bad) fun acc =>
      Removing except acc.1 ∧ (∀ r ∈ stored acc.1, p r = false) ∧ (acc.2 = 0 → acc.1 = s) := by
  set P : ℕ → State × ℕ → Prop := fun i acc =>
    Removing except acc.1 ∧ acc.1.records.length = s.records.length ∧
      (∀ slot < i, ∀ r, entry acc.1.records slot = some r → p r = false) ∧
      (acc.2 = 0 → acc.1 = s) with hP
  have hstep : ∀ i < s.records.length, ∀ acc, P i acc →
      Returns Abort.OfResolver (cleanIf env p bad acc i) (P (i + 1)) := by
    rintro i hi acc ⟨hrem, hlen, hdone, hsame⟩
    rw [cleanIf]
    cases hr : entry acc.1.records i with
    | none =>
        refine ⟨hrem, hlen, fun slot hslot r hr' => ?_, hsame⟩
        rcases Nat.lt_succ_iff_lt_or_eq.mp hslot with hlt | rfl
        · exact hdone slot hlt r hr'
        · rw [hr] at hr'
          cases hr'
    | some r =>
        by_cases hpr : p r = true
        · simp only [if_pos hpr]
          refine (cleanSourceRecord_spec hrem hr (bad i)).bind fun s' hs' => ?_
          obtain ⟨hrem', hlen', hentry⟩ := hs'
          refine ⟨hrem', hlen'.trans hlen, fun slot hslot r' hr' => ?_, fun h0 => by cases h0⟩
          have hslot' := hentry slot
          rw [hr'] at hslot'
          by_cases hne : slot = i
          · rw [if_pos hne] at hslot'
            cases hslot'
          · rw [if_neg hne] at hslot'
            obtain ⟨r'', hr'', hcore⟩ := Option.map_eq_some_iff.mp hslot'.symm
            rw [← hp, ← hcore, hp]
            exact hdone slot (by omega) r'' hr''
        · simp only [if_neg hpr]
          refine ⟨hrem, hlen, fun slot hslot r' hr' => ?_, hsame⟩
          rcases Nat.lt_succ_iff_lt_or_eq.mp hslot with hlt | rfl
          · exact hdone slot hlt r' hr'
          · rw [hr] at hr'
            cases hr'
            simpa using hpr
  have hloop : Returns Abort.OfResolver (cleanRecords env s p bad) (P s.records.length) :=
    Returns.foldlM_range hstep
      ⟨h, rfl, fun slot hslot => absurd hslot (Nat.not_lt_zero slot), fun _ => rfl⟩
  refine hloop.mono fun acc hacc => ⟨hacc.1, fun r hr => ?_, hacc.2.2.2⟩
  obtain ⟨slot, hslot⟩ := mem_reduceOption_iff_entry.mp hr
  refine hacc.2.2.1 slot ?_ r hslot
  rw [← hacc.2.1]
  exact (List.getElem?_eq_some_iff.mp (entry_eq_some.mp hslot)).1

theorem rehashRecords_of_removing {s : State} (h : Removing none s) :
    Returns Abort.OfResolver (rehashRecords env s) (Inv env) := by
  obtain ⟨s', hrehash, hinv, -⟩ := rehashRecords_inv env h.1 h.2
  exact Returns.of_ok hrehash hinv

theorem removeSource_spec {s : State} (h : Inv env s) (address : IPAddr)
    (bad : List BadSource) :
    Returns Abort.OfResolver (removeSource env s address bad) fun res => Inv env res.2 := by
  rw [removeSource]
  rcases hfind : findSlot env s address with ⟨found, slot⟩
  cases found with
  | false => exact h
  | true =>
      obtain ⟨r, hr, -⟩ := findSlot_true hfind
      refine (cleanSourceRecord_spec ⟨h.toLoose, h.settled⟩ hr bad).bind fun s₁ hs₁ => ?_
      exact (rehashRecords_of_removing hs₁.1).bind fun s₂ hs₂ => hs₂

theorem cleanRecords_rehash {s : State} (h : Inv env s) {p : SourceRecord → Bool}
    (hp : ∀ r, p r.core = p r) (bad : ℕ → List BadSource) :
    Returns Abort.OfResolver (cleanRecords env s p bad >>= fun acc => rehashRecords env acc.1)
      (Inv env) :=
  (cleanRecords_spec ⟨h.toLoose, h.settled⟩ hp bad).bind fun _ hacc =>
    rehashRecords_of_removing hacc.1

/-- When the tentative sources of the last pool that has too many of them are removed,
all pools are settled. -/
theorem removePoolSources_spec {s : State} {id : ℕ} (h : Removing (some id) s)
    (hhashed : Hashed env s.records s.nSources) (bad : ℕ → List BadSource) :
    Returns Abort.OfResolver (removePoolSources env s id true false bad) (Inv env) := by
  rw [removePoolSources]
  refine (cleanRecords_spec h (fun r => rfl) bad).bind fun ⟨s', removed⟩ hacc => ?_
  obtain ⟨⟨hloose, hsettled⟩, hnone, hsame⟩ := hacc
  have hsettled' : Settled none (stored s') s'.pools := by
    intro id' p hp _ hmax r hr hid
    by_cases heq : id' = id
    · subst heq
      have hkept := hnone r hr
      simpa [hid] using hkept
    · exact hsettled id' p hp (by simpa using heq) hmax r hr hid
  dsimp only
  split
  · exact rehashRecords_of_removing ⟨hloose, hsettled'⟩
  · next hzero =>
      obtain rfl : s' = s := hsame (by simpa using hzero)
      exact ⟨hloose, hhashed, hsettled'⟩

/-! ### Resolved names -/

theorem replaceSourceConnectable_spec {s : State} (h : Inv env s) (old : RemoteAddress)
    (port : BitVec 16) (new : ResolvedAddr) :
    Returns Abort.OfResolver (replaceSourceConnectable env s old port new)
      fun res => Inv env res.2 := by
  rw [replaceSourceConnectable]
  split
  · exact h
  · refine ((changeSourceAddress_spec h old (show (⟨new.ip, port⟩ : RemoteAddress).ipAddr.isReal =
      true from new.isReal) true new.updates new.bad).weaken fun e he => he.2).bind
        fun res hres => ?_
    dsimp only
    split
    · exact hres.1
    · refine ((handleSavedAddressUpdate_spec hres.1 new.badSaved).weaken fun e he => he.2).bind
        fun s₂ hs₂ => ?_
      exact hs₂.1

theorem replaceLoop_spec {s : State} (h : Inv env s) (us : UnresolvedSource)
    (addrs : List ResolvedAddr) :
    Returns Abort.OfResolver (replaceLoop env us addrs s) (Inv env) := by
  induction addrs generalizing s with
  | nil => exact h
  | cons new addrs ih =>
      rw [replaceLoop]
      split
      · exact ih h
      · split
        · split
          · exact ih h
          · exact (replaceSourceConnectable_spec h _ _ new).bind fun _ hres => ih hres
        · refine (replaceSourceConnectable_spec h _ _ new).bind fun _ hres => ?_
          dsimp only
          split
          · exact hres
          · exact ih hres

theorem processResolvedName_spec {s : State} (h : Inv env s) (us : UnresolvedSource)
    (addrs : List ResolvedAddr) (first : BitVec 16) :
    Returns Abort.OfResolver (processResolvedName env s us addrs first) (Inv env) := by
  rw [processResolvedName]
  split
  · exact ⟨by simp, by simp, by simp⟩
  · split
    · exact h
    · exact replaceLoop_spec h us _

/-- The end of the resolving does not change records. -/
theorem continueResolving_refreshed (s : State) (next : Option UnresolvedSource) :
    Refreshed s (continueResolving s next) := by
  cases next with
  | some us => exact ⟨rfl, rfl, rfl, rfl, rfl⟩
  | none =>
      rw [continueResolving]
      dsimp only
      split <;> exact ⟨rfl, rfl, rfl, rfl, rfl⟩

theorem nameResolveHandler_spec {s : State} (h : Inv env s) (us : UnresolvedSource)
    (result : DnsResult) (first : BitVec 16) :
    Returns Abort.OfResolver (nameResolveHandler env s us result first) (Inv env) := by
  have hend : ∀ (s : State) (failed : Bool), Inv env s →
      Returns Abort.OfResolver
        (let next := nextUnresolved s us
         let s :=
          if failed ∨ us.address.ipAddr.isReal ∨ us.refreshment ∨ isResolved env s us then
            removeUnresolvedSource s us
          else s
         if next = none ∧ s.resolvingRestart then
          .ok (continueResolving { s with resolvingRestart := false } s.unresolvedSources.head?)
         else .ok (continueResolving s next)) (Inv env) := by
    intro s failed hs
    dsimp only
    have hremove : Refreshed s
        (if failed ∨ us.address.ipAddr.isReal ∨ us.refreshment ∨ isResolved env s us then
          removeUnresolvedSource s us else s) := by
      split <;> exact ⟨rfl, rfl, rfl, rfl, rfl⟩
    generalize (if failed ∨ us.address.ipAddr.isReal ∨ us.refreshment ∨ isResolved env s us then
      removeUnresolvedSource s us else s) = s₁ at hremove ⊢
    split
    · have hrestart : Refreshed s₁ { s₁ with resolvingRestart := false } :=
        ⟨rfl, rfl, rfl, rfl, rfl⟩
      exact ((hremove.trans hrestart).trans (continueResolving_refreshed _ _)).inv hs
    · exact (hremove.trans (continueResolving_refreshed _ _)).inv hs
  rw [nameResolveHandler]
  split
  · exact ⟨by simp, by simp, by simp⟩
  · split
    · exact ⟨by simp, by simp, by simp⟩
    · cases result with
      | success addrs =>
          exact (processResolvedName_spec h us addrs first).bind fun s' hs' => hend s' false hs'
      | tryAgain => exact hend s false h
      | failure => exact hend s true h

/-! ### Additions by name -/

theorem getNextConfId_refreshed (s : State) : Refreshed s (getNextConfId s).2 :=
  ⟨rfl, rfl, rfl, rfl, rfl⟩

theorem addSources_spec (name : String) (family : Family) (port : BitVec 16) (poolId : Option ℕ)
    (confId : BitVec 32) (updates : ℕ → List AddressUpdate) (n i : ℕ) {s : State}
    (h : Inv env s) (hpool : ∀ id, poolId = some id → Unfilled id s.pools) :
    ∃ res, addSources env name family port poolId confId updates n i s = .ok res ∧
      Inv env res.2 := by
  induction n generalizing i s with
  | zero => exact ⟨_, rfl, h⟩
  | succ n ih =>
      rw [addSources]
      have hid : Refreshed s
          (if i > 0 then { s with lastAddressId := s.lastAddressId + 1 } else s) := by
        split <;> exact ⟨rfl, rfl, rfl, rfl, rfl⟩
      generalize (if i > 0 then { s with lastAddressId := s.lastAddressId + 1 } else s) = s₁
        at hid ⊢
      obtain ⟨status, s₂, hadd, hinv, hunf⟩ := addSource_spec (hid.inv h)
        ⟨.id s₁.lastAddressId, port⟩ (some name) family poolId
        (fun id heq => by rw [hid.pools]; exact hpool id heq) confId (updates i)
      simp only [hadd, bind, Except.bind]
      split
      · exact ⟨_, rfl, hinv⟩
      · exact ih (i + 1) hinv fun id heq => hunf id (by rw [hid.pools]; exact hpool id heq)

/-- A new pool has no records, and can get confirmed sources. -/
theorem addPool_spec {s : State} (h : Inv env s) (params : ℤ) :
    Inv env (addPool s params).2 ∧ Unfilled (addPool s params).1 (addPool s params).2.pools := by
  set pool : SourcePool :=
    { sources := 0
      unresolvedSources := 0
      confirmedSources := 0
      maxSources := max 1 (min params maxPoolSources) } with hpool
  have hlimit : (0 : ℤ) < max 1 (min params maxPoolSources) := by omega
  -- it is enough that no record is of the pool, and that the other pools are kept
  have hnew : ∀ (id : ℕ) (pools : List SourcePool), pools[id]? = some pool →
      s.pools.length ≤ pools.length →
      (∀ id' p, id' ≠ id → pools[id']? = some p → s.pools[id']? = some p) →
      (∀ r ∈ stored s, r.poolId ≠ some id) →
      Inv env { s with pools := pools } ∧ Unfilled id pools := by
    intro id pools hid hlen hother hnone
    have hzero : Counted (stored s) id pool := by
      have hin : ∀ r ∈ stored s, ¬ inPool id r = true := fun r hr => by simp [inPool, hnone r hr]
      refine ⟨?_, ?_, ?_, hlimit.le⟩
      · rw [List.countP_eq_zero.mpr hin]
        rfl
      · rw [List.countP_eq_zero.mpr fun r hr h => hin r hr (by simp_all [unresolvedIn])]
        rfl
      · rw [List.countP_eq_zero.mpr fun r hr h => hin r hr (by simp_all [confirmedIn])]
        rfl
    refine ⟨{ h with counted := ⟨fun id' p hp => ?_, fun r hr id' hid' => ?_⟩, settled := ?_ },
      pool, hid, hlimit⟩
    · by_cases heq : id' = id
      · subst heq
        obtain rfl : pool = p := Option.some.inj (hid.symm.trans hp)
        exact hzero
      · exact h.counted.counted id' p (hother id' p heq hp)
    · exact lt_of_lt_of_le (h.counted.known r hr id' hid') hlen
    · intro id' p hp hne hmax r hr hid'
      by_cases heq : id' = id
      · subst heq
        exact absurd hid' (hnone r hr)
      · exact h.settled id' p (hother id' p heq hp) hne hmax r hr hid'
  rw [addPool]
  split
  · next id hunused =>
      have hfound := List.find?_some hunused
      simp only [Bool.decide_and, Bool.and_eq_true, decide_eq_true_eq] at hfound
      obtain ⟨p, hp, hle⟩ : ∃ p, s.pools[id]? = some p ∧ p.sources ≤ 0 := by
        cases hp : s.pools[id]? with
        | none => simp [hp] at hfound
        | some p => exact ⟨p, rfl, by simpa [hp] using hfound.1⟩
      have hlt := (List.getElem?_eq_some_iff.mp hp).1
      refine hnew id _ (by simp [hlt, hpool]) (by simp) (fun id' p' hne hp' => ?_)
        fun r hr hid => ?_
      · rwa [List.getElem?_set_ne (Ne.symm hne)] at hp'
      · have hcount := (h.counted.counted id p hp).sources
        have hpos : 0 < (stored s).countP (inPool id) :=
          List.countP_pos_iff.mpr ⟨r, hr, by simp [inPool, hid]⟩
        omega
  · refine hnew s.pools.length _ (by simp [hpool]) (by simp) (fun id' p' hne hp' => ?_)
      fun r hr hid => ?_
    · rw [List.getElem?_append] at hp'
      split at hp'
      · exact hp'
      · have hidx : id' - s.pools.length ≠ 0 := by omega
        simp [hidx] at hp'
    · have := h.counted.known r hr _ hid
      omega

theorem addSourceByName_spec {s : State} (h : Inv env s) (name : String) (family : Family)
    (port : BitVec 16) (pool : Bool) (params : ℤ) (updates : ℕ → List AddressUpdate) :
    Returns Abort.OfResolver (addSourceByName env s name family port pool params updates)
      fun res => Inv env res.2 := by
  rw [addSourceByName]
  cases env.stringToIP name with
  | some ip =>
      dsimp only
      split
      · exact h
      · obtain ⟨status, s', hadd, hinv, -⟩ := addSource_spec ((getNextConfId_refreshed s).inv h)
          ⟨ip, port⟩ (some name) .unspec none (fun id hid => by cases hid) (getNextConfId s).1
          (updates 0)
        exact Returns.of_ok hadd hinv
  | none =>
      dsimp only
      split
      · exact h
      · have hid : Refreshed s { s with lastAddressId := s.lastAddressId + 1 } :=
          ⟨rfl, rfl, rfl, rfl, rfl⟩
        set s₁ : State := { s with lastAddressId := s.lastAddressId + 1 } with hs₁
        have h₁ := hid.inv h
        split
        · have happend : Refreshed s₁ (appendUnresolvedSource s₁
              (unresolvedName ⟨.id s₁.lastAddressId, port⟩ none name family)) :=
            ⟨rfl, rfl, rfl, rfl, rfl⟩
          obtain ⟨res, hadd, hinv⟩ := addSources_spec name family port none
            (getNextConfId (appendUnresolvedSource s₁
              (unresolvedName ⟨.id s₁.lastAddressId, port⟩ none name family))).1 updates 1 0
            ((happend.trans (getNextConfId_refreshed _)).inv h₁) (fun id hid => by cases hid)
          exact Returns.of_ok hadd hinv
        · obtain ⟨h₂, hunf⟩ := addPool_spec h₁ params
          generalize addPool s₁ params = res₂ at h₂ hunf ⊢
          obtain ⟨id, s₂⟩ := res₂
          have happend : Refreshed s₂ (appendUnresolvedSource s₂
              (unresolvedName ⟨.unspec, 0⟩ (some id) name family)) :=
            ⟨rfl, rfl, rfl, rfl, rfl⟩
          obtain ⟨res, hadd, hinv⟩ := addSources_spec name family port (some id)
            (getNextConfId (appendUnresolvedSource s₂
              (unresolvedName ⟨.unspec, 0⟩ (some id) name family))).1 updates
            (min (2 * max 1 (min params maxPoolSources)) maxPoolSources).toNat 0
            ((happend.trans (getNextConfId_refreshed _)).inv h₂)
            (fun id' hid' => by
              obtain rfl := Option.some.inj hid'
              exact hunf)
          exact Returns.of_ok hadd hinv

/-! ### Refreshments and responses -/

/-- The oldest record is in its slot. -/
theorem entry_of_oldestRecord {s : State} {slot : ℕ} {r : SourceRecord}
    (h : oldestRecord env s = some (slot, r)) : entry s.records slot = some r := by
  rw [oldestRecord] at h
  refine List.foldlRecOn (motive := fun oldest => ∀ i r, oldest = some (i, r) →
    entry s.records i = some r) _ _ (fun i r hi => by cases hi) ?_ slot r h
  intro oldest hold j _ i r hi
  split at hi
  · exact hold i r hi
  next r' hr' =>
      split at hi
      · exact hold i r hi
      · split at hi
        · cases hi
          exact hr'
        · split at hi
          · cases hi
            exact hr'
          · exact hold i r hi

theorem maybeRefreshSource_spec (env : Env) (s : State) :
    Returns Abort.OfResolver (maybeRefreshSource env s) (Refreshed s) := by
  have htime : ∀ t, Refreshed s { s with lastRefreshment := t } :=
    fun t => ⟨rfl, rfl, rfl, rfl, rfl⟩
  rw [maybeRefreshSource]
  dsimp only
  split
  · exact Refreshed.refl s
  · split
    · exact htime _
    · next slot r hold =>
        split
        · exact htime _
        · exact (resolveSourceReplacement_spec env
            { s with lastRefreshment := s.lastEventMonoTime } (entry_of_oldestRecord hold)
            true).mono fun s' hs' => (htime _).trans hs'.toRefreshed

theorem refreshAddresses_spec (env : Env) (s : State) :
    Returns Abort.OfResolver (refreshAddresses env s) (Refreshed s) := by
  refine Returns.foldlM (fun s' i hs' => ?_) _ (Refreshed.refl s)
  split
  · exact hs'
  · next r hr =>
      exact (resolveSourceReplacement_spec env s' hr true).mono
        fun _ h => hs'.trans h.toRefreshed

/-- A confirmation keeps the invariant, with the removal of the tentative sources when
the pool has enough confirmed ones. -/
theorem confirmSource_spec {s : State} (h : Inv env s) {slot : ℕ} {r : SourceRecord}
    (hr : entry s.records slot = some r) (bad : ℕ → List BadSource) :
    Returns Abort.OfResolver (confirmSource env s slot bad) (Inv env) := by
  simp only [confirmSource, hr]
  split
  swap
  · exact h
  next htent =>
    have hlt := (List.getElem?_eq_some_iff.mp (entry_eq_some.mp hr)).1
    have hold := reduceOption_perm_cons hr
    have hset := reduceOption_set_some hr r.confirm
    have hkeys := keys_cons_iff.mp (h.keys.perm hold)
    have hkeys' : Keys (r.confirm :: (s.records.set slot none).reduceOption) :=
      keys_cons_iff.mpr hkeys
    have hhashed : Hashed env (s.records.set slot (some r.confirm))
        s.nSources := by
      refine h.hashed.congr List.length_set fun i => ?_
      rw [entry_set _ hlt]
      split
      · next heq =>
          rw [heq, hr]
          rfl
      · rfl
    have hcounted := poolsCounted_confirm (h.counted.perm hold) (h.settled.perm hold) htent
    have hsettled := settled_confirm (h.settled.perm hold)
    have hloose : Loose { s with
        records := s.records.set slot (some r.confirm)
        pools := modifyPools s.pools r.poolId SourcePool.confirm } :=
      { keys := hkeys'.perm hset.symm
        count := by
          rw [← h.count]
          exact congrArg Nat.cast (hset.length_eq.trans hold.length_eq.symm)
        max := h.max
        unlocked := h.unlocked
        saved := h.saved
        counted := hcounted.perm hset.symm }
    cases hid : r.poolId with
    | none =>
        rw [hid] at hloose hsettled
        exact ⟨hloose, hhashed, hsettled.perm hset.symm⟩
    | some id =>
        rw [hid] at hloose hsettled
        simp only [modifyPool_eq]
        have hsettled' := hsettled.perm hset.symm
        split
        · exact removePoolSources_spec ⟨hloose, hsettled'⟩ hhashed bad
        · next hopen =>
            refine ⟨hloose, hhashed, fun id' p hp _ hmax r' hr' hid' => ?_⟩
            by_cases heq : id' = id
            · subst heq
              simp only [hp, Option.any_some, ge_iff_le, decide_eq_true_eq] at hopen
              omega
            · exact hsettled' id' p hp (by simpa using heq) hmax r' hr' hid'

theorem processRx_spec {s : State} (h : Inv env s) (remoteAddr : RemoteAddress) (rx : Rx) :
    Returns Abort.OfResolver (processRx env s remoteAddr rx) (Inv env) := by
  rw [processRx]
  split
  · next slot _ hfind =>
      rcases findSlot2_cases h.hashed h.keys remoteAddr with
        ⟨slot', hfind', -⟩ | ⟨slot', r, hr, -, hfind'⟩
      · rw [hfind'] at hfind
        cases hfind
      · obtain rfl : slot' = slot := by
          rw [hfind'] at hfind
          exact congrArg Prod.snd hfind
        refine (handleBadSources_spec env s rx.bad).bind fun s₁ hs₁ => ?_
        split
        · exact hs₁.inv h
        · -- the record is still in its slot
          have hslot := hs₁.entry slot'
          rw [hr] at hslot
          obtain ⟨r₁, hr₁, -⟩ := Option.map_eq_some_iff.mp hslot
          refine (confirmSource_spec (hs₁.inv h) hr₁ rx.badRemoved).bind fun s₂ hs₂ => ?_
          exact (maybeRefreshSource_spec env s₂).mono fun s₃ hs₃ => hs₃.inv hs₂
  · exact h

/-! ### Runs -/

/-- **Every event keeps the invariant**, and fails only in the resolver. -/
theorem step_inv {s : State} (h : Inv env s) (e : Event) :
    Returns Abort.OfResolver (step env s e) (Inv env) := by
  cases e with
  | addSource remoteAddr updates =>
      obtain ⟨status, s', hadd, hinv, -⟩ := addSource_spec ((getNextConfId_refreshed s).inv h)
        remoteAddr none .unspec none (fun id hid => by cases hid) (getNextConfId s).1 updates
      refine Returns.of_ok ?_ hinv
      simp only [step, addSourceByAddress, hadd]
      rfl
  | addSourceByName name family port pool params updates =>
      exact (addSourceByName_spec h name family port pool params updates).bind fun _ hres => hres
  | resolveSources => exact (resolveSources_spec env s).mono fun s' hs' => hs'.inv h
  | resolveSourcesTimeout =>
      rw [step]
      split
      · exact h
      · have hid : Refreshed s { s with
            resolvingId := false, resolvingTimeouts := s.resolvingTimeouts - 1 } :=
          ⟨rfl, rfl, rfl, rfl, rfl⟩
        exact (resolveSources'_spec env _).mono fun s' hs' => (hid.trans hs'.toRefreshed).inv h
  | nameResolved result first =>
      rw [step]
      split
      · exact h
      · next us requests _ =>
          have hreq : Refreshed s { s with requests := requests } := ⟨rfl, rfl, rfl, rfl, rfl⟩
          exact nameResolveHandler_spec (hreq.inv h) us result first
  | removeSource address bad =>
      exact (removeSource_spec h address bad).bind fun _ hres => hres
  | removeSourcesById confId bad => exact cleanRecords_rehash h (fun r => rfl) bad
  | removeAllSources bad => exact cleanRecords_rehash h (fun r => rfl) bad
  | handleBadSource bad => exact (handleBadSource_spec env s bad).mono fun s' hs' => hs'.inv h
  | refreshAddresses => exact (refreshAddresses_spec env s).mono fun s' hs' => hs'.inv h
  | updateSourceNtpAddress update bad =>
      exact ((updateSourceNtpAddress_spec h update bad).weaken fun e he => he.2).bind
        fun _ hres => hres
  | processRx remoteAddr rx => exact processRx_spec h remoteAddr rx
  | setTime now =>
      have htime : Refreshed s { s with lastEventMonoTime := now } := ⟨rfl, rfl, rfl, rfl, rfl⟩
      exact htime.inv h

theorem initialise_inv (env : Env) : Returns Abort.OfResolver (initialise env) (Inv env) := by
  refine rehashRecords_of_removing ⟨⟨⟨?_, ?_⟩, rfl, ?_, rfl, ?_, ⟨?_, ?_⟩⟩, ?_⟩
  · exact List.nodup_nil
  · exact fun r hr => by cases hr
  · simp [maxSources]
  · exact fun h => by cases h
  · exact fun id p hp => by simp at hp
  · exact fun r hr => by cases hr
  · exact fun id p hp => by simp at hp

theorem run_inv (env : Env) (events : List Event) :
    Returns Abort.OfResolver (run env events) (Inv env) :=
  (initialise_inv env).bind fun _ hs => Returns.foldlM (fun _ e h => step_inv h e) events hs

/-- **The hash table of the source addresses** after any run, which does not fail in the
table. Its size is a power of two and at least twice the number of the sources, which is
the number of the slots in use; no address is in two slots; and `find_slot` returns the
slot of every stored address, and no success for any other one. The slot that is returned
then is empty if less than half of the table is in use and the address has a family. A
rehash, also with one source more to come, stores the same records again. -/
theorem run_hash_table (env : Env) (events : List Event) :
    (∀ e, run env events = .error e →
      e ≠ .addressDuplicated ∧ e ≠ .recordLocked ∧ e ≠ .emptyRecord) ∧
    ∀ s, run env events = .ok s →
      (∃ k, s.records.length = 2 ^ k) ∧
      2 * s.nSources ≤ s.records.length ∧
      s.nSources = s.records.countP Option.isSome ∧
      Distinct SourceRecord.ip s.records ∧
      (∀ slot r, entry s.records slot = some r → findSlot env s r.ip = (true, slot)) ∧
      (∀ ip, (∀ slot r, entry s.records slot = some r → r.ip ≠ ip) →
        (findSlot env s ip).1 = false ∧
        (2 * s.nSources < s.records.length → ip.family ≠ .unspec →
          s.records[(findSlot env s ip).2]? = some none)) ∧
      ∀ n, s.nSources ≤ n → n ≤ maxSources →
        ∃ s', rehashRecords env { s with nSources := n } = .ok s' ∧
          s'.records.reduceOption.Perm s.records.reduceOption := by
  have hinv := run_inv env events
  refine ⟨fun e he => ?_, fun s hs => ?_⟩
  · obtain ⟨h1, h2, h3⟩ := hinv.error he
    exact ⟨h2, h1, h3⟩
  · have h := hinv.value hs
    have hcount := h.count
    have hroom := h.hashed.room
    obtain ⟨k, hk, hsize⟩ := h.hashed.size
    refine ⟨⟨k, hsize⟩, by omega, ?_, distinct_of_nodup h.keys.nodup,
      fun slot r hr => findSlot_stored h.hashed h.keys hr, fun ip hip => ?_, fun n hn hmax => ?_⟩
    · rw [← hcount, stored, List.reduceOption_length_eq, List.countP_eq_length_filter]
    · have habsent : ip ∉ (stored s).map SourceRecord.ip := by
        intro hmem
        obtain ⟨r, hr, heq⟩ := List.mem_map.mp hmem
        obtain ⟨slot, hslot⟩ := mem_reduceOption_iff_entry.mp hr
        exact hip slot r hslot heq
      exact ⟨findSlot_absent habsent, fun hfree hfam =>
        findSlot_empty h.hashed.size hfam habsent (by omega)⟩
    · have hlock : ({ s with nSources := n } : State).recordLock = false := h.unlocked
      have hkeys : Keys (stored { s with nSources := n }) := h.keys
      have hcount' : ((stored { s with nSources := n }).length : ℤ) ≤ n := by
        change ((stored s).length : ℤ) ≤ n
        omega
      obtain ⟨records, hrehash, -, hperm⟩ := rehashRecords_spec env hlock hkeys hcount' hmax
      exact ⟨_, hrehash, hperm⟩

/-- A rejected update of an address changes nothing. -/
theorem updateSourceNtpAddress_rejected {s s' : State} {u : AddressUpdate}
    {bad : List BadSource} {status : Status}
    (h : updateSourceNtpAddress env s u bad = .ok (status, s')) (hstatus : status ≠ .success) :
    s' = s := by
  rw [updateSourceNtpAddress] at h
  split at h
  · cases h
    rfl
  · split at h
    · exact changeSourceAddress_rejected h hstatus
    · rw [postponeUpdate] at h
      split at h
      · cases h
        rfl
      · cases h
        exact absurd rfl hstatus

/-- **The accounting of the pools** after any run. The counters of every pool are the
numbers of its records, of those with an unresolved address, and of those that are not
tentative. There are not more confirmed sources than the limit of the pool, and no
tentative one when there are as many. A change of an address that is rejected, whether it
is requested for a source or made for a resolved name, leaves everything as it is. -/
theorem run_pools (env : Env) (events : List Event) :
    (∀ s, run env events = .ok s → ∀ id p, s.pools[id]? = some p →
      p.sources = Int.ofNat ((stored s).countP fun r => r.poolId = some id) ∧
      p.unresolvedSources =
        Int.ofNat ((stored s).countP fun r => r.poolId = some id ∧ r.ip.family = .id) ∧
      p.confirmedSources =
        Int.ofNat ((stored s).countP fun r => r.poolId = some id ∧ r.tentative = false) ∧
      p.confirmedSources ≤ p.maxSources ∧
      (p.confirmedSources = p.maxSources →
        ∀ r ∈ stored s, r.poolId = some id → r.tentative = false)) ∧
    (∀ s, run env events = .ok s → ∀ r ∈ stored s, ∀ id, r.poolId = some id →
      id < s.pools.length) ∧
    (∀ s u bad status s', updateSourceNtpAddress env s u bad = .ok (status, s') →
      status ≠ .success → s' = s) ∧
    ∀ s old new replacement updates bad status s',
      changeSourceAddress env s old new replacement updates bad = .ok (status, s') →
      status ≠ .success → s' = s := by
  have hinv := run_inv env events
  refine ⟨fun s hs id p hp => ?_, fun s hs r hr id hid => ?_,
    fun s u bad status s' h hstatus => ?_,
    fun s old new replacement updates bad status s' h hstatus => ?_⟩
  · have h := hinv.value hs
    obtain ⟨hsources, hunresolved, hconfirmed, hlimit⟩ := h.counted.counted id p hp
    refine ⟨hsources, ?_, ?_, hlimit, h.settled id p hp (by simp)⟩
    · rw [hunresolved]
      refine congrArg Int.ofNat (List.countP_congr fun r hr => ?_)
      have hfam := h.keys.family r hr
      simp only [unresolvedIn, inPool, decide_eq_true_eq]
      refine and_congr_right fun _ => ?_
      cases hip : r.ip <;> simp [hip, IPAddr.isReal, IPAddr.family] at hfam ⊢
    · rw [hconfirmed]
      refine congrArg Int.ofNat (List.countP_congr fun r _ => ?_)
      simp [confirmedIn, inPool]
  · exact (hinv.value hs).counted.known r hr id hid
  · exact updateSourceNtpAddress_rejected h hstatus
  · exact changeSourceAddress_rejected h hstatus

/-- A seed and an empty parser of addresses. -/
def exampleEnv : Env where
  seed := 1
  refresh := 0
  stringToIP := fun _ => none
  ipToString := fun _ => ""

/-- A connectable address from the resolver. -/
def exampleAddr (n : ℕ) : ResolvedAddr where
  ip := .inet4 (BitVec.ofNat 32 n)
  isReal := rfl
  connectable := true
  updates := []
  bad := []
  badSaved := []

/-- A source and a pool are added, the pool gets two addresses, the source with one of
them is confirmed, which removes the other one, and the first source is removed. -/
def exampleEvents : List Event :=
  [.addSource ⟨.inet4 5, 123⟩ [],
    .addSourceByName "pool" .unspec 123 true 1 (fun _ => []),
    .resolveSources,
    .nameResolved (.success [exampleAddr 1, exampleAddr 2]) 0,
    .processRx ⟨.inet4 2, 123⟩ ⟨false, true, [], fun _ => []⟩,
    .removeSource (.inet4 5) []]

example : (run exampleEnv exampleEvents).toOption.map
    (fun s => (s.nSources, s.records.length, s.pools)) = some (1, 2, [⟨1, 0, 1, 1⟩]) := by
  decide +kernel

end Chrony.NtpSources
