import Chrony.NtpSources.HashTable
import Chrony.NtpSources.Pools

/-!
# The Invariant of the NTP Sources

The invariant of the table and of the pools, and that changes of addresses and additions
keep it. Between a removal and the rehash that follows it, only a part of it holds
(`Loose`): the addresses are still pairwise different and the counters right, but records
may not be found.

A selection of sources during an operation can only schedule sources for a replacement: it
changes the times of the last resolving and nothing else in the records (`Refreshed`).

## Main results

* `changeSourceAddress_spec`: a change of an address is rejected or keeps the invariant.
* `changeSourceAddress_rejected`: a rejected change leaves everything as it is.
* `storeRecord_inv`: `add_source` stores the new record in an empty slot.
* `addSource_spec`: an addition keeps the invariant.
-/

namespace Chrony.NtpSources

open Chrony.Lib Chrony.Lib.OpenAddressing

variable {env : Env}

/-- A saved update is to a real address. -/
def SavedReal (u : AddressUpdate) : Prop :=
  u.oldAddress.ipAddr.isReal = true → u.newAddress.ipAddr.isReal = true

/-- The part of the invariant that holds also before a rehash. -/
structure Loose (s : State) : Prop where
  keys : Keys (stored s)
  count : ((stored s).length : ℤ) = s.nSources
  max : s.nSources ≤ maxSources
  unlocked : s.recordLock = false
  saved : SavedReal s.savedAddressUpdate
  counted : PoolsCounted (stored s) s.pools

/-- **The invariant** of the table of the sources and of the pools. -/
structure Inv (env : Env) (s : State) : Prop extends Loose s where
  hashed : Hashed env s.records s.nSources
  settled : Settled none (stored s) s.pools

/-- The sources with unresolved names, which have an ID as their address, are kept. -/
structure SameIds (s s' : State) : Prop where
  nSources : s'.nSources = s.nSources
  lastAddressId : s'.lastAddressId = s.lastAddressId
  ids : ∀ i, .id i ∈ (stored s').map SourceRecord.ip ↔ .id i ∈ (stored s).map SourceRecord.ip

namespace SameIds

variable {s s' s'' : State}

theorem refl (s : State) : SameIds s s :=
  ⟨rfl, rfl, fun _ => Iff.rfl⟩

theorem trans (h : SameIds s s') (h' : SameIds s' s'') : SameIds s s'' :=
  ⟨h'.nSources.trans h.nSources, h'.lastAddressId.trans h.lastAddressId,
    fun i => (h'.ids i).trans (h.ids i)⟩

end SameIds

theorem rehashRecords_inv (env : Env) {s : State} (h : Loose s)
    (hsettled : Settled none (stored s) s.pools) :
    ∃ s', rehashRecords env s = .ok s' ∧ Inv env s' ∧ s'.pools = s.pools ∧ SameIds s s' := by
  obtain ⟨records, hrehash, hhashed, hperm⟩ :=
    rehashRecords_spec env h.unlocked h.keys h.count.le h.max
  exact ⟨_, hrehash,
    { keys := h.keys.perm hperm.symm
      count := by rw [← h.count]; exact congrArg _ hperm.length_eq
      max := h.max
      unlocked := h.unlocked
      saved := h.saved
      counted := h.counted.perm hperm.symm
      hashed := hhashed
      settled := hsettled.perm hperm.symm }, rfl, rfl, rfl, fun _ => (hperm.map _).mem_iff⟩

theorem modifyPool_eq (s : State) (poolId : Option ℕ) (f : SourcePool → SourcePool) :
    s.modifyPool poolId f = { s with pools := modifyPools s.pools poolId f } := by
  cases poolId <;> rfl

/-- The assertions of the resolver, which are not about the records. -/
def Abort.OfResolver (e : Abort) : Prop :=
  e ≠ .recordLocked ∧ e ≠ .addressDuplicated ∧ e ≠ .emptyRecord

/-! ### Sources scheduled for resolving -/

/-- The states differ in the times of the last resolving and in what the resolver has to
do. -/
structure Refreshed (s s' : State) : Prop where
  records : s'.records.map (Option.map SourceRecord.core) =
    s.records.map (Option.map SourceRecord.core)
  nSources : s'.nSources = s.nSources
  recordLock : s'.recordLock = s.recordLock
  pools : s'.pools = s.pools
  saved : s'.savedAddressUpdate = s.savedAddressUpdate

namespace Refreshed

variable {s s' s'' : State}

theorem refl (s : State) : Refreshed s s := ⟨rfl, rfl, rfl, rfl, rfl⟩

theorem trans (h : Refreshed s s') (h' : Refreshed s' s'') : Refreshed s s'' :=
  ⟨h'.records.trans h.records, h'.nSources.trans h.nSources, h'.recordLock.trans h.recordLock,
    h'.pools.trans h.pools, h'.saved.trans h.saved⟩

theorem length (h : Refreshed s s') : s'.records.length = s.records.length := by
  have := congrArg List.length h.records
  simpa using this

/-- The records are in the same slots. -/
theorem entry (h : Refreshed s s') (slot : ℕ) :
    (OpenAddressing.entry s'.records slot).map SourceRecord.core =
      (OpenAddressing.entry s.records slot).map SourceRecord.core := by
  have hslot := congrArg (fun l => l[slot]?) h.records
  simp only [List.getElem?_map] at hslot
  rw [OpenAddressing.entry, OpenAddressing.entry]
  rcases hs' : s'.records[slot]? with _ | _ | r' <;> rcases hs : s.records[slot]? with _ | _ | r <;>
    simp_all

theorem stored (h : Refreshed s s') :
    (NtpSources.stored s').map SourceRecord.core = (NtpSources.stored s).map SourceRecord.core := by
  have hreduce := congrArg List.reduceOption h.records
  rwa [List.reduceOption_map, List.reduceOption_map] at hreduce

theorem stored_ip (h : Refreshed s s') :
    (NtpSources.stored s').map SourceRecord.ip = (NtpSources.stored s).map SourceRecord.ip := by
  have hcore : SourceRecord.ip ∘ SourceRecord.core = SourceRecord.ip := rfl
  have hip := congrArg (List.map SourceRecord.ip) h.stored
  rwa [List.map_map, List.map_map, hcore] at hip

theorem keys (h : Refreshed s s') (hkeys : Keys (NtpSources.stored s)) :
    Keys (NtpSources.stored s') where
  nodup := by rw [h.stored_ip]; exact hkeys.nodup
  family r hr := by
    have hmem : r.ip ∈ (NtpSources.stored s').map SourceRecord.ip := List.mem_map_of_mem hr
    rw [h.stored_ip] at hmem
    obtain ⟨r', hr', heq⟩ := List.mem_map.mp hmem
    rw [← heq]
    exact hkeys.family r' hr'

theorem loose (h : Refreshed s s') (hs : Loose s) : Loose s' where
  keys := h.keys hs.keys
  count := by
    have hlen := congrArg List.length h.stored
    rw [List.length_map, List.length_map] at hlen
    rw [hlen, h.nSources]
    exact hs.count
  max := by rw [h.nSources]; exact hs.max
  unlocked := by rw [h.recordLock]; exact hs.unlocked
  saved := by rw [h.saved]; exact hs.saved
  counted := by rw [h.pools]; exact hs.counted.core h.stored.symm

theorem settled (h : Refreshed s s') {except : Option ℕ}
    (hs : Settled except (NtpSources.stored s) s.pools) :
    Settled except (NtpSources.stored s') s'.pools := by
  rw [h.pools]
  exact hs.core h.stored.symm

theorem hashed (h : Refreshed s s') (hs : Hashed env s.records s.nSources) :
    Hashed env s'.records s'.nSources := by
  rw [h.nSources]
  refine hs.congr h.length fun slot => ?_
  have hslot := congrArg (Option.map SourceRecord.ip) (h.entry slot)
  have hcore : SourceRecord.ip ∘ SourceRecord.core = SourceRecord.ip := rfl
  rwa [Option.map_map, Option.map_map, hcore] at hslot

theorem inv (h : Refreshed s s') (hs : Inv env s) : Inv env s' where
  toLoose := h.loose hs.toLoose
  hashed := h.hashed hs.hashed
  settled := h.settled hs.settled

end Refreshed

/-- The ID of the last address is the same, too. -/
structure Scheduled (s s' : State) : Prop extends Refreshed s s' where
  lastAddressId : s'.lastAddressId = s.lastAddressId

namespace Scheduled

variable {s s' s'' : State}

theorem refl (s : State) : Scheduled s s := ⟨.refl s, rfl⟩

theorem trans (h : Scheduled s s') (h' : Scheduled s' s'') : Scheduled s s'' :=
  ⟨h.toRefreshed.trans h'.toRefreshed, h'.lastAddressId.trans h.lastAddressId⟩

theorem sameIds (h : Scheduled s s') : SameIds s s' :=
  ⟨h.nSources, h.lastAddressId, fun _ => by rw [h.stored_ip]⟩

end Scheduled

/-- A new time of the last resolving. -/
theorem scheduled_set {s : State} {slot : ℕ} {r : SourceRecord}
    (hr : entry s.records slot = some r) (now : ℚ) :
    Scheduled s { s with
      records := s.records.set slot (some { r with lastResolving := now }) } := by
  refine ⟨⟨?_, rfl, rfl, rfl, rfl⟩, rfl⟩
  have hslot := entry_eq_some.mp hr
  rw [List.map_set]
  refine List.ext_getElem? fun i => ?_
  by_cases hi : i = slot
  · subst hi
    have hlt := (List.getElem?_eq_some_iff.mp hslot).1
    rw [List.getElem?_set_self (by simpa using hlt), List.getElem?_map, hslot]
    rfl
  · rw [List.getElem?_set_ne (Ne.symm hi)]

theorem resolveSources'_spec (env : Env) (s : State) :
    Returns Abort.OfResolver (resolveSources' env s) (Scheduled s) := by
  rw [resolveSources']
  split
  · exact ⟨by simp, by simp, by simp⟩
  · dsimp only
    split
    · exact ⟨⟨rfl, rfl, rfl, rfl, rfl⟩, rfl⟩
    · exact ⟨⟨rfl, rfl, rfl, rfl, rfl⟩, rfl⟩

theorem removeResolvingTimeout_spec (s : State) :
    Returns Abort.OfResolver (removeResolvingTimeout s) (Scheduled s) := by
  rw [removeResolvingTimeout]
  split
  · exact Scheduled.refl s
  · split
    · exact ⟨by simp, by simp, by simp⟩
    · exact ⟨⟨rfl, rfl, rfl, rfl, rfl⟩, rfl⟩

theorem resolveSources_spec (env : Env) (s : State) :
    Returns Abort.OfResolver (resolveSources env s) (Scheduled s) := by
  rw [resolveSources]
  split
  · exact Scheduled.refl s
  · split
    · refine (removeResolvingTimeout_spec s).bind fun s₁ hs₁ => ?_
      exact (resolveSources'_spec env s₁).mono fun s' hs' => hs₁.trans hs'
    · exact ⟨⟨rfl, rfl, rfl, rfl, rfl⟩, rfl⟩

theorem resolveSourceReplacement_spec (env : Env) (s : State) {slot : ℕ} {r : SourceRecord}
    (hr : entry s.records slot = some r) (refreshment : Bool) :
    Returns Abort.OfResolver (resolveSourceReplacement env s slot r refreshment)
      (Scheduled s) := by
  have hset := scheduled_set hr s.lastEventMonoTime
  rw [resolveSourceReplacement]
  split
  · refine (resolveSources_spec env _).mono fun s' hs' => hset.trans (Scheduled.trans ?_ hs')
    exact ⟨⟨rfl, rfl, rfl, rfl, rfl⟩, rfl⟩
  · exact hset.trans ⟨⟨rfl, rfl, rfl, rfl, rfl⟩, rfl⟩

theorem handleBadSource_spec (env : Env) (s : State) (b : BadSource) :
    Returns Abort.OfResolver (handleBadSource env s b) (Scheduled s) := by
  rw [handleBadSource]
  rcases hfind : findSlot env s b.address with ⟨found, slot⟩
  cases found with
  | false => exact Scheduled.refl s
  | true =>
      obtain ⟨r, hr, -⟩ := findSlot_true hfind
      simp only [hr]
      split
      · exact Scheduled.refl s
      · split
        · exact Scheduled.refl s
        · have htime : ∀ t, Scheduled s { s with nextReplacement := t } :=
            fun t => ⟨⟨rfl, rfl, rfl, rfl, rfl⟩, rfl⟩
          have hrep : ∀ t, Returns Abort.OfResolver
              (resolveSourceReplacement env { s with nextReplacement := t } slot r false)
              (Scheduled s) := fun t =>
            (resolveSourceReplacement_spec env { s with nextReplacement := t } hr false).mono
              fun s' hs' => (htime t).trans hs'
          exact hrep _

theorem handleBadSources_spec (env : Env) (s : State) (bad : List BadSource) :
    Returns Abort.OfResolver (bad.foldlM (handleBadSource env) s) (Scheduled s) :=
  Returns.foldlM (fun s' b hs' => (handleBadSource_spec env s' b).mono fun _ h => hs'.trans h)
    bad (Scheduled.refl s)

/-- The errors of an operation during which the bad sources are found. -/
def Abort.OfBad (bad : List BadSource) (e : Abort) : Prop :=
  bad ≠ [] ∧ e.OfResolver

theorem handleBadSources_ofBad (env : Env) (s : State) (bad : List BadSource) :
    Returns (Abort.OfBad bad) (bad.foldlM (handleBadSource env) s) (Scheduled s) := by
  cases bad with
  | nil => exact Scheduled.refl s
  | cons b bad =>
      exact (handleBadSources_spec env s (b :: bad)).weaken
        fun e he => ⟨List.cons_ne_nil b bad, he⟩

/-- Without bad sources there is no error. -/
theorem exists_ok_of_noBad {α : Type} {x : Except Abort α} {P : α → Prop}
    (h : Returns (Abort.OfBad []) x P) : ∃ a, x = .ok a ∧ P a := by
  cases x with
  | ok a => exact ⟨a, rfl, h⟩
  | error e => exact absurd rfl h.1

/-! ### Changes of addresses -/

theorem nestedUpdate_spec (env : Env) (s : State) (u : AddressUpdate)
    (h : SavedReal s.savedAddressUpdate) :
    ∃ u', nestedUpdate env s u = { s with savedAddressUpdate := u' } ∧ SavedReal u' := by
  rw [nestedUpdate]
  cases hcheck : checkUpdate env s u with
  | some _ => exact ⟨s.savedAddressUpdate, rfl, h⟩
  | none =>
      have hreal : SavedReal u := by
        intro _
        rw [checkUpdate] at hcheck
        split at hcheck
        · cases hcheck
        · next hboth => simpa using (not_or.mp hboth).2
      by_cases hbusy : s.savedAddressUpdate.oldAddress.ipAddr.isReal = true
      · refine ⟨s.savedAddressUpdate, ?_, h⟩
        simp only [postponeUpdate, if_pos hbusy]
      · refine ⟨u, ?_, hreal⟩
        simp only [postponeUpdate, if_neg hbusy]

theorem nestedUpdates_spec (env : Env) (updates : List AddressUpdate) (s : State)
    (h : SavedReal s.savedAddressUpdate) :
    ∃ u', updates.foldl (nestedUpdate env) s = { s with savedAddressUpdate := u' } ∧
      SavedReal u' := by
  induction updates generalizing s with
  | nil => exact ⟨s.savedAddressUpdate, rfl, h⟩
  | cons u updates ih =>
      obtain ⟨u₁, heq, h₁⟩ := nestedUpdate_spec env s u h
      rw [List.foldl_cons, heq]
      exact ih _ h₁

theorem family_ne_unspec_of_isReal {ip : IPAddr} (h : ip.isReal = true) : ip.family ≠ .unspec := by
  cases ip <;> simp [IPAddr.isReal, IPAddr.family] at h ⊢

/-- A change of the record in a slot, up to the times of the last resolving. -/
theorem changeRecord_spec (env : Env) {s : State} (hlock : s.recordLock = false)
    (hsaved : SavedReal s.savedAddressUpdate) {slot : ℕ} {r : SourceRecord}
    (hr : entry s.records slot = some r) {old : RemoteAddress} (hold : r.ip = old.ipAddr)
    (new : RemoteAddress) (replacement : Bool) (updates : List AddressUpdate)
    (bad : List BadSource) :
    Returns (Abort.OfBad bad) (changeRecord env s slot r old new replacement updates bad)
      fun s' => ∃ u, SavedReal u ∧ Scheduled
        { s with
          records := s.records.set slot (some (r.changeAddress new replacement))
          pools := modifyPools s.pools r.poolId
            (SourcePool.changeAddress r.ip new.ipAddr r.tentative)
          savedAddressUpdate := u } s' := by
  obtain ⟨u, hupdates, hu⟩ : ∃ u,
      (if replacement then updates.foldl (nestedUpdate env) { s with recordLock := true }
        else { s with recordLock := true }) =
      { s with recordLock := true, savedAddressUpdate := u } ∧ SavedReal u := by
    split
    · exact nestedUpdates_spec env updates { s with recordLock := true } hsaved
    · exact ⟨_, rfl, hsaved⟩
  have hlt := (List.getElem?_eq_some_iff.mp (entry_eq_some.mp hr)).1
  rw [changeRecord, hupdates]
  refine (handleBadSources_ofBad env _ bad).bind fun s₁ hs₁ => ?_
  -- the record is still in its slot, with its new address
  have hslot := hs₁.entry slot
  rw [entry_set _ hlt, if_pos rfl] at hslot
  obtain ⟨r₁, hr₁, hcore⟩ := Option.map_eq_some_iff.mp hslot
  have hpool : r₁.poolId = r.poolId := by
    have hfield := congrArg SourceRecord.poolId hcore
    exact hfield
  have htentative : r₁.tentative = r.tentative := by
    have hfield := congrArg SourceRecord.tentative hcore
    exact hfield
  have hchanged : (r₁.changeAddress new replacement).core =
      (r.changeAddress new replacement).core := by
    have hchange := congrArg (SourceRecord.changeAddress · new replacement) hcore
    exact hchange
  simp only [hr₁, modifyPool_eq]
  refine ⟨u, hu, ⟨?_, hs₁.nSources, hlock.symm, ?_, hs₁.saved⟩, hs₁.lastAddressId⟩
  · have hrecords := hs₁.records
    simp only [List.map_set, Option.map_some, hchanged] at hrecords ⊢
    rw [hrecords, List.set_set]
  · rw [hpool, htentative, ← hold]
    exact congrArg (modifyPools · r.poolId _) hs₁.pools

/-- A record with a changed address, before the table is rebuilt. -/
theorem loose_change {s : State} (h : Inv env s) {slot : ℕ} {r : SourceRecord}
    (hr : entry s.records slot = some r) {new : RemoteAddress}
    (hnew : new.ipAddr.isReal = true) (replacement : Bool) {u : AddressUpdate}
    (hu : SavedReal u)
    (hfree : new.ipAddr ∉ (stored s).map SourceRecord.ip ∨ new.ipAddr = r.ip) {s' : State}
    (hs' : s' =
      { s with
        records := s.records.set slot (some (r.changeAddress new replacement))
        pools := modifyPools s.pools r.poolId
          (SourcePool.changeAddress r.ip new.ipAddr r.tentative)
        savedAddressUpdate := u }) :
    Loose s' ∧ Settled none (stored s') s'.pools := by
  subst hs'
  have hold := reduceOption_perm_cons hr
  have hset := reduceOption_set_some hr (r.changeAddress new replacement)
  obtain ⟨hnot, -, hkeys⟩ := keys_cons_iff.mp (h.keys.perm hold)
  have hnew' : new.ipAddr ∉
      ((s.records.set slot none).reduceOption).map SourceRecord.ip := by
    rcases hfree with hfree | heq
    · intro hmem
      exact hfree ((hold.map _).mem_iff.mpr (List.mem_cons_of_mem _ hmem))
    · rwa [heq]
  have hkeys' : Keys (r.changeAddress new replacement :: (s.records.set slot none).reduceOption) :=
    keys_cons_iff.mpr ⟨hnew', family_ne_unspec_of_isReal hnew, hkeys⟩
  constructor
  · exact
      { keys := hkeys'.perm hset.symm
        count := by
          rw [← h.count]
          exact congrArg Nat.cast (hset.length_eq.trans hold.length_eq.symm)
        max := h.max
        unlocked := h.unlocked
        saved := hu
        counted :=
          (poolsCounted_change (h.counted.perm hold) hnew replacement).perm hset.symm }
  · exact (settled_change (h.counted.perm hold) (h.settled.perm hold) new
      replacement).perm hset.symm

theorem not_isReal_id (i : BitVec 32) : (IPAddr.id i).isReal = false :=
  rfl

/-- The IDs are kept when a real address is changed to another one. -/
theorem sameIds_change {s : State} {slot : ℕ} {r : SourceRecord}
    (hr : entry s.records slot = some r) (hold : r.ip.isReal = true) {new : RemoteAddress}
    (hnew : new.ipAddr.isReal = true) (replacement : Bool) (pools : List SourcePool)
    (u : AddressUpdate) :
    SameIds s { s with
      records := s.records.set slot (some (r.changeAddress new replacement))
      pools := pools
      savedAddressUpdate := u } := by
  refine ⟨rfl, rfl, fun i => ?_⟩
  have hne : ∀ ip : IPAddr, ip.isReal = true → .id i ≠ ip := by
    rintro ip hip rfl
    rw [not_isReal_id] at hip
    cases hip
  have hperm := reduceOption_perm_cons hr
  have hset := reduceOption_set_some hr (r.changeAddress new replacement)
  have hrest : ∀ r' : SourceRecord, r'.ip.isReal = true → ∀ l : List SourceRecord,
      (.id i ∈ (r' :: l).map SourceRecord.ip ↔ .id i ∈ l.map SourceRecord.ip) := by
    intro r' hreal l
    rw [List.map_cons, List.mem_cons]
    exact or_iff_right (hne _ hreal)
  have hafter := hrest (r.changeAddress new replacement) hnew
  exact ((hset.map SourceRecord.ip).mem_iff.trans (hafter _)).trans
    ((hperm.map SourceRecord.ip).mem_iff.trans (hrest r hold _)).symm

/-- **A change of an address** is rejected or keeps the invariant. -/
theorem changeSourceAddress_spec {s : State} (h : Inv env s) (old : RemoteAddress)
    {new : RemoteAddress} (hnew : new.ipAddr.isReal = true) (replacement : Bool)
    (updates : List AddressUpdate) (bad : List BadSource) :
    Returns (Abort.OfBad bad) (changeSourceAddress env s old new replacement updates bad)
      fun res => Inv env res.2 ∧ (∀ id, Unfilled id s.pools → Unfilled id res.2.pools) ∧
        (old.ipAddr.isReal = true → SameIds s res.2) := by
  have hreject : ∀ status : Status, Returns (Abort.OfBad bad) (.ok (status, s))
      fun res => Inv env res.2 ∧ (∀ id, Unfilled id s.pools → Unfilled id res.2.pools) ∧
        (old.ipAddr.isReal = true → SameIds s res.2) :=
    fun status => ⟨h, fun _ hid => hid, fun _ => .refl s⟩
  rw [changeSourceAddress]
  rcases findSlot2_cases h.hashed h.keys old with ⟨slot, hfind, -⟩ | ⟨slot, r, hr, hip, hfind⟩
  · rw [hfind]
    exact hreject _
  rw [hfind]
  by_cases hport : r.remoteAddr.port = old.port
  · have hrecord := changeRecord_spec env h.unlocked h.saved hr hip new replacement updates bad
    have hunfilled : ∀ id, Unfilled id s.pools → Unfilled id (modifyPools s.pools r.poolId
        (SourcePool.changeAddress r.ip new.ipAddr r.tentative)) :=
      fun id hid => unfilled_change hid _ _ _ _
    simp only [if_pos hport]
    rcases findSlot2_cases h.hashed h.keys new with
      ⟨slot₂, hfind₂, habsent⟩ | ⟨slot₂, r₂, hr₂, hip₂, hfind₂⟩
    · -- the table is rebuilt for the new address
      simp only [hfind₂, h.unlocked, hr, reduceCtorEq, ne_eq, not_true_eq_false, false_and,
        or_self, if_false, Bool.false_eq_true, if_true]
      refine hrecord.bind fun s₁ hs₁ => ?_
      obtain ⟨u, hu, hscheduled⟩ := hs₁
      obtain ⟨hloose, hsettled⟩ := loose_change h hr hnew replacement hu (.inl habsent) rfl
      obtain ⟨s', hrehash, hinv, hpools, hids'⟩ := rehashRecords_inv env
        (hscheduled.loose hloose) (hscheduled.settled hsettled)
      refine Returns.bind (Returns.of_ok hrehash (P := (· = s')) rfl) ?_
      rintro _ rfl
      refine ⟨hinv, fun id hid => ?_, fun hreal => ?_⟩
      · rw [hpools, hscheduled.pools]
        exact hunfilled id hid
      · exact ((sameIds_change hr (hip ▸ hreal) hnew replacement _ u).trans
          hscheduled.sameIds).trans hids'
    · rw [hfind₂]
      by_cases hport₂ : r₂.remoteAddr.port = new.port
      · simp only [if_pos hport₂, true_or, if_true]
        exact hreject _
      · by_cases hslot : slot = slot₂
        · -- only the port is changed
          subst hslot
          obtain rfl : r = r₂ := Option.some.inj (hr.symm.trans hr₂)
          simp only [if_neg hport₂, h.unlocked, hr, reduceCtorEq, ne_eq, not_true_eq_false,
            and_false, or_self, if_false, Bool.false_eq_true]
          refine hrecord.bind fun s₁ hs₁ => ?_
          obtain ⟨u, hu, hscheduled⟩ := hs₁
          obtain ⟨hloose, hsettled⟩ := loose_change h hr hnew replacement hu (.inr hip₂.symm) rfl
          refine ⟨⟨hscheduled.loose hloose, hscheduled.hashed ?_, hscheduled.settled hsettled⟩,
            fun id hid => ?_, fun hreal => ?_⟩
          · have hlt := (List.getElem?_eq_some_iff.mp (entry_eq_some.mp hr)).1
            refine h.hashed.congr List.length_set fun i => ?_
            rw [entry_set _ hlt]
            split
            · next heq => simp [heq, hr, hip₂]
            · rfl
          · rw [hscheduled.pools]
            exact hunfilled id hid
          · exact (sameIds_change hr (hip ▸ hreal) hnew replacement _ u).trans hscheduled.sameIds
        · simp only [if_neg hport₂, reduceCtorEq, ne_eq, not_false_eq_true, hslot, and_self,
            or_true, if_true]
          exact hreject _
  · simp only [if_neg hport]
    exact hreject _

/-- A rejected change leaves everything as it is. -/
theorem changeSourceAddress_rejected {s s' : State} {old new : RemoteAddress}
    {replacement : Bool} {updates : List AddressUpdate} {bad : List BadSource} {status : Status}
    (h : changeSourceAddress env s old new replacement updates bad = .ok (status, s'))
    (hstatus : status ≠ .success) : s' = s := by
  rw [changeSourceAddress] at h
  split at h
  · dsimp only at h
    split at h
    · cases h
      rfl
    · split at h
      · cases h
      · split at h
        · cases h
        · obtain ⟨s₁, -, h⟩ := bind_eq_ok_iff.mp h
          split at h
          · obtain ⟨s₂, -, h⟩ := bind_eq_ok_iff.mp h
            cases h
            exact absurd rfl hstatus
          · cases h
            exact absurd rfl hstatus
  · cases h
    rfl

theorem handleSavedAddressUpdate_spec {s : State} (h : Inv env s) (bad : List BadSource) :
    Returns (Abort.OfBad bad) (handleSavedAddressUpdate env s bad) fun s' => Inv env s' ∧
      (∀ id, Unfilled id s.pools → Unfilled id s'.pools) ∧ SameIds s s' := by
  rw [handleSavedAddressUpdate]
  by_cases hreal : s.savedAddressUpdate.oldAddress.ipAddr.isReal = true
  · simp only [hreal, not_true_eq_false, if_false]
    refine (changeSourceAddress_spec h s.savedAddressUpdate.oldAddress (h.saved hreal) false []
      bad).bind fun res hres => ?_
    obtain ⟨hinv, hunfilled, hids⟩ := hres
    obtain ⟨hn, hlast, hids⟩ := hids hreal
    exact ⟨{ hinv with saved := fun h => by cases h }, hunfilled, hn, hlast, hids⟩
  · rw [if_pos hreal]
    exact ⟨h, fun _ hid => hid, .refl s⟩

theorem updateSourceNtpAddress_spec {s : State} (h : Inv env s) (u : AddressUpdate)
    (bad : List BadSource) :
    Returns (Abort.OfBad bad) (updateSourceNtpAddress env s u bad) fun res => Inv env res.2 := by
  rw [updateSourceNtpAddress]
  cases hcheck : checkUpdate env s u with
  | some status => exact h
  | none =>
      have hreal : u.newAddress.ipAddr.isReal = true := by
        rw [checkUpdate] at hcheck
        split at hcheck
        · cases hcheck
        · next hboth => simpa using (not_or.mp hboth).2
      simp only [h.unlocked, Bool.false_eq_true, not_false_eq_true, if_true]
      exact (changeSourceAddress_spec h u.oldAddress hreal false [] bad).mono fun res hres => hres.1

/-! ### Additions -/

/-- The state of `add_source` in which the new record is stored: the new source is
counted, there is room for it, and its slot is empty. -/
structure Roomy (env : Env) (s : State) (remoteAddr : RemoteAddress) (slot : ℕ) : Prop where
  keys : Keys (stored s)
  count : ((stored s).length : ℤ) + 1 = s.nSources
  max : s.nSources ≤ maxSources
  unlocked : s.recordLock = false
  saved : SavedReal s.savedAddressUpdate
  counted : PoolsCounted (stored s) s.pools
  settled : Settled none (stored s) s.pools
  hashed : Hashed env s.records s.nSources
  family : remoteAddr.ipAddr.family ≠ .unspec
  absent : remoteAddr.ipAddr ∉ (stored s).map SourceRecord.ip
  slot : findSlot2 env s remoteAddr = (.nothing, slot)

theorem makeRoom_spec {s : State} (h : Inv env s) {remoteAddr : RemoteAddress} {slot : ℕ}
    (hfind : findSlot2 env s remoteAddr = (.nothing, slot))
    (habsent : remoteAddr.ipAddr ∉ (stored s).map SourceRecord.ip)
    (hfam : remoteAddr.ipAddr.family ≠ .unspec) (hmax : ¬ s.nSources ≥ maxSources) :
    ∃ s' slot', makeRoom env { s with nSources := s.nSources + 1 } remoteAddr slot =
      .ok (s', slot') ∧ Roomy env s' remoteAddr slot' ∧ s'.pools = s.pools ∧
      SameIds { s with nSources := s.nSources + 1 } s' := by
  have hcount := h.count
  rw [makeRoom]
  by_cases hcheck : checkHashtableSize (s.nSources + 1) s.records.length = true
  · rw [if_pos hcheck]
    refine ⟨_, slot, rfl, ?_, rfl, .refl _⟩
    exact
      { keys := h.keys
        count := by rw [← h.count]; rfl
        max := by change s.nSources + 1 ≤ _; omega
        unlocked := h.unlocked
        saved := h.saved
        counted := h.counted
        settled := h.settled
        hashed := ⟨h.hashed.size, by simpa [checkHashtableSize] using hcheck, h.hashed.placed⟩
        family := hfam
        absent := habsent
        slot := hfind }
  · rw [if_neg hcheck]
    set s₁ : State := { s with nSources := s.nSources + 1 } with hs₁
    have hmax₁ : s₁.nSources ≤ maxSources := by
      change s.nSources + 1 ≤ _
      omega
    have hcount₁ : ((stored s₁).length : ℤ) ≤ s₁.nSources := by
      change ((stored s).length : ℤ) ≤ s.nSources + 1
      omega
    have hlock₁ : s₁.recordLock = false := h.unlocked
    have hkeys₁ : Keys (stored s₁) := h.keys
    obtain ⟨records, hrehash, hhashed, hperm⟩ :=
      rehashRecords_spec env hlock₁ hkeys₁ hcount₁ hmax₁
    set s₂ : State := { s₁ with records := records } with hs₂
    have hkeys : Keys (stored s₂) := h.keys.perm hperm.symm
    have habsent₂ : remoteAddr.ipAddr ∉ (stored s₂).map SourceRecord.ip :=
      fun hmem => habsent ((hperm.map _).mem_iff.mp hmem)
    obtain ⟨slot', hfind', -⟩ | ⟨slot', r, hr, hip, -⟩ := findSlot2_cases hhashed hkeys remoteAddr
    · refine ⟨s₂, slot', ?_, ?_, rfl, rfl, rfl, fun _ => (hperm.map _).mem_iff⟩
      · rw [hrehash]
        simp only [bind, Except.bind]
        rw [hfind']
      · exact
          { keys := hkeys
            count := by
              change ((records.reduceOption.length : ℕ) : ℤ) + 1 = s.nSources + 1
              rw [hperm.length_eq, ← h.count]
              rfl
            max := hmax₁
            unlocked := h.unlocked
            saved := h.saved
            counted := h.counted.perm hperm.symm
            settled := h.settled.perm hperm.symm
            hashed := hhashed
            family := hfam
            absent := habsent₂
            slot := hfind' }
    · exact absurd (List.mem_map.mpr
        ⟨r, mem_reduceOption_iff_entry.mpr ⟨slot', hr⟩, hip⟩) habsent₂

/-- The new record is stored in an empty slot, and the invariant holds after that. -/
theorem storeRecord_inv {s : State} {remoteAddr : RemoteAddress} {slot : ℕ}
    (h : Roomy env s remoteAddr slot) (name : Option String) (family : Family)
    {poolId : Option ℕ} (hpool : ∀ id, poolId = some id → Unfilled id s.pools)
    (confId : BitVec 32) (updates : List AddressUpdate) :
    entry s.records slot = none ∧
      Inv env (storeRecord env s slot remoteAddr name family poolId confId updates) ∧
      (∀ id, Unfilled id s.pools →
        Unfilled id (storeRecord env s slot remoteAddr name family poolId confId updates).pools) ∧
      (storeRecord env s slot remoteAddr name family poolId confId updates).nSources =
        s.nSources ∧
      (storeRecord env s slot remoteAddr name family poolId confId updates).lastAddressId =
        s.lastAddressId ∧
      ((stored (storeRecord env s slot remoteAddr name family poolId confId updates)).map
        SourceRecord.ip).Perm (remoteAddr.ipAddr :: (stored s).map SourceRecord.ip) := by
  have hcount := h.count
  have hroom := h.hashed.room
  obtain ⟨j, hj, hfind, hnone, hbefore⟩ : ∃ j < s.records.length / 2,
      findSlot env s remoteAddr.ipAddr =
        (false, probe env s.records.length remoteAddr.ipAddr j) ∧ _ :=
    findSlot_probe h.hashed.size h.family h.absent (by omega)
  have hprobe : probe env s.records.length remoteAddr.ipAddr j = slot := by
    have hslot := h.slot
    rw [findSlot2_of_false hfind] at hslot
    exact congrArg Prod.snd hslot
  have hlt : slot < s.records.length := by
    rw [← hprobe]
    exact probe_lt (by omega) _ _
  obtain ⟨u, hupdates, hu⟩ := nestedUpdates_spec env updates { s with recordLock := true } h.saved
  obtain ⟨r, hr, hpoolId, htent, hstore⟩ : ∃ r : SourceRecord, r.ip = remoteAddr.ipAddr ∧
      r.poolId = poolId ∧ r.tentative = true ∧
      storeRecord env s slot remoteAddr name family poolId confId updates =
        { s with
          records := s.records.set slot (some r)
          recordLock := false
          pools := modifyPools s.pools poolId (SourcePool.add remoteAddr.ipAddr)
          savedAddressUpdate := u } := by
    refine ⟨SourceRecord.new remoteAddr (name.getD (env.ipToString remoteAddr.ipAddr)) family
      poolId confId s.lastEventMonoTime, rfl, rfl, rfl, ?_⟩
    simp only [storeRecord, hupdates, modifyPool_eq]
  have hplaced : Placed (probe env s.records.length) (s.records.length / 2) SourceRecord.ip
      (s.records.set slot (some r)) := by
    rw [← hr] at hprobe hnone hbefore
    rw [← hprobe]
    exact placed_set h.hashed.placed hj (probe_lt (by omega) _ _) hnone hbefore
  rw [hprobe] at hnone
  have hperm := reduceOption_set_none hlt hnone r
  have hkeys : Keys (r :: stored s) :=
    keys_cons_iff.mpr ⟨by rw [hr]; exact h.absent, by rw [hr]; exact h.family, h.keys⟩
  have hknown : ∀ id, poolId = some id → id < s.pools.length := by
    intro id hid
    obtain ⟨p, hp, -⟩ := hpool id hid
    exact (List.getElem?_eq_some_iff.mp hp).1
  subst hpoolId
  rw [hstore, ← hr]
  refine ⟨hnone, ?_, fun id hid => ?_, rfl, rfl, hperm.map SourceRecord.ip⟩
  swap
  · have hadd : ∀ p : SourcePool, p.confirmedSources < p.maxSources →
        (p.add r.ip).confirmedSources < (p.add r.ip).maxSources := fun p hp => hp
    exact unfilled_modify hid hadd _
  exact
    { keys := hkeys.perm hperm.symm
      count := by
        rw [← h.count]
        exact_mod_cast hperm.length_eq
      max := h.max
      unlocked := rfl
      saved := hu
      counted := (poolsCounted_add h.counted htent hknown).perm hperm.symm
      hashed :=
        { size := by simpa using h.hashed.size
          room := by simpa using h.hashed.room
          placed := by
            rw [List.length_set]
            exact hplaced }
      settled := (settled_add h.settled hpool).perm hperm.symm }

/-- **A source is added** when its address is not used and there is room for it. -/
theorem addSource_added {s : State} (h : Inv env s) (remoteAddr : RemoteAddress)
    (name : Option String) (hname : ¬(name = none ∧ ¬remoteAddr.ipAddr.isReal)) (family : Family)
    {poolId : Option ℕ} (hpool : ∀ id, poolId = some id → Unfilled id s.pools)
    (confId : BitVec 32) (updates : List AddressUpdate)
    (habsent : remoteAddr.ipAddr ∉ (stored s).map SourceRecord.ip)
    (hfam : remoteAddr.ipAddr.family ≠ .unspec) (hmax : s.nSources < maxSources) :
    ∃ s', addSource env s remoteAddr name family poolId confId updates = .ok (.success, s') ∧
      Inv env s' ∧ (∀ id, Unfilled id s.pools → Unfilled id s'.pools) ∧
      s'.nSources = s.nSources + 1 ∧ s'.lastAddressId = s.lastAddressId ∧
      ∀ i, .id i ∈ (stored s').map SourceRecord.ip ↔
        .id i = remoteAddr.ipAddr ∨ .id i ∈ (stored s).map SourceRecord.ip := by
  obtain ⟨slot, hfind, -⟩ | ⟨slot, r, hr, hip, -⟩ := findSlot2_cases h.hashed h.keys remoteAddr
  · obtain ⟨s₁, slot₁, hroom, hroomy, hpools₁, hids₁⟩ :=
      makeRoom_spec h hfind habsent hfam (not_le.mpr hmax)
    obtain ⟨-, hinv₂, hunf₂, hn₂, hlast₂, hperm₂⟩ := storeRecord_inv hroomy name family
      (fun id hid => by rw [hpools₁]; exact hpool id hid) confId updates
    obtain ⟨s₃, hsaved, hinv₃, hunf₃, hids₃⟩ :=
      exists_ok_of_noBad (handleSavedAddressUpdate_spec hinv₂ [])
    refine ⟨s₃, ?_, hinv₃, fun id hid => hunf₃ id (hunf₂ id (hpools₁ ▸ hid)),
      hids₃.nSources.trans (hn₂.trans hids₁.nSources),
      hids₃.lastAddressId.trans (hlast₂.trans hids₁.lastAddressId), fun i => ?_⟩
    · rw [addSource, hfind]
      dsimp only
      rw [if_neg hname, if_neg (not_le.mpr hmax), if_neg hfam]
      simp [hroom, hroomy.unlocked, hsaved, bind, Except.bind]
    · rw [hids₃.ids, hperm₂.mem_iff, List.mem_cons]
      exact or_congr_right (hids₁.ids i)
  · exact absurd (List.mem_map.mpr ⟨r, mem_reduceOption_iff_entry.mpr ⟨slot, hr⟩, hip⟩) habsent

/-- **A source which is not added leaves everything as it is.** -/
theorem addSource_rejected {s : State} (h : Inv env s) (remoteAddr : RemoteAddress)
    (name : Option String) (family : Family) (poolId : Option ℕ) (confId : BitVec 32)
    (updates : List AddressUpdate)
    (hreject : remoteAddr.ipAddr ∈ (stored s).map SourceRecord.ip ∨ maxSources ≤ s.nSources ∨
      remoteAddr.ipAddr.family = .unspec ∨ (name = none ∧ ¬remoteAddr.ipAddr.isReal)) :
    ∃ status, addSource env s remoteAddr name family poolId confId updates = .ok (status, s) ∧
      status ≠ .success := by
  rw [addSource]
  obtain ⟨slot, hfind, habsent⟩ | ⟨slot, r, hr, hip, hfind⟩ :=
    findSlot2_cases h.hashed h.keys remoteAddr
  · rw [hfind]
    dsimp only
    split
    · exact ⟨_, rfl, by decide⟩
    next hname =>
        split
        · exact ⟨_, rfl, by decide⟩
        next hmax =>
            split
            · exact ⟨_, rfl, by decide⟩
            next hfam =>
                rcases hreject with hmem | hge | hunspec | hnone
                · exact absurd hmem habsent
                · exact absurd hge hmax
                · exact absurd hunspec hfam
                · exact absurd hnone hname
  · rw [hfind]
    by_cases hport : r.remoteAddr.port = remoteAddr.port
    · simp only [if_pos hport]
      exact ⟨_, rfl, by decide⟩
    · simp only [if_neg hport]
      exact ⟨_, rfl, by decide⟩

theorem addSource_spec {s : State} (h : Inv env s) (remoteAddr : RemoteAddress)
    (name : Option String) (family : Family) (poolId : Option ℕ)
    (hpool : ∀ id, poolId = some id → Unfilled id s.pools) (confId : BitVec 32)
    (updates : List AddressUpdate) :
    ∃ status s', addSource env s remoteAddr name family poolId confId updates =
      .ok (status, s') ∧ Inv env s' ∧ ∀ id, Unfilled id s.pools → Unfilled id s'.pools := by
  by_cases hreject : remoteAddr.ipAddr ∈ (stored s).map SourceRecord.ip ∨
      maxSources ≤ s.nSources ∨ remoteAddr.ipAddr.family = .unspec ∨
      (name = none ∧ ¬remoteAddr.ipAddr.isReal)
  · obtain ⟨status, hadd, -⟩ :=
      addSource_rejected h remoteAddr name family poolId confId updates hreject
    exact ⟨status, s, hadd, h, fun _ hid => hid⟩
  · simp only [not_or] at hreject
    obtain ⟨habsent, hmax, hfam, hname⟩ := hreject
    obtain ⟨s', hadd, hinv, hunf, -⟩ :=
      addSource_added h remoteAddr name hname family hpool confId updates habsent hfam
        (not_le.mp hmax)
    exact ⟨.success, s', hadd, hinv, hunf⟩

end Chrony.NtpSources
