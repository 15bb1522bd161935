import Chrony.NtpSources.Runs
import Chrony.NtpSources.ResolverRuns

/-!
# Failed Additions

`NSR_AddSourceByName` adds the name to the list of unresolved sources, and its pool, before it
adds the sources. When there is no room for all of them, the function returns an error and
everything that it has added is left behind.

## Main results

* `addSourceByName_atomic_iff`: when a failed addition leaves the tables as they were.
* `addSourceByName_leaves_sources`: a pool which is added to an almost full table.
-/

namespace Chrony.NtpSources

open Chrony.Lib

variable {env : Env}

/-- **The tables are the same**: the records, their number, the pools with their counters, and
the list of unresolved sources. -/
structure Untouched (s s' : State) : Prop where
  records : (stored s').Perm (stored s)
  nSources : s'.nSources = s.nSources
  pools : s'.pools = s.pools
  unresolvedSources : s'.unresolvedSources = s.unresolvedSources

/-- The number of sources added by `NSR_AddSourceByName` for a name. -/
def newSources (pool : Bool) (params : ℤ) : ℕ :=
  if pool then (min (2 * max 1 (min params maxPoolSources)) maxPoolSources).toNat else 1

/-- **There is room for new sources** with successive IDs as their addresses. -/
def Room (s : State) (first : BitVec 32) (n : ℕ) : Prop :=
  s.nSources + n ≤ maxSources ∧
    ∀ k < n, .id (first + BitVec.ofNat 32 k) ∉ (stored s).map SourceRecord.ip

/-! ### Configuration IDs -/

/-- If the ID at which the loop stops is in use, all those which it has passed are. -/
theorem mem_of_skipConfIds_mem {records : List SourceRecord} {turns : ℕ} {id : BitVec 32}
    (h : skipConfIds records (turns + 1) id ∈ records.map SourceRecord.confId) :
    ∀ k ≤ turns, id + 1 + BitVec.ofNat 32 k ∈ records.map SourceRecord.confId := by
  induction turns generalizing id with
  | zero =>
      intro k hk
      obtain rfl : k = 0 := Nat.le_zero.mp hk
      rw [skipConfIds, skipConfIds, ite_self] at h
      simpa using h
  | succ turns ih =>
      rw [skipConfIds] at h
      split at h
      next hused =>
          intro k hk
          cases k with
          | zero => simpa using hused
          | succ k =>
              have hsum : id + 1 + 1 + BitVec.ofNat 32 k = id + 1 + BitVec.ofNat 32 (k + 1) := by
                rw [BitVec.ofNat_add, BitVec.add_comm (BitVec.ofNat 32 k), ← BitVec.add_assoc]
                rfl
              exact hsum ▸ ih h k (by omega)
      next hfree => exact absurd h (by simpa using hfree)

/-- **A new configuration ID is not in use.** -/
theorem getNextConfId_fresh {s : State} (h : s.records.reduceOption.length < 2 ^ 32) :
    ∀ r ∈ s.records.reduceOption, r.confId ≠ (getNextConfId s).1 := by
  intro r hr heq
  set records := s.records.reduceOption
  -- all IDs which were passed are in use, and there are more of them than records
  have hmem : (getNextConfId s).1 ∈ records.map SourceRecord.confId :=
    heq ▸ List.mem_map_of_mem hr
  have hused := mem_of_skipConfIds_mem hmem
  set passed := (List.range (records.length + 1)).map
    fun k => s.lastConfId + 1 + BitVec.ofNat 32 k with hpassed
  have hnodup : passed.Nodup := by
    refine List.Nodup.map_on (fun i hi j hj hij => ?_) List.nodup_range
    have hi := List.mem_range.mp hi
    have hj := List.mem_range.mp hj
    have hnat := congrArg BitVec.toNat ((BitVec.add_right_inj _).mp hij)
    rwa [BitVec.toNat_ofNat, BitVec.toNat_ofNat, Nat.mod_eq_of_lt (by omega),
      Nat.mod_eq_of_lt (by omega)] at hnat
  have hsub : passed ⊆ records.map SourceRecord.confId := by
    intro id hid
    obtain ⟨k, hk, rfl⟩ := List.mem_map.mp hid
    exact hused k (Nat.lt_succ_iff.mp (List.mem_range.mp hk))
  have hle := (List.subperm_of_subset hnodup hsub).length_le
  rw [hpassed, List.length_map, List.length_range, List.length_map] at hle
  omega

/-! ### The loop -/

/-- What the loop adds. -/
structure Added (s s' : State) (first : BitVec 32) (n : ℕ) : Prop where
  nSources : s'.nSources = s.nSources + n
  lastAddressId : 0 < n → s'.lastAddressId + 1 = first + BitVec.ofNat 32 n
  ids : ∀ j, .id j ∈ (stored s').map SourceRecord.ip ↔
    .id j ∈ (stored s).map SourceRecord.ip ∨ ∃ k < n, j = first + BitVec.ofNat 32 k

theorem add_ofNat_succ (first : BitVec 32) (k : ℕ) :
    first + BitVec.ofNat 32 (k + 1) = first + 1 + BitVec.ofNat 32 k := by
  rw [BitVec.ofNat_add, BitVec.add_comm (BitVec.ofNat 32 k), ← BitVec.add_assoc]
  rfl

theorem add_ofNat_zero (first : BitVec 32) : first + BitVec.ofNat 32 0 = first :=
  BitVec.add_zero first

theorem add_ofNat_succ_ne (first : BitVec 32) {k : ℕ} (hk : k + 1 < 2 ^ 32) :
    first + BitVec.ofNat 32 (k + 1) ≠ first := by
  intro heq
  have hnat := congrArg BitVec.toNat heq
  rw [BitVec.toNat_add, BitVec.toNat_ofNat] at hnat
  have hlt := first.isLt
  omega

theorem exists_lt_succ_add_iff {first j : BitVec 32} {n : ℕ} :
    (∃ k < n + 1, j = first + BitVec.ofNat 32 k) ↔
      j = first ∨ ∃ k < n, j = first + 1 + BitVec.ofNat 32 k := by
  constructor
  · rintro ⟨k, hk, rfl⟩
    cases k with
    | zero => exact .inl (add_ofNat_zero first)
    | succ k => exact .inr ⟨k, by omega, add_ofNat_succ first k⟩
  · rintro (rfl | ⟨k, hk, rfl⟩)
    · exact ⟨0, by omega, (add_ofNat_zero _).symm⟩
    · exact ⟨k + 1, by omega, (add_ofNat_succ first k).symm⟩

/-- The room for one source more, when the first one is added. -/
theorem room_succ_iff {s s' : State} {first : BitVec 32} {n : ℕ} (hn : n < 2 ^ 32)
    (hcount : s'.nSources = s.nSources + 1)
    (hids : ∀ j, .id j ∈ (stored s').map SourceRecord.ip ↔
      .id j = IPAddr.id first ∨ .id j ∈ (stored s).map SourceRecord.ip)
    (hfirst : .id first ∉ (stored s).map SourceRecord.ip) :
    Room s first (n + 1) ↔ Room s' (first + 1) n := by
  have hsum : s.nSources + ((n + 1 : ℕ) : ℤ) ≤ maxSources ↔
      s'.nSources + (n : ℤ) ≤ maxSources := by
    rw [hcount]
    push_cast
    omega
  refine and_congr hsum ⟨fun h k hk hmem => ?_, fun h k hk hmem => ?_⟩
  · rw [← add_ofNat_succ] at hmem
    rcases (hids _).mp hmem with heq | hold
    · exact add_ofNat_succ_ne first (by omega) (IPAddr.id.inj heq)
    · exact h (k + 1) (by omega) hold
  · cases k with
    | zero =>
        rw [add_ofNat_zero] at hmem
        exact hfirst hmem
    | succ k =>
        rw [add_ofNat_succ] at hmem
        exact h k (by omega) ((hids _).mpr (.inr hmem))

/-- The ID of the next address in the loop. -/
def nextId (s : State) (i : ℕ) : BitVec 32 :=
  if i > 0 then s.lastAddressId + 1 else s.lastAddressId

theorem addSources_status (name : String) (family : Family) (port : BitVec 16)
    (poolId : Option ℕ) (confId : BitVec 32) (updates : ℕ → List AddressUpdate) {n : ℕ} (i : ℕ)
    {s : State} (h : Inv env s) (hpool : ∀ id, poolId = some id → Unfilled id s.pools)
    (hn : n ≤ 2 ^ 32) :
    ∃ status s', addSources env name family port poolId confId updates n i s = .ok (status, s') ∧
      (Room s (nextId s i) n ∧ status = .unresolvedName ∧ Added s s' (nextId s i) n ∨
        ¬Room s (nextId s i) n ∧ status = .tooManySources) := by
  induction n generalizing i s with
  | zero =>
      have hroom : Room s (nextId s i) 0 := ⟨by simpa using h.max, fun k hk => absurd hk (by omega)⟩
      refine ⟨_, s, rfl, .inl ⟨hroom, rfl, (add_zero _).symm, fun hlt => absurd hlt (by omega), ?_⟩⟩
      refine fun j => ⟨.inl, fun h => h.resolve_right ?_⟩
      rintro ⟨k, hk, -⟩
      exact Nat.not_lt_zero k hk
  | succ n ih =>
      rw [addSources]
      have hid : (if i > 0 then { s with lastAddressId := s.lastAddressId + 1 } else s) =
          { s with lastAddressId := nextId s i } := by
        rw [nextId]
        split <;> rfl
      rw [hid]
      have hrefreshed : Refreshed s { s with lastAddressId := nextId s i } :=
        ⟨rfl, rfl, rfl, rfl, rfl⟩
      have h₁ := hrefreshed.inv h
      by_cases hreject : IPAddr.id (nextId s i) ∈ (stored s).map SourceRecord.ip ∨
          maxSources ≤ s.nSources
      · -- the first source of the rest is refused
        obtain ⟨status, hadd, hstatus⟩ := addSource_rejected h₁ ⟨.id (nextId s i), port⟩
          (some name) family poolId confId (updates i) (hreject.imp_right .inl)
        refine ⟨.tooManySources, { s with lastAddressId := nextId s i }, ?_,
          .inr ⟨fun hroom => ?_, rfl⟩⟩
        · rw [hadd]
          exact if_pos hstatus
        · rcases hreject with hmem | hge
          · exact hroom.2 0 (by omega) (by rwa [add_ofNat_zero])
          · have hle := hroom.1
            push_cast at hle
            omega
      · rw [not_or, not_le] at hreject
        obtain ⟨hfree, hlt⟩ := hreject
        obtain ⟨s₂, hadd, hinv₂, hunf₂, hcount₂, hlast₂, hids₂⟩ := addSource_added h₁
          ⟨.id (nextId s i), port⟩ (some name) (fun h => absurd h.1 (by simp)) family hpool confId
          (updates i) hfree (by simp [IPAddr.family]) hlt
        have hnext : nextId s₂ (i + 1) = nextId s i + 1 := by
          rw [nextId, if_pos (Nat.succ_pos i), hlast₂]
        have hroom := room_succ_iff (n := n) (by omega) hcount₂ hids₂ hfree
        obtain ⟨status, s', hrest, hcases⟩ := ih (i + 1) hinv₂
          (fun id hid => hunf₂ id (hpool id hid)) (by omega)
        rw [hnext, ← hroom] at hcases
        refine ⟨status, s', ?_, ?_⟩
        · rw [hadd]
          exact hrest
        · refine hcases.imp_left ?_
          rintro ⟨hr, hstatus, hadded⟩
          refine ⟨hr, hstatus, ?_, fun _ => ?_, fun j => ?_⟩
          · rw [hadded.nSources, hcount₂]
            push_cast
            ring
          · rw [add_ofNat_succ]
            cases n with
            | zero =>
                cases hrest
                rw [add_ofNat_zero, hlast₂]
            | succ n => exact hadded.lastAddressId (Nat.succ_pos n)
          · rw [hadded.ids, hids₂, exists_lt_succ_add_iff, IPAddr.id.injEq]
            tauto

/-! ### Additions of names -/

theorem newSources_le (pool : Bool) (params : ℤ) : newSources pool params ≤ 2 ^ 32 := by
  rw [newSources, maxPoolSources]
  split <;> omega

theorem addPool_eq (s : State) (params : ℤ) :
    ∃ id pools, addPool s params = (id, { s with pools := pools }) := by
  rw [addPool]
  split
  · exact ⟨_, _, rfl⟩
  · exact ⟨_, _, rfl⟩

/-- **What is done for a name**: it is added to the list of unresolved sources in any case. -/
theorem addSourceByName_of_name {s : State} (h : Inv env s) (name : String)
    (hname : env.stringToIP name = none) (hgraph : name.toList.all isgraph = true)
    (family : Family) (port : BitVec 16) (pool : Bool) (params : ℤ)
    (updates : ℕ → List AddressUpdate) :
    ∃ status s', addSourceByName env s name family port pool params updates =
        .ok (status, s') ∧ s'.unresolvedSources.length = s.unresolvedSources.length + 1 ∧
      (Room s (s.lastAddressId + 1) (newSources pool params) ∧ status = .unresolvedName ∧
          Added s s' (s.lastAddressId + 1) (newSources pool params) ∨
        ¬Room s (s.lastAddressId + 1) (newSources pool params) ∧ status = .tooManySources) := by
  -- the loop starts with the same records
  have hloop : ∀ (s₁ : State) (poolId : Option ℕ) (confId : BitVec 32), Inv env s₁ →
      (∀ id, poolId = some id → Unfilled id s₁.pools) → s₁.records = s.records →
      s₁.nSources = s.nSources → s₁.lastAddressId = s.lastAddressId + 1 →
      s₁.unresolvedSources.length = s.unresolvedSources.length + 1 →
      ∃ status s', addSources env name family port poolId confId updates
          (newSources pool params) 0 s₁ = .ok (status, s') ∧
        s'.unresolvedSources.length = s.unresolvedSources.length + 1 ∧
        (Room s (s.lastAddressId + 1) (newSources pool params) ∧ status = .unresolvedName ∧
            Added s s' (s.lastAddressId + 1) (newSources pool params) ∨
          ¬Room s (s.lastAddressId + 1) (newSources pool params) ∧ status = .tooManySources) := by
    intro s₁ poolId confId hinv hpool hrecords hcount hlast hlist
    obtain ⟨status, s', hadd, hcases⟩ := addSources_status name family port poolId confId updates
      0 hinv hpool (newSources_le pool params)
    have hstored : stored s₁ = stored s := congrArg List.reduceOption hrecords
    have hnext : nextId s₁ 0 = s.lastAddressId + 1 := hlast
    have hroom : Room s₁ (nextId s₁ 0) (newSources pool params) ↔
        Room s (s.lastAddressId + 1) (newSources pool params) := by
      rw [Room, Room, hstored, hcount, hnext]
    rw [hroom, hnext] at hcases
    refine ⟨status, s', hadd, ?_, hcases.imp_left fun ⟨hr, hstatus, hadded⟩ => ⟨hr, hstatus, ?_⟩⟩
    · have hsame := (addSources_sameResolver name family port poolId confId updates
        (newSources pool params) 0 s₁).value hadd
      rw [hsame.unresolvedSources, hlist]
    · exact ⟨hcount ▸ hadded.nSources, hadded.lastAddressId, fun j => hstored ▸ hadded.ids j⟩
  have h₁ : Inv env { s with lastAddressId := s.lastAddressId + 1 } :=
    (show Refreshed s { s with lastAddressId := s.lastAddressId + 1 } from
      ⟨rfl, rfl, rfl, rfl, rfl⟩).inv h
  rw [addSourceByName, hname]
  dsimp only
  rw [if_neg (not_not.mpr hgraph)]
  cases pool with
  | false =>
      rw [if_pos Bool.false_ne_true]
      refine hloop _ none _ ?_ (fun id hid => by cases hid) rfl rfl rfl 
        (by simp [getNextConfId, appendUnresolvedSource])
      refine (getNextConfId_refreshed _).inv (Refreshed.inv ?_ h₁)
      exact ⟨rfl, rfl, rfl, rfl, rfl⟩
  | true =>
      rw [if_neg (not_not.mpr rfl)]
      obtain ⟨h₂, hunf⟩ := addPool_spec h₁ params
      obtain ⟨id, pools, hpool⟩ :=
        addPool_eq { s with lastAddressId := s.lastAddressId + 1 } params
      rw [hpool] at h₂ hunf ⊢
      refine hloop _ (some id) _ ?_ ?_ rfl rfl rfl (by simp [getNextConfId, appendUnresolvedSource])
      · refine (getNextConfId_refreshed _).inv (Refreshed.inv ?_ h₂)
        exact ⟨rfl, rfl, rfl, rfl, rfl⟩
      · intro id' hid'
        obtain rfl := Option.some.inj hid'
        exact hunf

/-- **When a failed addition leaves the tables as they were.** The name is an address or is not
valid, or there is room for all the sources of the name: then the addition does not fail. -/
theorem addSourceByName_atomic_iff {events : List Event} {s : State}
    (hrun : run env events = .ok s) (name : String) (family : Family) (port : BitVec 16)
    (pool : Bool) (params : ℤ) (updates : ℕ → List AddressUpdate) :
    (∀ status s', addSourceByName env s name family port pool params updates = .ok (status, s') →
      status ≠ .success → status ≠ .unresolvedName → Untouched s s') ↔
    env.stringToIP name ≠ none ∨ ¬name.toList.all isgraph ∨
      Room s (s.lastAddressId + 1) (newSources pool params) := by
  have h := (run_inv env events).value hrun
  cases hip : env.stringToIP name with
  | some ip =>
      refine iff_of_true (fun status s' hadd hsuccess _ => ?_) (.inl (by simp))
      rw [addSourceByName, hip] at hadd
      dsimp only at hadd
      split at hadd
      · cases hadd
        exact ⟨.refl _, rfl, rfl, rfl⟩
      · have h₁ := (getNextConfId_refreshed s).inv h
        by_cases hreject : ip ∈ (stored (getNextConfId s).2).map SourceRecord.ip ∨
            maxSources ≤ (getNextConfId s).2.nSources ∨ ip.family = .unspec ∨
            (some name = none ∧ ¬ip.isReal)
        · obtain ⟨status', hadd', -⟩ := addSource_rejected h₁ ⟨ip, port⟩ (some name) .unspec none
            (getNextConfId s).1 (updates 0) hreject
          rw [hadd'] at hadd
          cases hadd
          exact ⟨.refl _, rfl, rfl, rfl⟩
        · simp only [not_or] at hreject
          obtain ⟨habsent, hmax, hfam, hname⟩ := hreject
          obtain ⟨s₂, hadd', -⟩ := addSource_added h₁ ⟨ip, port⟩ (some name) hname .unspec
            (fun id (hid : none = some id) => by cases hid) (getNextConfId s).1 (updates 0) habsent
            hfam (not_le.mp hmax)
          rw [hadd'] at hadd
          cases hadd
          exact absurd rfl hsuccess
  | none =>
      by_cases hgraph : name.toList.all isgraph = true
      · obtain ⟨status, s', hadd, hlist, hcases⟩ :=
          addSourceByName_of_name h name hip hgraph family port pool params updates
        have hright : ((none : Option IPAddr) ≠ none ∨ ¬name.toList.all isgraph = true ∨
            Room s (s.lastAddressId + 1) (newSources pool params)) ↔
            Room s (s.lastAddressId + 1) (newSources pool params) := by
          simp [hgraph]
        rw [hright]
        constructor
        · intro hatomic
          by_contra hroom
          obtain ⟨hroom', -⟩ | ⟨-, rfl⟩ := hcases
          · exact hroom hroom'
          · have hsame := hatomic _ s' hadd (by decide) (by decide)
            rw [hsame.unresolvedSources] at hlist
            omega
        · intro hroom status₁ s₁ hadd₁ _ hunresolved
          rw [hadd] at hadd₁
          cases hadd₁
          obtain ⟨-, rfl, -⟩ | ⟨hno, -⟩ := hcases
          · exact absurd rfl hunresolved
          · exact absurd hroom hno
      · refine iff_of_true (fun status s' hadd _ _ => ?_) (.inr (.inl hgraph))
        rw [addSourceByName, hip] at hadd
        dsimp only at hadd
        rw [if_pos hgraph] at hadd
        cases hadd
        exact ⟨.refl _, rfl, rfl, rfl⟩

theorem addSourceByName_atomic_example : ∃ s, run exampleEnv exampleEvents = .ok s ∧
    ∀ status s', addSourceByName exampleEnv s "server" .unspec 123 false 1 (fun _ => []) =
      .ok (status, s') → status ≠ .success → status ≠ .unresolvedName → Untouched s s' := by
  obtain ⟨s, hs, hview⟩ := exists_ok_of_map_toOption (x := run exampleEnv exampleEvents)
    (f := fun s => (s.nSources, s.lastAddressId, (stored s).map SourceRecord.ip))
    (b := (1, 2, [.inet4 2])) (by decide +kernel)
  simp only [Prod.mk.injEq] at hview
  obtain ⟨hcount, hlast, hips⟩ := hview
  refine ⟨s, hs, (addSourceByName_atomic_iff hs "server" .unspec 123 false 1 fun _ => []).mpr ?_⟩
  refine .inr (.inr ⟨?_, fun k _ => ?_⟩)
  · rw [hcount]
    decide
  · rw [hips]
    simp

theorem run_concat (env : Env) (events : List Event) (event : Event) :
    run env (events ++ [event]) = run env events >>= fun s => step env s event := by
  rw [run, run, bind_assoc]
  refine bind_congr fun s => ?_
  rw [List.foldlM_append]
  refine bind_congr fun s' => ?_
  rw [List.foldlM_cons]
  exact bind_pure _

/-- Names are added until there are as many sources. -/
def fillingEvents (n : ℕ) : List Event :=
  List.replicate n (.addSourceByName "server" .unspec 123 false 1 fun _ => [])

/-- **The table can be filled** with unresolved sources. -/
theorem run_fillingEvents {n : ℕ} (hn : (n : ℤ) ≤ maxSources) :
    ∃ s, run exampleEnv (fillingEvents n) = .ok s ∧ s.nSources = n ∧
      s.lastAddressId = BitVec.ofNat 32 n ∧
      ∀ j, .id j ∈ (stored s).map SourceRecord.ip → 0 < j.toNat ∧ j.toNat ≤ n := by
  induction n with
  | zero =>
      obtain ⟨s, hs, hview⟩ := exists_ok_of_map_toOption (x := run exampleEnv (fillingEvents 0))
        (f := fun s => (s.nSources, s.lastAddressId, (stored s).map SourceRecord.ip))
        (b := (0, 0, [])) (by decide +kernel)
      simp only [Prod.mk.injEq] at hview
      obtain ⟨hcount, hlast, hips⟩ := hview
      exact ⟨s, hs, hcount, hlast, fun j hj => by simp [hips] at hj⟩
  | succ n ih =>
      rw [maxSources] at hn
      obtain ⟨s, hs, hcount, hlast, hids⟩ := ih (by rw [maxSources]; push_cast at hn; omega)
      have hfirst : s.lastAddressId + 1 = BitVec.ofNat 32 (n + 1) := by
        rw [hlast, BitVec.ofNat_add]
        rfl
      have hroom : Room s (s.lastAddressId + 1) (newSources false 1) := by
        refine ⟨?_, fun k hk hmem => ?_⟩
        · rw [hcount, maxSources]
          exact hn
        · obtain rfl : k = 0 := by
            rw [newSources, if_neg Bool.false_ne_true] at hk
            omega
          have hle := (hids _ hmem).2
          rw [add_ofNat_zero, hfirst, BitVec.toNat_ofNat] at hle
          push_cast at hn
          omega
      obtain ⟨status, s', hadd, -, hcases⟩ := addSourceByName_of_name
        ((run_inv exampleEnv _).value hs) "server" rfl (by decide) .unspec 123 false 1
        fun _ => []
      obtain ⟨-, -, hadded⟩ | ⟨hno, -⟩ := hcases
      swap
      · exact absurd hroom hno
      have hstep : step exampleEnv s
          (.addSourceByName "server" .unspec 123 false 1 fun _ => []) = .ok s' := by
        rw [step, hadd]
        rfl
      refine ⟨s', ?_, ?_, ?_, fun j hj => ?_⟩
      · rw [fillingEvents, List.replicate_succ', run_concat]
        exact bind_eq_ok_iff.mpr ⟨s, hs, hstep⟩
      · rw [hadded.nSources, hcount]
        rfl
      · have hnext := hadded.lastAddressId Nat.one_pos
        rw [hfirst] at hnext
        exact (BitVec.add_left_inj _).mp hnext
      · rcases (hadded.ids j).mp hj with hold | ⟨k, hk, rfl⟩
        · have hle := hids j hold
          omega
        · obtain rfl : k = 0 := Nat.lt_one_iff.mp hk
          rw [add_ofNat_zero, hfirst, BitVec.toNat_ofNat]
          push_cast at hn
          omega

/-- **A pool is left behind by a failed addition.** There is room for one of its two sources. -/
theorem addSourceByName_leaves_sources : ∃ s s',
    run exampleEnv (fillingEvents 65535) = .ok s ∧
    addSourceByName exampleEnv s "pool" .unspec 123 true 1 (fun _ => []) =
      .ok (.tooManySources, s') ∧ ¬Untouched s s' := by
  obtain ⟨s, hs, hcount, -, -⟩ := run_fillingEvents (n := 65535) (by decide)
  obtain ⟨status, s', hadd, hlist, hcases⟩ := addSourceByName_of_name
    ((run_inv exampleEnv _).value hs) "pool" rfl (by decide) .unspec 123 true 1
    fun _ => []
  obtain ⟨hroom, -⟩ | ⟨-, rfl⟩ := hcases
  · have hle := hroom.1
    rw [hcount] at hle
    exact absurd hle (by decide)
  · refine ⟨s, s', hs, hadd, fun hsame => ?_⟩
    rw [hsame.unresolvedSources] at hlist
    omega

end Chrony.NtpSources
