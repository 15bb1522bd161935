import Chrony.NtpSources.Resolver

/-!
# The Counters of the Pools

The counters of a pool as functions of the records: the number of the records of the
pool, of those with an unresolved address, and of those that are not tentative. The
lemmas of this module say that the counters stay right when a record is added, changed,
confirmed or removed, and that the number of confirmed sources stays within the limit.

The limit is reached only when no tentative record is left (`Settled`). This is broken
for a moment, between the confirmation of the last source and the removal of the
remaining tentative sources, for the one pool that they belong to.
-/

namespace Chrony.NtpSources

/-- A record of a pool. -/
def inPool (id : ℕ) (r : SourceRecord) : Bool :=
  r.poolId = some id

/-- A record of a pool whose address is not resolved. -/
def unresolvedIn (id : ℕ) (r : SourceRecord) : Bool :=
  inPool id r ∧ ¬ r.ip.isReal

/-- A record of a pool that is not tentative. -/
def confirmedIn (id : ℕ) (r : SourceRecord) : Bool :=
  inPool id r ∧ ¬ r.tentative

/-- The counters of a pool are right. -/
structure Counted (l : List SourceRecord) (id : ℕ) (p : SourcePool) : Prop where
  sources : p.sources = l.countP (inPool id)
  unresolved : p.unresolvedSources = l.countP (unresolvedIn id)
  confirmed : p.confirmedSources = l.countP (confirmedIn id)
  limit : p.confirmedSources ≤ p.maxSources

/-- The counters of all pools are right, and all records are of a known pool. -/
structure PoolsCounted (l : List SourceRecord) (pools : List SourcePool) : Prop where
  counted : ∀ id p, pools[id]? = some p → Counted l id p
  known : ∀ r ∈ l, ∀ id, r.poolId = some id → id < pools.length

/-- A pool with as many confirmed sources as possible has no tentative ones. The pool
`except` is left out. -/
def Settled (except : Option ℕ) (l : List SourceRecord) (pools : List SourcePool) : Prop :=
  ∀ id p, pools[id]? = some p → some id ≠ except → p.confirmedSources = p.maxSources →
    ∀ r ∈ l, r.poolId = some id → r.tentative = false

/-- What the counters depend on. -/
def SourceRecord.core (r : SourceRecord) : SourceRecord :=
  { r with lastResolving := 0 }

/-! ### Counting -/

theorem PoolsCounted.perm {l l' : List SourceRecord} {pools : List SourcePool}
    (h : PoolsCounted l pools) (hperm : l.Perm l') : PoolsCounted l' pools where
  counted id p hp := by
    obtain ⟨h1, h2, h3, h4⟩ := h.counted id p hp
    exact ⟨by rw [h1, hperm.countP_eq], by rw [h2, hperm.countP_eq], by rw [h3, hperm.countP_eq],
      h4⟩
  known r hr := h.known r (hperm.mem_iff.mpr hr)

theorem Settled.perm {except : Option ℕ} {l l' : List SourceRecord} {pools : List SourcePool}
    (h : Settled except l pools) (hperm : l.Perm l') : Settled except l' pools :=
  fun id p hp hne hmax r hr => h id p hp hne hmax r (hperm.mem_iff.mpr hr)

/-- The counters do not depend on the times of the last resolving. -/
theorem PoolsCounted.core {l l' : List SourceRecord} {pools : List SourcePool}
    (h : PoolsCounted l pools) (hcore : l.map SourceRecord.core = l'.map SourceRecord.core) :
    PoolsCounted l' pools := by
  have hcount : ∀ p : SourceRecord → Bool, (∀ r, p r.core = p r) → l.countP p = l'.countP p := by
    intro p hp
    have hmap := congrArg (List.countP p) hcore
    rw [List.countP_map, List.countP_map] at hmap
    have hfun : p ∘ SourceRecord.core = p := funext hp
    rwa [hfun] at hmap
  refine ⟨fun id p hp => ?_, fun r hr id hid => ?_⟩
  · obtain ⟨h1, h2, h3, h4⟩ := h.counted id p hp
    exact ⟨by rw [h1, hcount _ fun _ => rfl], by rw [h2, hcount _ fun _ => rfl],
      by rw [h3, hcount _ fun _ => rfl], h4⟩
  · obtain ⟨r', hr', heq⟩ := List.mem_map.mp (hcore ▸ List.mem_map_of_mem hr)
    have hpool : r'.core.poolId = r.core.poolId := by rw [heq]
    exact h.known r' hr' id (hpool.trans hid)

theorem Settled.core {except : Option ℕ} {l l' : List SourceRecord} {pools : List SourcePool}
    (h : Settled except l pools) (hcore : l.map SourceRecord.core = l'.map SourceRecord.core) :
    Settled except l' pools := by
  intro id p hp hne hmax r hr hid
  obtain ⟨r', hr', heq⟩ := List.mem_map.mp (hcore ▸ List.mem_map_of_mem hr)
  have hpool : r'.core.poolId = r.core.poolId := by rw [heq]
  have htent : r'.core.tentative = r.core.tentative := by rw [heq]
  exact htent.symm.trans (h id p hp hne hmax r' hr' (hpool.trans hid))

/-! ### Changes of one pool -/

/-- The pools after a change of the pool of a record. -/
def modifyPools (pools : List SourcePool) (poolId : Option ℕ) (f : SourcePool → SourcePool) :
    List SourcePool :=
  match poolId with
  | none => pools
  | some id => pools.modify id f

theorem length_modifyPools (pools : List SourcePool) (poolId : Option ℕ)
    (f : SourcePool → SourcePool) : (modifyPools pools poolId f).length = pools.length := by
  cases poolId <;> simp [modifyPools]

/-- A pool after the change of one pool is the same pool or the changed one. -/
theorem getElem?_modifyPools {pools : List SourcePool} {poolId : Option ℕ}
    {f : SourcePool → SourcePool} {id : ℕ} {p : SourcePool}
    (h : (modifyPools pools poolId f)[id]? = some p) :
    (poolId ≠ some id ∧ pools[id]? = some p) ∨
      ∃ q, poolId = some id ∧ pools[id]? = some q ∧ p = f q := by
  cases poolId with
  | none => exact .inl ⟨by simp, h⟩
  | some id' =>
      rw [modifyPools, List.getElem?_modify] at h
      by_cases hid : id' = id
      · subst hid
        simp only [if_true, Option.map_eq_map, Option.map_eq_some_iff] at h
        obtain ⟨q, hq, rfl⟩ := h
        exact .inr ⟨q, rfl, hq, rfl⟩
      · simp only [hid, if_false, Option.map_eq_map, Option.map_id_fun', id_eq] at h
        exact .inl ⟨by simpa using hid, h⟩

theorem countP_cons_int (p : SourceRecord → Bool) (r : SourceRecord) (l : List SourceRecord) :
    (((r :: l).countP p : ℕ) : ℤ) = l.countP p + if p r then 1 else 0 := by
  rw [List.countP_cons]
  split <;> simp

/-- A record of another pool does not count. -/
theorem counted_cons_iff {r : SourceRecord} {id : ℕ} (h : r.poolId ≠ some id)
    {l : List SourceRecord} {p : SourcePool} : Counted (r :: l) id p ↔ Counted l id p := by
  have h1 : inPool id r = false := by simp [inPool, h]
  have h2 : unresolvedIn id r = false := by simp [unresolvedIn, h1]
  have h3 : confirmedIn id r = false := by simp [confirmedIn, h1]
  constructor
  · rintro ⟨a, b, c, d⟩
    rw [countP_cons_int] at a b c
    exact ⟨by simpa [h1] using a, by simpa [h2] using b, by simpa [h3] using c, d⟩
  · rintro ⟨a, b, c, d⟩
    refine ⟨?_, ?_, ?_, d⟩
    · rw [countP_cons_int]
      simpa [h1] using a
    · rw [countP_cons_int]
      simpa [h2] using b
    · rw [countP_cons_int]
      simpa [h3] using c

/-- The counters of the pool of a record and of the other records. -/
theorem counted_cons_self {r : SourceRecord} {id : ℕ} (h : r.poolId = some id)
    {l : List SourceRecord} {p : SourcePool} :
    Counted (r :: l) id p ↔
      p.sources = l.countP (inPool id) + 1 ∧
      p.unresolvedSources = l.countP (unresolvedIn id) + (if r.ip.isReal then 0 else 1) ∧
      p.confirmedSources = l.countP (confirmedIn id) + (if r.tentative then 0 else 1) ∧
      p.confirmedSources ≤ p.maxSources := by
  have h1 : inPool id r = true := by simp [inPool, h]
  have h2 : (if unresolvedIn id r then (1 : ℤ) else 0) = if r.ip.isReal then 0 else 1 := by
    cases hreal : r.ip.isReal <;> simp [unresolvedIn, h1, hreal]
  have h3 : (if confirmedIn id r then (1 : ℤ) else 0) = if r.tentative then 0 else 1 := by
    cases htent : r.tentative <;> simp [confirmedIn, h1, htent]
  constructor
  · rintro ⟨a, b, c, d⟩
    rw [countP_cons_int] at a b c
    rw [if_pos h1] at a
    rw [h2] at b
    rw [h3] at c
    exact ⟨a, b, c, d⟩
  · rintro ⟨a, b, c, d⟩
    refine ⟨?_, ?_, ?_, d⟩
    · rw [countP_cons_int, if_pos h1, a]
    · rw [countP_cons_int, h2, b]
    · rw [countP_cons_int, h3, c]

/-- There are not more confirmed records than records. -/
theorem countP_confirmedIn_le (id : ℕ) (l : List SourceRecord) :
    l.countP (confirmedIn id) ≤ l.countP (inPool id) := by
  refine List.countP_mono_left fun r _ hr => ?_
  simp only [confirmedIn, Bool.decide_and, Bool.and_eq_true, decide_eq_true_eq] at hr
  exact hr.1

/-- If all records of a pool are confirmed, none is tentative. -/
theorem tentative_of_countP_eq {id : ℕ} {l : List SourceRecord}
    (h : l.countP (confirmedIn id) = l.countP (inPool id)) {r : SourceRecord} (hr : r ∈ l)
    (hid : r.poolId = some id) : r.tentative = false := by
  obtain ⟨rest, hperm⟩ : ∃ rest, l.Perm (r :: rest) :=
    ⟨l.erase r, List.perm_cons_erase hr⟩
  have hle := countP_confirmedIn_le id rest
  have h1 : inPool id r = true := by simp [inPool, hid]
  rw [hperm.countP_eq, hperm.countP_eq, List.countP_cons, List.countP_cons, if_pos h1] at h
  by_contra htent
  have h2 : confirmedIn id r = false := by simp [confirmedIn, htent]
  simp only [h2, Bool.false_eq_true, if_false] at h
  omega

/-! ### Changes of the records -/

section Changes

variable {l rest : List SourceRecord} {pools : List SourcePool} {r : SourceRecord}

/-- A pool that can get more confirmed sources. -/
def Unfilled (id : ℕ) (pools : List SourcePool) : Prop :=
  ∃ p, pools[id]? = some p ∧ p.confirmedSources < p.maxSources

/-- A change of a record and of its pool keeps the other pools as they are. -/
theorem poolsCounted_replace (h : PoolsCounted (r :: rest) pools) {r' : SourceRecord}
    {f : SourcePool → SourcePool} (hpool : r'.poolId = r.poolId)
    (hf : ∀ id p, r.poolId = some id → Counted (r :: rest) id p → Counted (r' :: rest) id (f p)) :
    PoolsCounted (r' :: rest) (modifyPools pools r.poolId f) := by
  refine ⟨fun id p hp => ?_, fun r'' hr'' id hid => ?_⟩
  · rcases getElem?_modifyPools hp with ⟨hne, hp⟩ | ⟨q, heq, hq, rfl⟩
    · rw [counted_cons_iff (by rwa [hpool])]
      exact (counted_cons_iff hne).mp (h.counted id p hp)
    · exact hf id q heq (h.counted id q hq)
  · rw [length_modifyPools]
    rcases List.mem_cons.mp hr'' with rfl | hr''
    · exact h.known r List.mem_cons_self id (by rw [← hpool, hid])
    · exact h.known r'' (List.mem_cons_of_mem _ hr'') id hid

/-- A new record. -/
theorem poolsCounted_add (h : PoolsCounted l pools) (htent : r.tentative = true)
    (hknown : ∀ id, r.poolId = some id → id < pools.length) :
    PoolsCounted (r :: l) (modifyPools pools r.poolId (SourcePool.add r.ip)) := by
  refine ⟨fun id p hp => ?_, fun r' hr' id hid => ?_⟩
  · rcases getElem?_modifyPools hp with ⟨hne, hp⟩ | ⟨q, heq, hq, rfl⟩
    · exact (counted_cons_iff hne).mpr (h.counted id p hp)
    · obtain ⟨h1, h2, h3, h4⟩ := h.counted id q hq
      rw [counted_cons_self heq]
      refine ⟨by rw [← h1]; rfl, ?_, by simp [SourcePool.add, h3, htent], h4⟩
      cases hreal : r.ip.isReal <;> simp [SourcePool.add, h2, hreal]
  · rw [length_modifyPools]
    rcases List.mem_cons.mp hr' with rfl | hr'
    · exact hknown id hid
    · exact h.known r' hr' id hid

theorem settled_add (h : Settled none l pools)
    (hopen : ∀ id, r.poolId = some id → Unfilled id pools) :
    Settled none (r :: l) (modifyPools pools r.poolId (SourcePool.add r.ip)) := by
  intro id p hp _ hmax r' hr' hid
  rcases getElem?_modifyPools hp with ⟨hne, hp⟩ | ⟨q, heq, hq, rfl⟩
  · rcases List.mem_cons.mp hr' with rfl | hr'
    · exact absurd hid hne
    · exact h id p hp (by simp) hmax r' hr' hid
  · obtain ⟨q', hq', hlt⟩ := hopen id heq
    rw [hq] at hq'
    obtain rfl := Option.some.inj hq'
    simp only [SourcePool.add] at hmax
    omega

@[simp] theorem SourceRecord.changeAddress_ip (r : SourceRecord) (new : RemoteAddress)
    (replacement : Bool) : (r.changeAddress new replacement).ip = new.ipAddr := rfl

@[simp] theorem SourceRecord.changeAddress_tentative (r : SourceRecord) (new : RemoteAddress)
    (replacement : Bool) : (r.changeAddress new replacement).tentative = true := rfl

/-- A change of an address to a real one. -/
theorem poolsCounted_change (h : PoolsCounted (r :: rest) pools) {new : RemoteAddress}
    (hnew : new.ipAddr.isReal = true) (replacement : Bool) :
    PoolsCounted (r.changeAddress new replacement :: rest)
      (modifyPools pools r.poolId (SourcePool.changeAddress r.ip new.ipAddr r.tentative)) := by
  refine poolsCounted_replace h rfl fun id p heq hp => ?_
  obtain ⟨h1, h2, h3, h4⟩ := (counted_cons_self heq).mp hp
  have heq' : (r.changeAddress new replacement).poolId = some id := heq
  rw [counted_cons_self heq']
  refine ⟨h1, ?_, ?_, ?_⟩
  · simp only [SourcePool.changeAddress, SourceRecord.changeAddress_ip, hnew, and_true, if_true]
    split <;> simp_all
  · simp only [SourcePool.changeAddress, SourceRecord.changeAddress_tentative, if_true]
    split <;> simp_all
  · simp only [SourcePool.changeAddress]
    split <;> omega

theorem settled_change (hcount : PoolsCounted (r :: rest) pools)
    (h : Settled none (r :: rest) pools) (new : RemoteAddress) (replacement : Bool) :
    Settled none (r.changeAddress new replacement :: rest)
      (modifyPools pools r.poolId (SourcePool.changeAddress r.ip new.ipAddr r.tentative)) := by
  intro id p hp _ hmax r' hr' hid
  rcases getElem?_modifyPools hp with ⟨hne, hp⟩ | ⟨q, heq, hq, rfl⟩
  · rcases List.mem_cons.mp hr' with rfl | hr'
    · exact absurd hid hne
    · exact h id p hp (by simp) hmax r' (List.mem_cons_of_mem _ hr') hid
  · -- the limit cannot be reached, as the changed record is tentative
    have hlimit := (hcount.counted id q hq).limit
    cases htent : r.tentative with
    | true =>
        have := h id q hq (by simp) (by simpa [SourcePool.changeAddress, htent] using hmax) r
          List.mem_cons_self heq
        rw [htent] at this
        cases this
    | false =>
        simp only [SourcePool.changeAddress, htent, Bool.false_eq_true, if_false] at hmax
        omega

/-- A pool stays unfilled if its change does not fill it. -/
theorem unfilled_modify {id : ℕ} (h : Unfilled id pools) {f : SourcePool → SourcePool}
    (hf : ∀ p, p.confirmedSources < p.maxSources → (f p).confirmedSources < (f p).maxSources)
    (poolId : Option ℕ) : Unfilled id (modifyPools pools poolId f) := by
  obtain ⟨p, hp, hlt⟩ := h
  cases poolId with
  | none => exact ⟨p, hp, hlt⟩
  | some id' =>
      by_cases hid : id' = id
      · subst hid
        exact ⟨f p, by simp [modifyPools, hp], hf p hlt⟩
      · exact ⟨p, by simpa [modifyPools, List.getElem?_modify, hid] using hp, hlt⟩

theorem unfilled_change {id : ℕ} (h : Unfilled id pools) (old new : IPAddr) (tentative : Bool)
    (poolId : Option ℕ) :
    Unfilled id (modifyPools pools poolId (SourcePool.changeAddress old new tentative)) := by
  refine unfilled_modify h (fun p hlt => ?_) poolId
  simp only [SourcePool.changeAddress]
  split <;> omega

/-- A removal of a record. -/
theorem poolsCounted_remove (h : PoolsCounted (r :: rest) pools) :
    PoolsCounted rest (modifyPools pools r.poolId (SourcePool.remove r)) := by
  refine ⟨fun id p hp => ?_, fun r' hr' id hid => ?_⟩
  · rcases getElem?_modifyPools hp with ⟨hne, hp⟩ | ⟨q, heq, hq, rfl⟩
    · exact (counted_cons_iff hne).mp (h.counted id p hp)
    · obtain ⟨h1, h2, h3, h4⟩ := (counted_cons_self heq).mp (h.counted id q hq)
      have hle := countP_confirmedIn_le id rest
      refine ⟨?_, ?_, ?_, ?_⟩
      · simp only [SourcePool.remove]
        omega
      · simp only [SourcePool.remove]
        split <;> simp_all
      · simp only [SourcePool.remove]
        split <;> simp_all
      · simp only [SourcePool.remove]
        split <;> split <;> simp_all
        omega
  · rw [length_modifyPools]
    exact h.known r' (List.mem_cons_of_mem _ hr') id hid

theorem settled_remove (hcount : PoolsCounted (r :: rest) pools) {except : Option ℕ}
    (h : Settled except (r :: rest) pools) :
    Settled except rest (modifyPools pools r.poolId (SourcePool.remove r)) := by
  intro id p hp hex hmax r' hr' hid
  rcases getElem?_modifyPools hp with ⟨hne, hp⟩ | ⟨q, heq, hq, rfl⟩
  · exact h id p hp hex hmax r' (List.mem_cons_of_mem _ hr') hid
  · obtain ⟨h1, h2, h3, h4⟩ := (counted_cons_self heq).mp (hcount.counted id q hq)
    by_cases hlow : q.maxSources > q.sources - 1
    · -- the limit is lowered to the number of records, which are all confirmed then
      refine tentative_of_countP_eq ?_ hr' hid
      simp only [SourcePool.remove, if_pos hlow] at hmax
      split at hmax <;> simp_all
    · simp only [SourcePool.remove, if_neg hlow] at hmax
      split at hmax
      · next htent =>
          have := h id q hq hex hmax r List.mem_cons_self heq
          rw [htent] at this
          cases this
      · omega

/-- A confirmation of a tentative record. -/
theorem poolsCounted_confirm (h : PoolsCounted (r :: rest) pools)
    (hsettled : Settled none (r :: rest) pools) (htent : r.tentative = true) :
    PoolsCounted (r.confirm :: rest) (modifyPools pools r.poolId
      SourcePool.confirm) := by
  refine ⟨fun id p hp => ?_, fun r' hr' id hid => ?_⟩
  · rcases getElem?_modifyPools hp with ⟨hne, hp⟩ | ⟨q, heq, hq, rfl⟩
    · exact (counted_cons_iff (by exact hne)).mpr ((counted_cons_iff hne).mp (h.counted id p hp))
    · obtain ⟨h1, h2, h3, h4⟩ := (counted_cons_self heq).mp (h.counted id q hq)
      have hne : q.confirmedSources ≠ q.maxSources := by
        intro hmax
        have := hsettled id q hq (by simp) hmax r List.mem_cons_self heq
        rw [htent] at this
        cases this
      have heq' : r.confirm.poolId = some id := heq
      rw [counted_cons_self heq']
      refine ⟨h1, h2, ?_, ?_⟩
      · simp [SourcePool.confirm, SourceRecord.confirm, h3, htent]
      · simp only [SourcePool.confirm]
        omega
  · rw [length_modifyPools]
    rcases List.mem_cons.mp hr' with rfl | hr'
    · exact h.known r List.mem_cons_self id hid
    · exact h.known r' (List.mem_cons_of_mem _ hr') id hid

theorem settled_confirm (h : Settled none (r :: rest) pools) :
    Settled r.poolId (r.confirm :: rest) (modifyPools pools r.poolId
      SourcePool.confirm) := by
  intro id p hp hex hmax r' hr' hid
  rcases getElem?_modifyPools hp with ⟨hne, hp⟩ | ⟨q, heq, hq, rfl⟩
  · rcases List.mem_cons.mp hr' with rfl | hr'
    · rfl
    · exact h id p hp (by simp) hmax r' (List.mem_cons_of_mem _ hr') hid
  · exact absurd heq.symm hex

end Changes

end Chrony.NtpSources
