import Chrony.Lib.Run
import Chrony.NtpSources.Resolver

/-!
# The Hash Table of the Source Addresses

The records of the sources are found by their addresses: in every reachable state the
table has a size that is a power of two and at least twice the number of the sources,
no address is stored twice, and `find_slot` finds exactly the stored addresses.

The operations are described by what they do to the multiset of the stored records
(`stored`) and to the pools, so that other properties of the records do not have to look
into the slots again.

## Main results

* `rehashRecords_spec`: a rehash stores the same records, and does not fail.
* `changeSourceAddress_spec`, `addSource_spec`: what the operations on a record do.
* `findSlot_stored`, `findSlot_absent`, `findSlot_empty`: what `find_slot` returns.
-/

namespace Chrony.NtpSources

open Chrony.Lib Chrony.Lib.OpenAddressing

variable {env : Env}

/-- The records that are stored in the table. -/
def stored (s : State) : List SourceRecord :=
  s.records.reduceOption

/-! ### The probe sequence -/

theorem probe_lt {size : ℕ} (h : 0 < size) (ip : IPAddr) (i : ℕ) : probe env size ip i < size :=
  Nat.mod_lt _ h

/-- The 32-bit arithmetic does not overflow in the probe sequence, as there are at most
65536 sources. -/
theorem toNat_triangular {i : ℕ} (hi : i < 2 ^ 16) :
    ((BitVec.ofNat 32 i + BitVec.ofNat 32 i * BitVec.ofNat 32 i) / 2).toNat =
      (i + i * i) / 2 := by
  have hmul : i * i ≤ (2 ^ 16 - 1) * (2 ^ 16 - 1) := Nat.mul_le_mul (by omega) (by omega)
  have h1 : i % 2 ^ 32 = i := Nat.mod_eq_of_lt (by omega)
  have h2 : i * i % 2 ^ 32 = i * i := Nat.mod_eq_of_lt (by omega)
  have h3 : (i + i * i) % 2 ^ 32 = i + i * i := Nat.mod_eq_of_lt (by omega)
  simp only [BitVec.toNat_udiv, BitVec.toNat_add, BitVec.toNat_mul, BitVec.toNat_ofNat, h1, h2,
    h3]
  rfl

/-- The probe sequence does not repeat in the half of the table that is probed. -/
theorem probe_injective {k : ℕ} (hk : k ≤ 17) (ip : IPAddr) :
    ∀ i < 2 ^ k / 2, ∀ j < 2 ^ k / 2,
      probe env (2 ^ k) ip i = probe env (2 ^ k) ip j → i = j := by
  intro i hi j hj h
  have hpow : 2 ^ k ≤ 2 ^ 17 := Nat.pow_le_pow_right (by omega) hk
  have hdvd : 2 ^ k ∣ 2 ^ 32 := pow_dvd_pow 2 (by omega)
  simp only [probe, BitVec.toNat_add, Nat.mod_mod_of_dvd _ hdvd] at h
  rw [toNat_triangular (by omega), toNat_triangular (by omega)] at h
  exact triangular_injective (by omega) (by omega) h

/-! ### Tables -/

/-- A table that is large enough for `n` sources and in which all records are found. -/
structure Hashed (env : Env) (records : List (Option SourceRecord)) (n : ℤ) : Prop where
  size : ∃ k ≤ 17, records.length = 2 ^ k
  room : n * 2 ≤ records.length
  placed : Placed (probe env records.length) (records.length / 2) SourceRecord.ip records

/-- The addresses of the records are valid and pairwise different. -/
structure Keys (l : List SourceRecord) : Prop where
  nodup : (l.map SourceRecord.ip).Nodup
  family : ∀ r ∈ l, r.ip.family ≠ .unspec

theorem Keys.perm {l l' : List SourceRecord} (h : Keys l) (hperm : l.Perm l') : Keys l' where
  nodup := (hperm.map _).nodup_iff.mp h.nodup
  family r hr := h.family r (hperm.mem_iff.mpr hr)

/-- Only the addresses in the slots matter for the search. -/
theorem Hashed.congr {records records' : List (Option SourceRecord)} {n : ℤ}
    (h : Hashed env records n) (hlen : records'.length = records.length)
    (hip : ∀ slot, (entry records' slot).map SourceRecord.ip =
      (entry records slot).map SourceRecord.ip) : Hashed env records' n where
  size := by rw [hlen]; exact h.size
  room := by rw [hlen]; exact h.room
  placed := by rw [hlen]; exact placed_congr h.placed hip

/-- A list of records with one more of them has good keys if its address is new. -/
theorem keys_cons_iff {r : SourceRecord} {l : List SourceRecord} :
    Keys (r :: l) ↔ r.ip ∉ l.map SourceRecord.ip ∧ r.ip.family ≠ .unspec ∧ Keys l := by
  constructor
  · intro h
    obtain ⟨hnot, hnodup⟩ := List.nodup_cons.mp h.nodup
    exact ⟨hnot, h.family r List.mem_cons_self, hnodup,
      fun r' hr' => h.family r' (List.mem_cons_of_mem _ hr')⟩
  · rintro ⟨hnot, hfam, h⟩
    refine ⟨List.nodup_cons.mpr ⟨hnot, h.nodup⟩, fun r' hr' => ?_⟩
    rcases List.mem_cons.mp hr' with rfl | hr'
    · exact hfam
    · exact h.family r' hr'

theorem findSlot_eq (s : State) {ip : IPAddr} (h : ip.family ≠ .unspec) :
    findSlot env s ip =
      search (probe env s.records.length ip) (fun r => r.ip = ip) s.records
        (s.records.length / 2) 0 0 := by
  simp only [findSlot, if_neg h, IPAddr.compareIPs_eq_zero_iff]

section Find

variable {s : State} {n : ℤ}

/-- A stored address is found in the slot that holds it. -/
theorem findSlot_stored (h : Hashed env s.records n) (hkeys : Keys (stored s)) {slot : ℕ}
    {r : SourceRecord} (hr : entry s.records slot = some r) :
    findSlot env s r.ip = (true, slot) := by
  obtain ⟨k, hk, hsize⟩ := h.size
  rw [findSlot_eq s (hkeys.family r (mem_reduceOption_iff_entry.mpr ⟨slot, hr⟩))]
  refine search_stored h.placed (distinct_of_nodup hkeys.nodup) (fun ip => ?_) hr 0
  rw [hsize]
  exact probe_injective hk ip

/-- Another address is not found. -/
theorem findSlot_absent {ip : IPAddr} (h : ip ∉ (stored s).map SourceRecord.ip) :
    (findSlot env s ip).1 = false := by
  by_cases hfam : ip.family = .unspec
  · simp [findSlot, hfam]
  · rw [findSlot_eq s hfam]
    refine search_absent (fun slot r hr => ?_) _ _ _
    by_contra hip
    exact h (List.mem_map.mpr
      ⟨r, mem_reduceOption_iff_entry.mpr ⟨slot, hr⟩, by simpa using hip⟩)

/-- The slot that is found holds the address. -/
theorem findSlot_true {ip : IPAddr} {slot : ℕ} (hfind : findSlot env s ip = (true, slot)) :
    ∃ r, entry s.records slot = some r ∧ r.ip = ip := by
  by_cases hfam : ip.family = .unspec
  · simp [findSlot, hfam] at hfind
  · rw [findSlot_eq s hfam] at hfind
    obtain ⟨r, hr, hip⟩ := search_true hfind
    exact ⟨r, hr, by simpa using hip⟩

theorem findSlot_false (h : Hashed env s.records n) (hkeys : Keys (stored s)) {ip : IPAddr}
    {slot : ℕ} (hfind : findSlot env s ip = (false, slot)) :
    ip ∉ (stored s).map SourceRecord.ip := by
  intro hip
  obtain ⟨r, hr, rfl⟩ := List.mem_map.mp hip
  obtain ⟨slot', hslot'⟩ := mem_reduceOption_iff_entry.mp hr
  rw [findSlot_stored h hkeys hslot'] at hfind
  cases hfind

/-- The slot for another address is the first empty one of its probe sequence, if less
than half of the table is in use. -/
theorem findSlot_probe (hsize : ∃ k ≤ 17, s.records.length = 2 ^ k) {ip : IPAddr}
    (hfam : ip.family ≠ .unspec) (habsent : ip ∉ (stored s).map SourceRecord.ip)
    (hroom : (stored s).length < s.records.length / 2) :
    ∃ j < s.records.length / 2, findSlot env s ip = (false, probe env s.records.length ip j) ∧
      entry s.records (probe env s.records.length ip j) = none ∧
      ∀ i < j, ∃ r, entry s.records (probe env s.records.length ip i) = some r := by
  obtain ⟨k, hk, hsize⟩ := hsize
  have hfalse : (findSlot env s ip).1 = false := findSlot_absent habsent
  rw [findSlot_eq s hfam] at hfalse ⊢
  have hinj : ∀ i < s.records.length / 2, ∀ j < s.records.length / 2,
      probe env s.records.length ip i = probe env s.records.length ip j → i = j := by
    rw [hsize]
    exact probe_injective hk ip
  have hkey : ∀ slot (r : SourceRecord), entry s.records slot = some r →
      decide (r.ip = ip) = false := by
    intro slot r hr
    by_contra hip
    exact habsent (List.mem_map.mpr
      ⟨r, mem_reduceOption_iff_entry.mpr ⟨slot, hr⟩, by simpa using hip⟩)
  obtain ⟨j, hj, hslot, hnone, hbefore⟩ := search_empty hinj hkey hroom 0
  exact ⟨j, hj, Prod.ext hfalse hslot, hnone, hbefore⟩

/-- The slot for another address is empty if less than half of the table is in use. -/
theorem findSlot_empty (hsize : ∃ k ≤ 17, s.records.length = 2 ^ k) {ip : IPAddr}
    (hfam : ip.family ≠ .unspec) (habsent : ip ∉ (stored s).map SourceRecord.ip)
    (hfree : 2 * (stored s).length < s.records.length) :
    s.records[(findSlot env s ip).2]? = some none := by
  obtain ⟨k, hk, hlen⟩ := hsize
  cases k with
  | zero =>
      -- a table with one slot is not searched
      obtain ⟨o, ho⟩ := List.length_eq_one_iff.mp hlen
      have hnil : stored s = [] := List.length_eq_zero_iff.mp (by omega)
      rw [stored, ho] at hnil
      rw [findSlot_eq s hfam, ho]
      cases o with
      | none => rfl
      | some r => cases hnil
  | succ k =>
      have hroom : (stored s).length < s.records.length / 2 := by
        rw [hlen, pow_succ] at hfree ⊢
        omega
      obtain ⟨j, hj, hfind, hnone, -⟩ : ∃ j < s.records.length / 2,
          findSlot env s ip = (false, probe env s.records.length ip j) ∧ _ :=
        findSlot_probe ⟨k + 1, hk, hlen⟩ hfam habsent hroom
      rw [hfind]
      exact getElem?_of_entry_none (probe_lt (by omega) _ _) hnone

theorem findSlot2_of_false {addr : RemoteAddress} {slot : ℕ}
    (h : findSlot env s addr.ipAddr = (false, slot)) :
    findSlot2 env s addr = (.nothing, slot) := by
  rw [findSlot2, h]

/-- The results of `find_slot2`. -/
theorem findSlot2_cases (h : Hashed env s.records n) (hkeys : Keys (stored s))
    (addr : RemoteAddress) :
    (∃ slot, findSlot2 env s addr = (.nothing, slot) ∧
      addr.ipAddr ∉ (stored s).map SourceRecord.ip) ∨
    ∃ slot r, entry s.records slot = some r ∧ r.ip = addr.ipAddr ∧
      findSlot2 env s addr =
        (if r.remoteAddr.port = addr.port then .ipPort else .ip, slot) := by
  rw [findSlot2]
  rcases hfind : findSlot env s addr.ipAddr with ⟨found, slot⟩
  cases found with
  | false => exact .inl ⟨slot, rfl, findSlot_false h hkeys hfind⟩
  | true =>
      obtain ⟨r, hr, hip⟩ := findSlot_true hfind
      refine .inr ⟨slot, r, hr, hip, ?_⟩
      simp only [hr]

end Find

/-! ### Rehashing -/

theorem newSize_spec {n : ℤ} (hn : n ≤ maxSources) {turns j : ℕ} (hj : j ≤ 17)
    (hturns : 17 ≤ j + turns) :
    ∃ k ≤ 17, newSize n turns (2 ^ j) = 2 ^ k ∧ n * 2 ≤ (2 ^ k : ℕ) := by
  have hmax : n * 2 ≤ (2 ^ 17 : ℕ) := by
    rw [maxSources] at hn
    norm_num
    omega
  induction turns generalizing j with
  | zero =>
      obtain rfl : j = 17 := by omega
      exact ⟨17, le_rfl, rfl, hmax⟩
  | succ turns ih =>
      rw [newSize]
      by_cases hcheck : checkHashtableSize n (2 ^ j) = true
      · rw [if_pos hcheck]
        exact ⟨j, hj, rfl, by simpa [checkHashtableSize] using hcheck⟩
      · rw [if_neg hcheck, ← pow_succ]
        have hj17 : j ≠ 17 := by
          rintro rfl
          exact hcheck (by simpa [checkHashtableSize] using hmax)
        exact ih (by omega) (by omega)

/-- The loop of `rehash_records` stores every record in an empty slot. -/
theorem rehash_foldlM (l : List (Option SourceRecord)) {s : State}
    (hsize : ∃ k ≤ 17, s.records.length = 2 ^ k)
    (hplaced : Placed (probe env s.records.length) (s.records.length / 2) SourceRecord.ip
      s.records)
    (hkeys : Keys (l.reduceOption ++ stored s))
    (hroom : l.reduceOption.length + (stored s).length ≤ s.records.length / 2) :
    ∃ records, l.foldlM (rehashRecord env) s = .ok { s with records := records } ∧
      records.length = s.records.length ∧
      Placed (probe env s.records.length) (s.records.length / 2) SourceRecord.ip records ∧
      records.reduceOption.Perm (l.reduceOption ++ stored s) := by
  induction l generalizing s with
  | nil => exact ⟨s.records, rfl, rfl, hplaced, List.Perm.refl _⟩
  | cons o l ih =>
      cases o with
      | none =>
          rw [List.reduceOption_cons_of_none] at hkeys hroom ⊢
          exact ih hsize hplaced hkeys hroom
      | some r =>
          rw [List.reduceOption_cons_of_some] at hkeys hroom ⊢
          rw [List.cons_append] at hkeys ⊢
          obtain ⟨habsent, hfam, hkeys'⟩ := keys_cons_iff.mp hkeys
          rw [List.map_append, List.mem_append, not_or] at habsent
          rw [List.length_cons] at hroom
          obtain ⟨j, hj, hfind, hnone, hbefore⟩ : ∃ j < s.records.length / 2,
              findSlot env s r.ip = (false, probe env s.records.length r.ip j) ∧ _ :=
            findSlot_probe hsize hfam habsent.2 (by omega)
          have hslot : probe env s.records.length r.ip j < s.records.length :=
            probe_lt (by omega) _ _
          have hperm := reduceOption_set_none hslot hnone r
          have hstep : rehashRecord env s (some r) =
              .ok { s with records := s.records.set (probe env s.records.length r.ip j) r } := by
            simp only [rehashRecord, findSlot2_of_false hfind]
          set s' : State :=
            { s with records := s.records.set (probe env s.records.length r.ip j) r } with hs'
          have hlen' : s'.records.length = s.records.length := List.length_set
          have hplaced' : Placed (probe env s.records.length) (s.records.length / 2)
              SourceRecord.ip s'.records := placed_set hplaced hj hslot hnone hbefore
          have hcount : (stored s').length = (stored s).length + 1 := hperm.length_eq
          rw [← hlen'] at hplaced' hsize
          obtain ⟨records, hfold, hlen, hplaced'', hperm'⟩ := ih hsize hplaced'
            (hkeys.perm (List.perm_middle.symm.trans (hperm.symm.append_left _))) (by omega)
          rw [hlen'] at hlen hplaced''
          refine ⟨records, ?_, hlen, hplaced'', ?_⟩
          · rw [List.foldlM_cons, hstep]
            exact hfold
          · exact hperm'.trans ((hperm.append_left _).trans List.perm_middle)

/-- **A rehash stores the same records**, in a table that is large enough. -/
theorem rehashRecords_spec (env : Env) {s : State} (hlock : s.recordLock = false)
    (hkeys : Keys (stored s))
    (hcount : ((stored s).length : ℤ) ≤ s.nSources) (hmax : s.nSources ≤ maxSources) :
    ∃ records, rehashRecords env s = .ok { s with records := records } ∧
      Hashed env records s.nSources ∧ records.reduceOption.Perm (stored s) := by
  obtain ⟨k, hk, hsize, hroom⟩ :=
    newSize_spec hmax (Nat.zero_le 17) (show 17 ≤ 0 + 32 by omega)
  rw [pow_zero] at hsize
  have hempty : ∀ slot : ℕ, entry (List.replicate (2 ^ k) (none : Option SourceRecord)) slot =
      none := by
    intro slot
    by_cases h : slot < 2 ^ k
    · simp [entry, h]
    · simp [entry, h]
  have hnil : (List.replicate (2 ^ k) (none : Option SourceRecord)).reduceOption = [] :=
    List.reduceOption_replicate_none
  set s₀ : State := { s with records := List.replicate (2 ^ k) none } with hs₀
  have hlen₀ : s₀.records.length = 2 ^ k := List.length_replicate
  have hstored₀ : stored s₀ = [] := hnil
  have hplaced₀ : Placed (probe env s₀.records.length) (s₀.records.length / 2) SourceRecord.ip
      s₀.records := by
    intro slot r hr
    rw [hempty] at hr
    cases hr
  obtain ⟨records, hfold, hlen, hplaced, hperm⟩ := rehash_foldlM s.records ⟨k, hk, hlen₀⟩ hplaced₀
    (by rw [hstored₀, List.append_nil]; exact hkeys)
    (by
      rw [hstored₀, hlen₀, List.length_nil]
      change (stored s).length + 0 ≤ _
      omega)
  rw [hlen₀] at hlen hplaced
  rw [hstored₀, List.append_nil] at hperm
  refine ⟨records, ?_, ⟨⟨k, hk, hlen⟩, by rw [hlen]; exact hroom, by rw [hlen]; exact hplaced⟩,
    hperm⟩
  rw [rehashRecords, if_neg (by simp [hlock]), hsize]
  exact hfold

end Chrony.NtpSources
