import Chrony.Lib.Buckets
import Chrony.Lib.Run
import Chrony.ClientLog.Records

/-!
# The Hash Table of Clients

Each address has at most one record, in the slot given by its hash. No record is lost when
the table is expanded: `expand_hashtable` copies the records to a table with twice as many
slots, in which no slot becomes full before all of them are copied, so that it is never
called again by `get_record` for the copied records.

## Main results

* `searchSlot_cases`: what is found in a slot.
* `expandHashtable_ok`: the table is expanded with one level of calls.
-/

namespace Chrony.ClientLog

open Lib

variable {seed : BitVec 32} {log log' : Log} {ip : IPAddr}

/-! ### The table -/

/-- The address of a record in use. -/
def Record.key (record : Record) : Option IPAddr :=
  if record.ipAddr = .unspec then none else some record.ipAddr

theorem Record.key_eq_none_iff {record : Record} : record.key = none ↔ record.ipAddr = .unspec := by
  rw [Record.key]
  split
  next h => exact ⟨fun _ => h, fun _ => rfl⟩
  next h => exact ⟨nofun, fun h' => absurd h' h⟩

theorem Record.key_eq_some_iff {record : Record} :
    record.key = some ip ↔ record.ipAddr = ip ∧ ip ≠ .unspec := by
  rw [Record.key]
  split
  next h =>
      refine ⟨nofun, ?_⟩
      rintro ⟨rfl, hne⟩
      exact absurd h hne
  next h =>
      rw [Option.some.injEq]
      refine ⟨?_, And.left⟩
      rintro rfl
      exact ⟨rfl, h⟩

/-- The addresses of the records. -/
def Log.cells (log : Log) (index : ℕ) : Option IPAddr :=
  (log.records index).key

theorem records_setRecord_self (log : Log) (index : ℕ) (record : Record) :
    (log.setRecord index record).records index = record :=
  Function.update_self ..

theorem records_setRecord_of_ne (log : Log) {i index : ℕ} (h : i ≠ index) (record : Record) :
    (log.setRecord index record).records i = log.records i :=
  Function.update_of_ne h ..

theorem cells_setRecord (log : Log) (index : ℕ) (record : Record) :
    (log.setRecord index record).cells = Function.update log.cells index record.key := by
  funext i
  exact Function.apply_update (fun _ => Record.key) log.records index record i

/-- The records in use when an empty record is set. -/
theorem exists_setRecord_iff {n index : ℕ} (hindex : index < n) (hempty : log.cells index = none)
    {record record' : Record} (hne : record'.ipAddr ≠ .unspec) :
    (∃ i < n, (log.setRecord index record).records i = record') ↔
      record = record' ∨ ∃ i < n, log.records i = record' := by
  constructor
  · rintro ⟨i, hi, heq⟩
    by_cases h : i = index
    · rw [h, records_setRecord_self] at heq
      exact .inl heq
    · rw [records_setRecord_of_ne _ h] at heq
      exact .inr ⟨i, hi, heq⟩
  · rintro (rfl | ⟨i, hi, rfl⟩)
    · exact ⟨index, hindex, records_setRecord_self ..⟩
    · refine ⟨i, hi, records_setRecord_of_ne _ ?_ _⟩
      rintro rfl
      exact hne (Record.key_eq_none_iff.mp hempty)

/-- **The hash table of records**: it has the structure of a table with buckets, and its
records are of real addresses. -/
structure Log.Invariant (seed : BitVec 32) (log : Log) : Prop where
  slots_pos : 0 < log.slots
  slots_le : log.slots ≤ log.maxSlots
  table : Buckets.Table (fun ip : IPAddr => (ip.toHash seed).toNat) slotSize log.slots log.cells
  real : ∀ i < log.slots * slotSize, ∀ ip, log.cells i = some ip → ip.isReal = true

theorem isReal_ne_unspec (h : ip.isReal = true) : ip ≠ .unspec := by
  rintro rfl
  cases h

theorem isIpEqual_iff (h : ip.isReal = true) {ip' : IPAddr} :
    isIpEqual ip ip' = true ↔ ip = ip' := by
  cases ip with
  | unspec => cases h
  | id => cases h
  | inet4 a => cases ip' <;> simp [isIpEqual]
  | inet6 a => cases ip' <;> simp [isIpEqual]

theorem first_lt (hslots : 0 < log.slots) {c : ℕ} (hc : c < slotSize) :
    log.first seed ip + c < log.slots * slotSize :=
  Buckets.index_lt (Nat.mod_lt _ hslots) hc

/-! ### The search in a slot -/

/-- The oldest record after the loop over some records. -/
def oldestRecord (records : ℕ → Record) (oldest : Option (ℕ × BitVec 32)) (l : List ℕ) :
    Option (ℕ × BitVec 32) :=
  l.foldl (fun oldest index => some (olderRecord records oldest index)) oldest

/-- **What the loop finds** in `n` records from `start` on. -/
theorem searchSlot_cases (records : ℕ → Record) (hip : ip.isReal = true) (n start : ℕ)
    (oldest : Option (ℕ × BitVec 32)) :
    (∃ c < n, searchSlot records ip oldest (List.range' start n) = .found (start + c) ∧
      (records (start + c)).key = some ip) ∨
    (∃ c < n, searchSlot records ip oldest (List.range' start n) = .empty (start + c) ∧
      (records (start + c)).key = none ∧
      ∀ j < c, (records (start + j)).key ≠ none ∧ (records (start + j)).key ≠ some ip) ∨
    (searchSlot records ip oldest (List.range' start n) =
        .full ((oldestRecord records oldest (List.range' start n)).map (·.1)) ∧
      ∀ c < n, (records (start + c)).key ≠ none ∧ (records (start + c)).key ≠ some ip) := by
  induction n generalizing start oldest with
  | zero => exact .inr (.inr ⟨rfl, nofun⟩)
  | succ n ih =>
      rw [List.range'_succ, searchSlot]
      split
      next heq =>
          refine .inl ⟨0, n.succ_pos, rfl, Record.key_eq_some_iff.mpr ⟨?_, isReal_ne_unspec hip⟩⟩
          exact ((isIpEqual_iff hip).mp heq).symm
      next hne =>
          split
          next hnone =>
              exact .inr (.inl ⟨0, n.succ_pos, rfl, Record.key_eq_none_iff.mpr hnone, nofun⟩)
          next hused =>
              have hstart : (records start).key ≠ none ∧ (records start).key ≠ some ip := by
                refine ⟨fun h => hused (Record.key_eq_none_iff.mp h), fun h => hne ?_⟩
                exact (isIpEqual_iff hip).mpr (Record.key_eq_some_iff.mp h).1.symm
              -- the records before `c` are those of the rest of the list and the first one
              have hbelow : ∀ c, (∀ j < c, (records (start + 1 + j)).key ≠ none ∧
                  (records (start + 1 + j)).key ≠ some ip) → ∀ j < c + 1,
                  (records (start + j)).key ≠ none ∧ (records (start + j)).key ≠ some ip := by
                intro c hc j hj
                cases j with
                | zero => exact hstart
                | succ j =>
                    rw [Nat.add_comm j, ← Nat.add_assoc]
                    exact hc j (Nat.lt_of_succ_lt_succ hj)
              have hshift : ∀ c, start + (c + 1) = start + 1 + c := by omega
              rcases ih (start + 1) (some (olderRecord records oldest start)) with
                ⟨c, hc, hs, hkey⟩ | ⟨c, hc, hs, hkey, hj⟩ | ⟨hs, hj⟩
              · exact .inl ⟨c + 1, Nat.succ_lt_succ hc, hshift c ▸ hs, hshift c ▸ hkey⟩
              · exact .inr (.inl ⟨c + 1, Nat.succ_lt_succ hc, hshift c ▸ hs, hshift c ▸ hkey,
                  hbelow c hj⟩)
              · exact .inr (.inr ⟨hs, hbelow n hj⟩)

/-! ### Expansion -/

/-- **The table is expanded and no record is lost**: the same records are in both of the
tables. -/
structure Log.Grown (seed : BitVec 32) (log log' : Log) : Prop where
  invariant : log'.Invariant seed
  same : log' = { log with slots := log'.slots, records := log'.records }
  kept : ∀ record : Record, record.ipAddr ≠ .unspec →
    ((∃ i < log'.slots * slotSize, log'.records i = record) ↔
      ∃ i < log.slots * slotSize, log.records i = record)

/-- The new table when the first `m` records are copied. -/
structure Copied (seed : BitVec 32) (log : Log) (m : ℕ) (new : Log) : Prop where
  same : new = { log with slots := 2 * log.slots, records := new.records }
  table : Buckets.Table (fun ip : IPAddr => (ip.toHash seed).toNat) slotSize (2 * log.slots)
    new.cells
  content : ∀ record : Record, record.ipAddr ≠ .unspec →
    ((∃ i < 2 * log.slots * slotSize, new.records i = record) ↔ ∃ i < m, log.records i = record)

theorem Copied.exists_of_cell {m : ℕ} {new : Log} (h : Copied seed log m new) {i : ℕ}
    (hi : i < 2 * log.slots * slotSize) (hcell : new.cells i = some ip) :
    ∃ j < m, log.cells j = some ip := by
  obtain ⟨hip, hne⟩ := Record.key_eq_some_iff.mp hcell
  obtain ⟨j, hj, hrecord⟩ := (h.content (new.records i) (hip ▸ hne)).mp ⟨i, hi, rfl⟩
  exact ⟨j, hj, by rw [Log.cells, hrecord]; exact hcell⟩

theorem copied_zero (hslots : 0 < log.slots) :
    Copied seed log 0 { log with
      slots := max minSlots (2 * log.slots), records := fun _ => emptyRecord } := by
  have hmax : max minSlots (2 * log.slots) = 2 * log.slots := by
    rw [minSlots]
    omega
  rw [hmax]
  refine ⟨rfl, Buckets.Table.empty _ _ _, fun record hne => ⟨?_, nofun⟩⟩
  rintro ⟨i, -, rfl⟩
  exact absurd rfl hne

/-- **A record is copied to an empty record of its new slot**, with no other call of
`expand_hashtable`. -/
theorem Copied.copy {m : ℕ} {new : Log} (h : Copied seed log m new) (hinv : log.Invariant seed)
    (hm : m < log.slots * slotSize) (hused : (log.records m).ipAddr ≠ .unspec) (depth : ℕ) :
    ∃ new' i, getRecordOf seed (depth + 1) new (log.records m).ipAddr = .ok (new', i) ∧
      Copied seed log (m + 1) (new'.setRecord i (log.records m)) := by
  set ip := (log.records m).ipAddr with hip
  have hcell : log.cells m = some ip := Record.key_eq_some_iff.mpr ⟨hip, hused⟩
  have hreal : ip.isReal = true := hinv.real m hm ip hcell
  have hslots : new.slots = 2 * log.slots := by rw [h.same]
  have hpos : 0 < new.slots := by
    have := hinv.slots_pos
    omega
  have habsent : ∀ i < 2 * log.slots * slotSize, new.cells i ≠ some ip := by
    intro i hi hcell'
    obtain ⟨j, hj, hcellj⟩ := h.exists_of_cell hi hcell'
    have := hinv.table.unique j (hj.trans hm) m hm ip hcellj hcell
    omega
  obtain ⟨c₀, hc₀, hroom⟩ := hinv.table.exists_room h.table hm hcell
    fun i hi ip' hcell' => h.exists_of_cell hi hcell'
  rw [getRecordOf]
  rw [← hslots] at habsent hroom
  rcases searchSlot_cases new.records hreal slotSize (new.first seed ip) none with
    ⟨c, hc, -, hkey⟩ | ⟨c, hc, hs, hkey, hbefore⟩ | ⟨-, hfull⟩
  · exact absurd hkey (habsent _ (first_lt hpos hc))
  · rw [Log.slot, hs]
    refine ⟨_, _, rfl, ?_⟩
    have hrecord : (new.setRecord (new.first seed ip + c) (newRecord new.limit ip)).setRecord
        (new.first seed ip + c) (log.records m) =
        new.setRecord (new.first seed ip + c) (log.records m) := by
      rw [Log.setRecord, Log.setRecord, Log.setRecord, Function.update_idem]
    rw [hrecord]
    refine ⟨?_, ?_, fun record hne => ?_⟩
    · rw [Log.setRecord, h.same]
    · rw [cells_setRecord, Record.key_eq_some_iff.mpr ⟨hip.symm, hused⟩]
      have hstore := h.table.store (k := ip) hc (fun j hj => ?_) (hslots ▸ habsent)
      · rw [← hslots] at hstore ⊢
        exact hstore
      · have := (hbefore j hj).1
        rw [Log.first, hslots] at this
        exact this
    · rw [exists_setRecord_iff (hslots ▸ first_lt hpos hc) hkey hne, h.content record hne]
      simp only [Nat.lt_succ_iff_lt_or_eq, or_and_right, exists_or, exists_eq_left]
      exact or_comm
  · exact absurd hroom (hfull c₀ hc₀).1

/-- The loop of `expand_hashtable`. -/
def copyRecords (seed : BitVec 32) (depth : ℕ) (log : Log) : Except LogAbort Log :=
  (List.range (log.slots * slotSize)).foldlM
    (fun new index =>
      let oldRecord := log.records index
      if oldRecord.ipAddr = .unspec then .ok new
      else do
        let r ← getRecordOf seed depth new oldRecord.ipAddr
        pure (r.1.setRecord r.2 oldRecord))
    { log with slots := max minSlots (2 * log.slots), records := fun _ => emptyRecord }

theorem copyRecords_copied (hinv : log.Invariant seed) (depth : ℕ) :
    ∃ log', copyRecords seed (depth + 1) log = .ok log' ∧
      Copied seed log (log.slots * slotSize) log' := by
  have hcopy : Returns (fun _ => False) (copyRecords seed (depth + 1) log)
      (Copied seed log (log.slots * slotSize)) := by
    refine Returns.foldlM_range (fun m hm new hnew => ?_) (copied_zero hinv.slots_pos)
    dsimp only
    split
    next hunused =>
        refine ⟨hnew.same, hnew.table, fun record hne => ?_⟩
        rw [hnew.content record hne]
        simp only [Nat.lt_succ_iff_lt_or_eq, or_and_right, exists_or, exists_eq_left]
        refine (or_iff_left fun heq => hne ?_).symm
        rw [← heq]
        exact hunused
    next hused =>
        obtain ⟨new', i, hget, hnew'⟩ := hnew.copy hinv hm hused depth
        rw [hget]
        exact hnew'
  cases hres : copyRecords seed (depth + 1) log with
  | error e => exact (hcopy.error hres).elim
  | ok log' => exact ⟨log', rfl, hcopy.value hres⟩

/-- **The table is expanded with one level of calls**, unless it has its maximum size. -/
theorem expandHashtable_ok (hinv : log.Invariant seed) (hslots : 2 * log.slots ≤ log.maxSlots)
    (depth : ℕ) : ∃ log', expandHashtable seed (depth + 2) log = .ok (some log') ∧
      log'.slots = 2 * log.slots ∧ log.Grown seed log' := by
  have hmax : max minSlots (2 * log.slots) = 2 * log.slots := by
    have := hinv.slots_pos
    rw [minSlots]
    omega
  obtain ⟨log', hcopy, hsame, htable, hcontent⟩ := copyRecords_copied hinv depth
  have hslots' : log'.slots = 2 * log.slots := by rw [hsame]
  refine ⟨log', ?_, hslots', ⟨?_, ?_, ?_, ?_⟩, ?_, ?_⟩
  · rw [copyRecords] at hcopy
    rw [expandHashtable, if_neg (not_lt.mpr hslots)]
    dsimp only
    rw [if_neg (by rw [hmax]; exact not_lt.mpr hslots), hcopy]
    rfl
  · rw [hslots']
    have := hinv.slots_pos
    omega
  · rw [hsame]
    exact hslots
  · rw [hslots']
    exact htable
  · intro i hi ip hcell
    rw [hslots'] at hi
    obtain ⟨j, hj, hcellj⟩ := Copied.exists_of_cell ⟨hsame, htable, hcontent⟩ hi hcell
    exact hinv.real j hj ip hcellj
  · rw [hslots']
    exact hsame
  · rw [hslots']
    exact hcontent

end Chrony.ClientLog
