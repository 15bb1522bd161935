import Chrony.ClientLog.HashTable

/-!
# Accesses and Evictions

What `get_record` does to the table. A record is replaced only when its slot is full and the
table cannot be expanded. The replaced record is the one whose last hit is the oldest if
`compare_ts` orders the timestamps. It does not when a record has no hit of the NTP service:
`INVALID_TS` is before all other timestamps only as the second argument.

## Main results

* `getRecordOf_ok`: what `get_record` does to the table.
* `run_records`: the table after any sequence of accesses, and what the next access does.
-/

namespace Chrony.ClientLog

open Lib WrapOrder

variable {seed : BitVec 32} {log log' : Log} {ip : IPAddr}

/-! ### The last hits -/

/-- The time of a hit after the time `base`, if it is a hit. -/
def hitTime (base ts : BitVec 32) : WithBot ℕ :=
  if ts = invalidTs then ⊥ else WithBot.some (dist base ts)

/-- **The time of the most recent hit of a record** of any service. -/
def Record.recentHit (base : BitVec 32) (record : Record) : WithBot ℕ :=
  Finset.univ.sup fun service => hitTime base (record.lastHit service)

/-- All hits of the record are in the half of the range of timestamps which starts with
`base`. -/
def Record.HitsFrom (base : BitVec 32) (record : Record) : Prop :=
  ∀ service, record.lastHit service ≠ invalidTs → 2 * dist base (record.lastHit service) < 2 ^ 32

/-- **The last hits of a record are ordered by `compare_ts`**: it has a hit of the NTP
service, or it has a hit and none is in the second half of the range, where timestamps
are before `INVALID_TS`. -/
def Record.Ordered (record : Record) : Prop :=
  record.lastHit .ntp ≠ invalidTs ∨
    ((∃ service, record.lastHit service ≠ invalidTs) ∧
      ∀ service, (record.lastHit service).toNat ≤ 2 ^ 31)

theorem hitTime_of_ne {base ts : BitVec 32} (h : ts ≠ invalidTs) :
    hitTime base ts = WithBot.some (dist base ts) :=
  if_neg h

theorem hitTime_ne_bot_iff (base : BitVec 32) {ts : BitVec 32} :
    hitTime base ts ≠ ⊥ ↔ ts ≠ invalidTs := by
  rw [hitTime]
  split
  next h => exact ⟨fun h' => absurd rfl h', fun h' => absurd h h'⟩
  next h => exact ⟨fun _ => h, fun _ => WithBot.coe_ne_bot⟩

theorem compareTs_of_ne {x y : BitVec 32} (hne : x ≠ y) (hy : y ≠ invalidTs) :
    compareTs x y = if Before y x then 1 else -1 := by
  rw [compareTs, if_neg hne, if_neg hy]
  rfl

/-- The later one of two hits. -/
theorem compareTs_of_lt {base x y : BitVec 32} (hx : x ≠ invalidTs) (hy : y ≠ invalidTs)
    (hby : 2 * dist base y < 2 ^ 32)
    (hlt : hitTime base x < hitTime base y) : compareTs x y < 0 ∧ compareTs y x > 0 := by
  rw [hitTime_of_ne hx, hitTime_of_ne hy, WithBot.coe_lt_coe] at hlt
  have hbefore : Before x y := before_of_dist_lt hby hlt
  have hafter : ¬Before y x := fun h => (dist_lt_of_before hby h).not_gt hlt
  constructor
  · rw [compareTs_of_ne hbefore.ne hy, if_neg hafter]
    decide
  · rw [compareTs_of_ne hbefore.ne.symm hx, if_pos hbefore]
    decide

/-- **Two hits are ordered by their times.** -/
theorem compareTs_iff {base x y : BitVec 32} (hx : x ≠ invalidTs) (hy : y ≠ invalidTs)
    (hbx : 2 * dist base x < 2 ^ 32) (hby : 2 * dist base y < 2 ^ 32) :
    (compareTs x y < 0 ↔ hitTime base x < hitTime base y) ∧
      (compareTs x y > 0 ↔ hitTime base y < hitTime base x) := by
  rcases lt_trichotomy (hitTime base x) (hitTime base y) with hlt | heq | hgt
  · have h := (compareTs_of_lt hx hy hby hlt).1
    exact ⟨iff_of_true h hlt, iff_of_false h.asymm hlt.asymm⟩
  · have hxy : x = y := by
      rw [hitTime_of_ne hx, hitTime_of_ne hy, WithBot.coe_inj] at heq
      rw [← dist_eq_zero_iff, dist_eq_sub heq.le, heq, Nat.sub_self]
    have h : compareTs x y = 0 := if_pos hxy
    rw [h, heq]
    exact ⟨iff_of_false (lt_irrefl _) (lt_irrefl _), iff_of_false (lt_irrefl _) (lt_irrefl _)⟩
  · have h := (compareTs_of_lt hy hx hbx hgt).2
    exact ⟨iff_of_false h.asymm hgt.asymm, iff_of_true h hgt⟩

/-- No hit is before a hit in the first half of the range. -/
theorem compareTs_invalid {y : BitVec 32} (hy : y ≠ invalidTs) (hle : y.toNat ≤ 2 ^ 31) :
    compareTs invalidTs y < 0 := by
  have hneg : ¬Before y invalidTs := by
    have hne : y.toNat ≠ 0 := fun h => hy (BitVec.eq_of_toNat_eq h)
    have hzero : invalidTs.toNat = 0 := rfl
    have hdist := dist_cases y invalidTs
    rw [before_iff]
    omega
  rw [compareTs_of_ne (Ne.symm hy) hy, if_neg hneg]
  decide

/-- **The later one of two timestamps is found**, if the first one is a hit or the second one
is in the first half of the range. -/
theorem hitTime_later {base x y : BitVec 32} (hx : x ≠ invalidTs → 2 * dist base x < 2 ^ 32)
    (hy : y ≠ invalidTs → 2 * dist base y < 2 ^ 32) (hxy : x ≠ invalidTs ∨ y.toNat ≤ 2 ^ 31) :
    hitTime base (if compareTs x y < 0 then y else x) = max (hitTime base x) (hitTime base y) := by
  by_cases hy0 : y = invalidTs
  · have hnot : ¬compareTs x y < 0 := by
      rw [compareTs, hy0]
      split
      · decide
      · rw [if_pos rfl]
        decide
    rw [if_neg hnot, hy0, hitTime, hitTime, if_pos rfl, max_bot_right]
  by_cases hx0 : x = invalidTs
  · rw [hx0, if_pos (compareTs_invalid hy0 (hxy.resolve_left (absurd hx0))), hitTime, hitTime,
      if_pos rfl, max_bot_left]
  · have hiff := (compareTs_iff hx0 hy0 (hx hx0) (hy hy0)).1
    split
    next h => exact (max_eq_right (hiff.mp h).le).symm
    next h => exact (max_eq_left (not_lt.mp (mt hiff.mpr h))).symm

theorem recentHit_eq (base : BitVec 32) (record : Record) :
    record.recentHit base = max (max (hitTime base (record.lastHit .ntp))
      (hitTime base (record.lastHit .ntske))) (hitTime base (record.lastHit .cmdmon)) := by
  have huniv : (Finset.univ : Finset Service) = {.ntp, .ntske, .cmdmon} := rfl
  rw [Record.recentHit, huniv, Finset.sup_insert, Finset.sup_insert, Finset.sup_singleton,
    ← max_assoc]

/-- **The latest hit of an ordered record is found.** -/
theorem Record.Ordered.latestHit {base : BitVec 32} {record : Record} (h : record.Ordered)
    (hbase : record.HitsFrom base) : record.latestHit ≠ invalidTs ∧
      hitTime base record.latestHit = record.recentHit base := by
  set later := if compareTs (record.lastHit .ntp) (record.lastHit .ntske) < 0 then
    record.lastHit .ntske else record.lastHit .ntp with hlater
  have hlatest : record.latestHit = if compareTs later (record.lastHit .cmdmon) < 0 then
    record.lastHit .cmdmon else later := rfl
  have hfirst : hitTime base later = max (hitTime base (record.lastHit .ntp))
      (hitTime base (record.lastHit .ntske)) :=
    hitTime_later (hbase .ntp) (hbase .ntske) (h.imp id fun h => h.2 .ntske)
  have hlater_base : later ≠ invalidTs → 2 * dist base later < 2 ^ 32 := by
    rw [hlater]
    split
    · exact hbase .ntske
    · exact hbase .ntp
  have hsecond : hitTime base record.latestHit = record.recentHit base := by
    rw [hlatest, recentHit_eq, ← hfirst]
    refine hitTime_later hlater_base (hbase .cmdmon) (h.imp (fun hntp => ?_) fun h => h.2 .cmdmon)
    rw [← hitTime_ne_bot_iff base, hfirst, ← bot_lt_iff_ne_bot]
    exact lt_max_of_lt_left (bot_lt_iff_ne_bot.mpr ((hitTime_ne_bot_iff base).mpr hntp))
  refine ⟨?_, hsecond⟩
  obtain ⟨service, hhit⟩ : ∃ service, record.lastHit service ≠ invalidTs :=
    h.elim (fun hntp => ⟨.ntp, hntp⟩) And.left
  rw [← hitTime_ne_bot_iff base, hsecond, ← bot_lt_iff_ne_bot]
  exact (bot_lt_iff_ne_bot.mpr ((hitTime_ne_bot_iff base).mpr hhit)).trans_le
    (Finset.le_sup (f := fun service => hitTime base (record.lastHit service))
      (Finset.mem_univ service))

theorem Record.HitsFrom.latestHit {base : BitVec 32} {record : Record}
    (hbase : record.HitsFrom base) (hvalid : record.latestHit ≠ invalidTs) :
    2 * dist base record.latestHit < 2 ^ 32 := by
  have hmem : ∃ service, record.latestHit = record.lastHit service := by
    simp only [Record.latestHit, List.foldl_cons, List.foldl_nil]
    split_ifs <;> exact ⟨_, rfl⟩
  obtain ⟨service, heq⟩ := hmem
  rw [heq] at hvalid ⊢
  exact hbase service hvalid

/-! ### The oldest record -/

/-- **The oldest record is found among ordered records.** -/
theorem oldestRecord_spec {base : BitVec 32} {records : ℕ → Record} {l : List ℕ}
    (hordered : ∀ i ∈ l, (records i).Ordered) (hbase : ∀ i ∈ l, (records i).HitsFrom base)
    (hne : l ≠ []) : ∃ i ∈ l, oldestRecord records none l = some (i, (records i).latestHit) ∧
      ∀ j ∈ l, (records i).recentHit base ≤ (records j).recentHit base := by
  induction l using List.reverseRecOn with
  | nil => exact absurd rfl hne
  | append_singleton l j ih =>
      have hj : j ∈ l ++ [j] := List.mem_append_right l (List.mem_singleton.mpr rfl)
      obtain ⟨hvalid, htime⟩ := (hordered j hj).latestHit (hbase j hj)
      rw [oldestRecord, List.foldl_append, List.foldl_cons, List.foldl_nil, ← oldestRecord]
      rcases eq_or_ne l [] with rfl | hl
      · exact ⟨j, hj, rfl, fun j' hj' => by rw [List.mem_singleton.mp hj']⟩
      · obtain ⟨i, hi, heq, hmin⟩ := ih (fun i hi => hordered i (List.mem_append_left _ hi))
          (fun i hi => hbase i (List.mem_append_left _ hi)) hl
        have hi' : i ∈ l ++ [j] := List.mem_append_left _ hi
        obtain ⟨hvalid', htime'⟩ := (hordered i hi').latestHit (hbase i hi')
        have hcompare := (compareTs_iff hvalid' hvalid ((hbase i hi').latestHit hvalid')
          ((hbase j hj).latestHit hvalid)).2
        rw [htime, htime'] at hcompare
        rw [heq, olderRecord]
        split
        next hcond =>
            have hle : (records j).recentHit base ≤ (records i).recentHit base := by
              rcases hcond with hgt | ⟨hsame, -⟩
              · exact (hcompare.mp hgt).le
              · rw [← htime, ← htime', hsame]
            refine ⟨j, hj, rfl, fun j' hj' => ?_⟩
            rcases List.mem_append.mp hj' with hj' | hj'
            · exact hle.trans (hmin j' hj')
            · rw [List.mem_singleton.mp hj']
        next hcond =>
            refine ⟨i, hi', rfl, fun j' hj' => ?_⟩
            rcases List.mem_append.mp hj' with hj' | hj'
            · exact hmin j' hj'
            · rw [List.mem_singleton.mp hj']
              exact not_lt.mp fun hlt => hcond (.inl (hcompare.mpr hlt))

/-- Some record of the list is found in any case. -/
theorem oldestRecord_mem (records : ℕ → Record) {l : List ℕ} (hne : l ≠ []) :
    ∃ i ∈ l, (oldestRecord records none l).map (·.1) = some i := by
  induction l using List.reverseRecOn with
  | nil => exact absurd rfl hne
  | append_singleton l j ih =>
      have hj : j ∈ l ++ [j] := List.mem_append_right l (List.mem_singleton.mpr rfl)
      rw [oldestRecord, List.foldl_append, List.foldl_cons, List.foldl_nil, ← oldestRecord]
      rcases eq_or_ne l [] with rfl | hl
      · exact ⟨j, hj, rfl⟩
      · obtain ⟨i, hi, heq⟩ := ih hl
        cases hold : oldestRecord records none l with
        | none =>
            rw [hold] at heq
            cases heq
        | some p =>
            rw [hold] at heq
            obtain rfl := Option.some.inj heq
            rw [Option.map_some, olderRecord]
            split
            · exact ⟨j, hj, rfl⟩
            · exact ⟨p.1, List.mem_append_left _ hi, rfl⟩

/-! ### Accesses -/

theorem Log.Grown.refl (hinv : log.Invariant seed) : log.Grown seed log :=
  ⟨hinv, rfl, fun _ _ => Iff.rfl⟩

theorem Log.Grown.trans {log₁ log₂ : Log} (h : log.Grown seed log₁) (h' : log₁.Grown seed log₂) :
    log.Grown seed log₂ := by
  refine ⟨h'.invariant, ?_, fun record hne => (h'.kept record hne).trans (h.kept record hne)⟩
  conv_lhs => rw [h'.same, h.same]

/-- The address has no record. -/
def Log.Absent (log : Log) (ip : IPAddr) : Prop :=
  ∀ i < log.slots * slotSize, (log.records i).ipAddr ≠ ip

/-- **The record `c` of a slot is the oldest one**: its most recent hit is not later than that
of any other record of the slot, if the timestamps are not older than a half of their range. -/
def Log.Oldest (log : Log) (seed : BitVec 32) (ip : IPAddr) (c : ℕ) : Prop :=
  ∀ base, (∀ d < slotSize, (log.records (log.first seed ip + d)).HitsFrom base) →
    ∀ d < slotSize, (log.records (log.first seed ip + c)).recentHit base ≤
      (log.records (log.first seed ip + d)).recentHit base

/-- The hits of all records in the slot are ordered by `compare_ts`. -/
def Log.SlotOrdered (log : Log) (seed : BitVec 32) (ip : IPAddr) : Prop :=
  ∀ d < slotSize, (log.records (log.first seed ip + d)).Ordered

/-- **What `get_record` does.** The record of the address is found, or it is added after the
table is expanded, or it replaces the oldest record of a full slot when the table cannot be
expanded. -/
inductive Accessed (seed : BitVec 32) (log : Log) (ip : IPAddr) : Log → ℕ → Prop
  | found {i : ℕ} (hi : i < log.slots * slotSize) (hip : (log.records i).ipAddr = ip) :
      Accessed seed log ip log i
  | added {log₁ : Log} {c : ℕ} (hgrown : log.Grown seed log₁) (habsent : log.Absent ip)
      (hc : c < slotSize) (hempty : (log₁.records (log₁.first seed ip + c)).ipAddr = .unspec) :
      Accessed seed log ip
        (log₁.setRecord (log₁.first seed ip + c) (newRecord log₁.limit ip))
        (log₁.first seed ip + c)
  | evicted {log₁ : Log} {c : ℕ} (hgrown : log.Grown seed log₁) (habsent : log.Absent ip)
      (hfull : ∀ d < slotSize, (log₁.records (log₁.first seed ip + d)).ipAddr ≠ .unspec)
      (hmax : log₁.maxSlots < 2 * log₁.slots) (hc : c < slotSize)
      (holdest : log₁.SlotOrdered seed ip → log₁.Oldest seed ip c) :
      Accessed seed log ip
        ({ log₁ with totalRecordDrops := log₁.totalRecordDrops + 1 }.setRecord
          (log₁.first seed ip + c) (newRecord log₁.limit ip)) (log₁.first seed ip + c)

theorem absent_of_search (hinv : log.Invariant seed) (hip : ip.isReal = true)
    (h : ∀ c < slotSize, log.cells (log.first seed ip + c) ≠ some ip) : log.Absent ip := by
  intro i hi heq
  refine hinv.table.absent_of_bucket (by decide) h i hi ?_
  exact Record.key_eq_some_iff.mpr ⟨heq, isReal_ne_unspec hip⟩

/-- A new record of the address is put in its slot. -/
theorem Log.Invariant.setNew (hinv : log.Invariant seed) (hip : ip.isReal = true)
    (habsent : log.Absent ip) {c : ℕ} (hc : c < slotSize)
    (hbefore : ∀ j < c, log.cells (log.first seed ip + j) ≠ none) (limit : Service → Limit) :
    (log.setRecord (log.first seed ip + c) (newRecord limit ip)).Invariant seed := by
  have hkey : (newRecord limit ip).key = some ip :=
    Record.key_eq_some_iff.mpr ⟨rfl, isReal_ne_unspec hip⟩
  refine ⟨hinv.slots_pos, hinv.slots_le, ?_, fun i hi ip' hcell => ?_⟩
  · rw [cells_setRecord, hkey]
    refine hinv.table.store hc hbefore fun i hi hcell => ?_
    exact habsent i hi (Record.key_eq_some_iff.mp hcell).1
  · rw [cells_setRecord, hkey] at hcell
    by_cases h : i = log.first seed ip + c
    · rw [h, Function.update_self] at hcell
      obtain rfl := Option.some.inj hcell
      exact hip
    · rw [Function.update_of_ne h] at hcell
      exact hinv.real i hi ip' hcell

/-- What is known of the record which is returned. -/
structure Returned (seed : BitVec 32) (ip : IPAddr) (log' : Log) (i : ℕ) : Prop where
  invariant : log'.Invariant seed
  index : i < log'.slots * slotSize
  ipAddr : (log'.records i).ipAddr = ip
  real : ip.isReal = true

theorem Log.Invariant.returned_setNew (hinv : log.Invariant seed) (hip : ip.isReal = true) {c : ℕ}
    (hc : c < slotSize) {limit : Service → Limit}
    (h : (log.setRecord (log.first seed ip + c) (newRecord limit ip)).Invariant seed) :
    Returned seed ip (log.setRecord (log.first seed ip + c) (newRecord limit ip))
      (log.first seed ip + c) := by
  refine ⟨h, first_lt hinv.slots_pos hc, ?_, hip⟩
  rw [records_setRecord_self]
  rfl

/-- The record of a full slot which is replaced. -/
theorem exists_oldest (log : Log) (seed : BitVec 32) (ip : IPAddr) :
    ∃ c < slotSize, (oldestRecord log.records none (log.slot seed ip)).map (·.1) =
      some (log.first seed ip + c) ∧ (log.SlotOrdered seed ip → log.Oldest seed ip c) := by
  have hmem : ∀ i, i ∈ log.slot seed ip ↔ ∃ c < slotSize, i = log.first seed ip + c := by
    intro i
    rw [Log.slot, List.mem_range'_1]
    constructor
    · rintro ⟨hge, hlt⟩
      exact ⟨i - log.first seed ip, by omega, by omega⟩
    · rintro ⟨c, hc, rfl⟩
      omega
  have hne : log.slot seed ip ≠ [] := List.ne_nil_of_mem ((hmem _).mpr ⟨0, by decide, rfl⟩)
  obtain ⟨i, hi, hold⟩ := oldestRecord_mem log.records hne
  obtain ⟨c, hc, rfl⟩ := (hmem i).mp hi
  refine ⟨c, hc, hold, fun hordered base hbase d hd => ?_⟩
  have hall : ∀ P : Record → Prop, (∀ d < slotSize, P (log.records (log.first seed ip + d))) →
      ∀ i ∈ log.slot seed ip, P (log.records i) := by
    intro P hP i hi
    obtain ⟨d, hd, rfl⟩ := (hmem i).mp hi
    exact hP d hd
  obtain ⟨j, -, hj, hmin⟩ := oldestRecord_spec (hall _ hordered) (hall _ hbase) hne
  rw [hj, Option.map_some, Option.some.injEq] at hold
  rw [← hold]
  exact hmin _ ((hmem _).mpr ⟨d, hd, rfl⟩)

/-- **`get_record` returns** a record of the address, if the table cannot be doubled as many
times as the calls are allowed. -/
theorem getRecordOf_ok (hinv : log.Invariant seed) (hip : ip.isReal = true) {n : ℕ}
    (hn : log.maxSlots < log.slots * 2 ^ n) :
    ∃ log' i, getRecordOf seed (n + 2) log ip = .ok (log', i) ∧ Accessed seed log ip log' i ∧
      Returned seed ip log' i := by
  induction n generalizing log with
  | zero =>
      have := hinv.slots_le
      omega
  | succ n ih =>
      rw [getRecordOf, Log.slot]
      rcases searchSlot_cases log.records hip slotSize (log.first seed ip) none with
        ⟨c, hc, hs, hkey⟩ | ⟨c, hc, hs, hkey, hbefore⟩ | ⟨hs, hfull⟩
      · rw [hs]
        have hi : log.first seed ip + c < log.slots * slotSize := first_lt hinv.slots_pos hc
        have heq := (Record.key_eq_some_iff.mp hkey).1
        exact ⟨_, _, rfl, .found hi heq, hinv, hi, heq, hip⟩
      · rw [hs]
        have habsent : log.Absent ip := by
          refine absent_of_search hinv hip fun d hd => ?_
          rcases Nat.lt_or_ge d c with hlt | hge
          · exact (hbefore d hlt).2
          · have hnone : log.cells (log.first seed ip + d) = none :=
              hinv.table.filled _ (Nat.mod_lt _ hinv.slots_pos) c d hge hd hkey
            rw [hnone]
            exact (Option.some_ne_none ip).symm
        refine ⟨_, _, rfl, .added (.refl hinv) habsent hc (Record.key_eq_none_iff.mp hkey), ?_⟩
        exact hinv.returned_setNew hip hc
          (hinv.setNew hip habsent hc (fun j hj => (hbefore j hj).1) _)
      · rw [hs]
        have habsent : log.Absent ip := absent_of_search hinv hip fun c hc => (hfull c hc).2
        have hused : ∀ c < slotSize, log.cells (log.first seed ip + c) ≠ none :=
          fun c hc => (hfull c hc).1
        by_cases hdouble : 2 * log.slots ≤ log.maxSlots
        · obtain ⟨log₁, hexpand, hslots, hgrown⟩ := expandHashtable_ok hinv hdouble n
          have hmax : log₁.maxSlots = log.maxSlots := by rw [hgrown.same]
          obtain ⟨log', i, hget, haccess, hreturned⟩ := ih hgrown.invariant (by
            rw [hmax, hslots, Nat.mul_comm 2, Nat.mul_assoc, ← Nat.pow_succ']
            exact hn)
          refine ⟨log', i, ?_, ?_, hreturned⟩
          · dsimp only
            rw [hexpand]
            exact hget
          · have hne := isReal_ne_unspec hip
            cases haccess with
            | found hi heq =>
                obtain ⟨j, hj, hrecord⟩ := (hgrown.kept (log₁.records i) (heq ▸ hne)).mp
                  ⟨i, hi, rfl⟩
                exact absurd (hrecord ▸ heq) (habsent j hj)
            | added hgrown' _ hc hempty =>
                exact .added (hgrown.trans hgrown') habsent hc hempty
            | evicted hgrown' _ hfull' hmax' hc holdest =>
                exact .evicted (hgrown.trans hgrown') habsent hfull' hmax' hc holdest
        · obtain ⟨c, hc, hold, holdest⟩ := exists_oldest log seed ip
          rw [Log.slot] at hold
          have hexpand : expandHashtable seed (n + 2) log = .ok none := by
            rw [expandHashtable, if_pos (not_le.mp hdouble)]
          refine ⟨_, _, ?_, .evicted (.refl hinv) habsent (fun d hd h => hused d hd
            (Record.key_eq_none_iff.mpr h)) (not_le.mp hdouble) hc holdest, ?_⟩
          · dsimp only
            rw [hexpand, hold]
            rfl
          · have hinv' : Log.Invariant seed { log with
                totalRecordDrops := log.totalRecordDrops + 1 } :=
              ⟨hinv.slots_pos, hinv.slots_le, hinv.table, hinv.real⟩
            exact hinv'.returned_setNew hip hc
              (hinv'.setNew hip habsent hc (fun j hj => hused j (hj.trans hc)) _)

/-! ### Runs -/

/-- What holds between the calls, if the log is active. -/
structure Log.Sound (seed : BitVec 32) (log : Log) : Prop where
  invariant : log.active = true → log.Invariant seed
  maxSlots_le : log.maxSlots ≤ ClientLog.maxSlots

theorem Accessed.active {i : ℕ} (h : Accessed seed log ip log' i) :
    log'.active = log.active ∧ log'.maxSlots = log.maxSlots := by
  cases h with
  | found => exact ⟨rfl, rfl⟩
  | added hgrown =>
      rw [Log.setRecord, hgrown.same]
      exact ⟨rfl, rfl⟩
  | evicted hgrown =>
      rw [Log.setRecord, hgrown.same]
      exact ⟨rfl, rfl⟩

theorem isReal_iff_family : ip.isReal = true ↔ ¬(ip.family ≠ .inet4 ∧ ip.family ≠ .inet6) := by
  cases ip <;> simp [IPAddr.isReal, IPAddr.family]

/-- **`get_record` never fails.** -/
theorem getRecord_ok (hlog : log.Sound seed) (ip : IPAddr) :
    (∃ log' i, getRecord seed log ip = .ok (log', some i) ∧ Accessed seed log ip log' i ∧
      Returned seed ip log' i ∧ log'.Sound seed ∧ log'.active = true) ∨
    (getRecord seed log ip = .ok (log, none) ∧ (log.active = false ∨ ip.isReal = false)) := by
  rw [getRecord]
  split
  next h =>
      refine .inr ⟨rfl, h.imp (by simp) fun h => ?_⟩
      rw [Bool.eq_false_iff, ne_eq, isReal_iff_family]
      exact not_not.mpr h
  next h =>
      rw [not_or] at h
      have hactive : log.active = true := by simpa using h.1
      have hinv := hlog.invariant hactive
      have hdepth : log.maxSlots < log.slots * 2 ^ 30 :=
        calc log.maxSlots ≤ maxSlots := hlog.maxSlots_le
          _ < 1 * 2 ^ 30 := by decide
          _ ≤ log.slots * 2 ^ 30 := Nat.mul_le_mul_right _ hinv.slots_pos
      obtain ⟨log', i, hget, haccess, hreturned⟩ :=
        getRecordOf_ok hinv (isReal_iff_family.mpr h.2) hdepth
      obtain ⟨hactive', hmax⟩ := haccess.active
      refine .inl ⟨log', i, ?_, haccess, hreturned, ⟨fun _ => hreturned.invariant, ?_⟩, ?_⟩
      · rw [maxDepth, hget]
        rfl
      · rw [hmax]
        exact hlog.maxSlots_le
      · rw [hactive', hactive]

/-- The address of a record does not change. -/
theorem Log.Sound.setSame (hlog : log.Sound seed) {i : ℕ} {record : Record}
    (hip : record.ipAddr = (log.records i).ipAddr) : (log.setRecord i record).Sound seed := by
  refine ⟨fun hactive => ?_, hlog.maxSlots_le⟩
  have hinv := hlog.invariant hactive
  have hcells : (log.setRecord i record).cells = log.cells := by
    have hkey : record.key = log.cells i := by
      rw [Log.cells, Record.key, Record.key, hip]
    rw [cells_setRecord, hkey, Function.update_eq_self]
  refine ⟨hinv.slots_pos, hinv.slots_le, ?_, ?_⟩
  · rw [hcells]
    exact hinv.table
  · rw [hcells]
    exact hinv.real

theorem updateRecord_ipAddr (limit : Limit) (service : Service) (nowTs : BitVec 32)
    (record : Record) : (updateRecord limit service nowTs record).ipAddr = record.ipAddr := by
  rw [updateRecord]
  split
  · rfl
  · rw [Record.addInterval]
    split <;> rfl

/-- The statistics do not matter. -/
theorem Log.Sound.counters (hlog : log.Sound seed) (totalHits totalDrops : Service → BitVec 64) :
    Log.Sound seed { log with totalHits, totalDrops } := by
  refine ⟨fun hactive => ?_, hlog.maxSlots_le⟩
  have hinv := hlog.invariant hactive
  exact ⟨hinv.slots_pos, hinv.slots_le, hinv.table, hinv.real⟩

theorem limitRate_ipAddr (record : Record) (limit : Limit) (service : Service) (leak kod : Bool) :
    (record.limitRate limit service leak kod).1.ipAddr = record.ipAddr := by
  rw [Record.limitRate]
  split_ifs <;> rfl

theorem limitServiceRate_sound (hlog : log.Sound seed) (service : Service) (i : ℕ)
    (leak kod : Bool) : (limitServiceRate log service i leak kod).1.Sound seed := by
  rw [limitServiceRate]
  split
  · exact hlog
  · exact (hlog.counters _ _).setSame (limitRate_ipAddr ..)

theorem limitServiceRates_sound (hlog : log.Sound seed) (service : Service) (i : ℕ)
    (limited : List (Bool × Bool)) : (limitServiceRates log service i limited).Sound seed :=
  List.foldlRecOn limited _ hlog fun _ hlog' _ _ => limitServiceRate_sound hlog' service i _ _

theorem resetRecord_sound (hlog : log.Sound seed) (i : ℕ) : (resetRecord log i).Sound seed := by
  rw [resetRecord]
  split
  · exact hlog
  · exact hlog.setSame rfl

theorem logServiceAccess_sound (hlog : log.Sound seed) (service : Service) (client : IPAddr)
    (now : Timespec) : ∃ log' i, logServiceAccess seed log service client now = .ok (log', i) ∧
      log'.Sound seed := by
  have hlog' := hlog.counters
    (Function.update log.totalHits service (log.totalHits service + 1)) log.totalDrops
  rw [logServiceAccess]
  rcases getRecord_ok hlog' client with ⟨log', i, hget, -, -, hsound, -⟩ | ⟨hget, -⟩
  · rw [hget]
    exact ⟨_, _, rfl, hsound.setSame (updateRecord_ipAddr ..)⟩
  · rw [hget]
    exact ⟨_, _, rfl, hlog'⟩

theorem step_sound (hlog : log.Sound seed) (call : LogCall) :
    ∃ log', log.step seed call = .ok log' ∧ log'.Sound seed := by
  cases call with
  | access service client now limited =>
      obtain ⟨log', i, haccess, hsound⟩ := logServiceAccess_sound hlog service client now
      rw [Log.step, haccess]
      cases i with
      | none => exact ⟨log', rfl, hsound⟩
      | some i => exact ⟨_, rfl, limitServiceRates_sound hsound service i limited⟩
  | getClientIndex client =>
      rw [Log.step]
      rcases getRecord_ok hlog client with ⟨log', i, hget, -, -, hsound, -⟩ | ⟨hget, -⟩
      · rw [hget]
        exact ⟨log', rfl, hsound⟩
      · rw [hget]
        exact ⟨log, rfl, hlog⟩
  | reset index => exact ⟨_, rfl, resetRecord_sound hlog index⟩

/-- **The first slot is allocated.** -/
theorem initialise_eq (seed : BitVec 32) (slots : ℕ) (rateLimit : Service → Option RateLimit)
    (tsOffset : BitVec 32) : Log.initialise seed false slots rateLimit tsOffset =
      .ok { initialLog false slots rateLimit tsOffset with
        slots := 1, records := fun _ => emptyRecord } := by
  have hone : ¬1 > max minSlots (min slots maxSlots) := not_lt.mpr (le_max_left _ _)
  rw [Log.initialise, if_neg Bool.noConfusion, maxDepth, expandHashtable]
  simp only [initialLog, minSlots, Nat.mul_zero, Nat.zero_mul, List.range_zero,
    List.foldlM_nil] at hone ⊢
  simp [hone]
  rfl

theorem initialise_sound (seed : BitVec 32) (noClientLog : Bool) (slots : ℕ)
    (rateLimit : Service → Option RateLimit) (tsOffset : BitVec 32) :
    Returns (· = .noClientLog) (Log.initialise seed noClientLog slots rateLimit tsOffset)
      (Log.Sound seed) := by
  have hmax : max minSlots (min slots maxSlots) ≤ maxSlots :=
    max_le (by decide) (min_le_right _ _)
  cases noClientLog with
  | true =>
      rw [Log.initialise, if_pos rfl]
      split
      · rfl
      · exact ⟨nofun, hmax⟩
  | false =>
      rw [initialise_eq]
      refine ⟨fun _ => ⟨Nat.one_pos, le_max_left _ _, Buckets.Table.empty _ _ _, nofun⟩, hmax⟩

/-- **The records of clients after any sequence of accesses**, and what happens in the next
one. The log is initialised, unless rate limiting is enabled without the log. After that
- each address has at most one record, in the slot of its hash, and the records in use are at
  the start of each slot (`Log.Invariant`),
- the table can be expanded with all its records, and none of the calls of `get_record` for
  the copied records needs the table to be expanded again: there is no depth for that call,
- a record is replaced only when its slot is full and the table cannot be doubled, and it is
  the oldest one of the slot if the hits of the slot are ordered (`Accessed`). -/
theorem run_records (seed : BitVec 32) (noClientLog : Bool) (slots : ℕ)
    (rateLimit : Service → Option RateLimit) (tsOffset : BitVec 32) (calls : List LogCall) :
    Returns (· = .noClientLog) (Log.run seed noClientLog slots rateLimit tsOffset calls)
      fun log => log.active = true → log.Invariant seed ∧
        (2 * log.slots ≤ log.maxSlots → ∀ depth, ∃ log',
          expandHashtable seed (depth + 2) log = .ok (some log') ∧
            log'.slots = 2 * log.slots ∧ log.Grown seed log') ∧
        ∀ ip : IPAddr, ip.isReal = true → ∃ log' i,
          getRecord seed log ip = .ok (log', some i) ∧ Accessed seed log ip log' i := by
  have hsound : Returns (· = .noClientLog)
      (Log.run seed noClientLog slots rateLimit tsOffset calls) (Log.Sound seed) := by
    refine (initialise_sound seed noClientLog slots rateLimit tsOffset).bind fun log hlog => ?_
    refine Returns.foldlM (fun log call hlog => ?_) calls hlog
    obtain ⟨log', hstep, hlog'⟩ := step_sound hlog call
    exact .of_ok hstep hlog'
  refine hsound.mono fun log hlog hactive => ?_
  have hinv := hlog.invariant hactive
  refine ⟨hinv, fun hslots depth => expandHashtable_ok hinv hslots depth, fun ip hip => ?_⟩
  rcases getRecord_ok hlog ip with ⟨log', i, hget, haccess, -⟩ | ⟨-, hnot⟩
  · exact ⟨log', i, hget, haccess⟩
  · rcases hnot with hnot | hnot
    · rw [hactive] at hnot
      cases hnot
    · rw [hip] at hnot
      cases hnot

/-- Seven clients of the NTP service, and then a client of the command service, in a table
which cannot have more than one slot. -/
def sampleCalls : List LogCall :=
  ((List.range 7).map fun k =>
    .access .ntp (.inet4 (BitVec.ofNat 32 (k + 1))) ⟨1800000000 + k, 0⟩ []) ++
    [.access .cmdmon (.inet4 8) ⟨1800000007, 0⟩ []]

/-- The last hits of the clients. -/
def sampleHit (d : ℕ) (service : Service) : BitVec 32 :=
  if (d < 7 ∧ service = .ntp) ∨ (d = 7 ∧ service = .cmdmon) then
    3030196224#32 + BitVec.ofNat 32 (16 * d)
  else invalidTs

/-- **The next client replaces the record with the most recent hit.** -/
theorem run_replaces_recent_hit : ∃ log log',
    Log.run 0 false 1 (fun _ => none) 0 sampleCalls = .ok log ∧
      getRecord 0 log (.inet4 9) = .ok (log', some 7) ∧
      (log.records 7).ipAddr = .inet4 8 ∧ (log'.records 7).ipAddr = .inet4 9 ∧
      log.first 0 (.inet4 9) = 0 ∧ ¬log.Oldest 0 (.inet4 9) 7 := by
  obtain ⟨log, hrun, hlog⟩ := exists_ok_of_map_toOption
    (x := Log.run 0 false 1 (fun _ => none) 0 sampleCalls)
    (f := fun log => decide ((log.records 7).ipAddr = .inet4 8 ∧ log.first 0 (.inet4 9) = 0 ∧
      (∀ d < slotSize, ∀ service, (log.records d).lastHit service = sampleHit d service) ∧
      (getRecord 0 log (.inet4 9)).toOption.map (fun r => (r.2, (r.1.records 7).ipAddr)) =
        some (some 7, .inet4 9)))
    (b := true) (by decide +kernel)
  obtain ⟨hip, hfirst, hhits, hget⟩ := of_decide_eq_true hlog
  obtain ⟨⟨log', i⟩, hget, hresult⟩ := exists_ok_of_map_toOption hget
  obtain ⟨rfl, hip'⟩ := Prod.mk.inj hresult
  refine ⟨log, log', hrun, hget, hip, hip', hfirst, fun hold => ?_⟩
  have hle := hold 3030196224#32 (fun d hd => ?_) 0 (by decide)
  · rw [hfirst, recentHit_eq, recentHit_eq] at hle
    simp only [Nat.zero_add, hhits 7 (by decide), hhits 0 (by decide)] at hle
    exact absurd hle (by decide +kernel)
  · rw [hfirst, Nat.zero_add]
    intro service
    rw [hhits d hd]
    have hall : ∀ d < slotSize, ∀ service, sampleHit d service ≠ invalidTs →
        2 * dist 3030196224#32 (sampleHit d service) < 2 ^ 32 := by decide +kernel
    exact hall d hd service

end Chrony.ClientLog
