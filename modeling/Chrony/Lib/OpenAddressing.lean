import Mathlib.Data.Finset.Card
import Mathlib.Data.List.Perm.Basic
import Mathlib.Data.List.ReduceOption
import Mathlib.Data.Nat.ModEq
import Mathlib.Data.Nat.Prime.Basic
import Mathlib.Tactic.Ring

/-!
# Open Addressing

A hash table with open addressing is a list of slots, each empty or with one entry. The
slot of a key is searched along the probe sequence of the key, up to the first empty slot
and for `n` probes at most. An entry is found when all slots that are probed before its
own are in use (`Placed`).

The probe sequence with the triangular numbers `0, 1, 3, 6, ...` visits every slot of a
table whose size is a power of two (`triangular_injective`), so that the search for a new
key ends in an empty slot as long as fewer than `n` slots are in use.

## Main results

* `search_stored`, `search_absent`: what the search returns.
* `search_empty`: an absent key gets an empty slot.
* `placed_set`: an entry stored in that slot can be found, and so can all others.
* `reduceOption_set_perm`: what setting a slot does to the stored entries.
-/

namespace Chrony.Lib.OpenAddressing

variable {α : Type*}

/-- The entry in a slot. -/
def entry (table : List (Option α)) (slot : ℕ) : Option α :=
  (table[slot]?).join

/-- The search along a probe sequence for at most `n` slots, from the probe `i` on. The
result tells if a matching entry was found, and the slot that was probed last. -/
def search (probe : ℕ → ℕ) (isKey : α → Bool) (table : List (Option α)) :
    ℕ → ℕ → ℕ → Bool × ℕ
  | 0, _, slot => (false, slot)
  | n + 1, i, _ =>
      match entry table (probe i) with
      | none => (false, probe i)
      | some r => if isKey r then (true, probe i) else search probe isKey table n (i + 1) (probe i)

theorem entry_eq_some {table : List (Option α)} {slot : ℕ} {r : α} :
    entry table slot = some r ↔ table[slot]? = some (some r) := by
  rw [entry, Option.join_eq_some_iff]

theorem getElem?_of_entry_none {table : List (Option α)} {slot : ℕ} (hslot : slot < table.length)
    (h : entry table slot = none) : table[slot]? = some none := by
  rw [List.getElem?_eq_getElem hslot]
  rw [entry, List.getElem?_eq_getElem hslot] at h
  exact congrArg some h

theorem entry_set (table : List (Option α)) {slot : ℕ} (hslot : slot < table.length)
    (o : Option α) (i : ℕ) :
    entry (table.set slot o) i = if i = slot then o else entry table i := by
  by_cases h : i = slot
  · subst h
    simp [entry, hslot]
  · simp [entry, h, List.getElem?_set_ne (Ne.symm h)]

/-- Setting a slot replaces its entry by the new one. -/
theorem reduceOption_set_perm {table : List (Option α)} {slot : ℕ} {o : Option α}
    (h : table[slot]? = some o) (o' : Option α) :
    (o.toList ++ (table.set slot o').reduceOption).Perm (o'.toList ++ table.reduceOption) := by
  induction table generalizing slot with
  | nil => simp at h
  | cons x table ih =>
      cases slot with
      | zero =>
          obtain rfl : x = o := by simpa using h
          rw [List.set_cons_zero]
          cases x <;> cases o' <;> simp [List.reduceOption_cons_of_none,
            List.reduceOption_cons_of_some, List.Perm.swap]
      | succ slot =>
          have hslot : table[slot]? = some o := by simpa using h
          have ih := ih hslot
          rw [List.set_cons_succ]
          cases x with
          | none => simpa [List.reduceOption_cons_of_none] using ih
          | some x =>
              rw [List.reduceOption_cons_of_some, List.reduceOption_cons_of_some]
              exact List.perm_middle.trans ((ih.cons x).trans List.perm_middle.symm)

theorem mem_reduceOption_iff_entry {table : List (Option α)} {r : α} :
    r ∈ table.reduceOption ↔ ∃ slot, entry table slot = some r := by
  rw [List.reduceOption_mem_iff, List.mem_iff_getElem?]
  simp only [entry_eq_some]

/-! ### The search -/

section Search

variable {probe : ℕ → ℕ} {isKey : α → Bool} {table : List (Option α)}

/-- The search goes through slots of other keys. -/
theorem search_skip {n i m : ℕ} (slot : ℕ)
    (h : ∀ j < m, ∃ r, entry table (probe (i + j)) = some r ∧ isKey r = false) (hm : m < n) :
    ∃ slot', search probe isKey table n i slot =
      search probe isKey table (n - m) (i + m) slot' := by
  induction m generalizing n i slot with
  | zero => exact ⟨slot, rfl⟩
  | succ m ih =>
      cases n with
      | zero => omega
      | succ n =>
          obtain ⟨r, hr, hkey⟩ := h 0 (by omega)
          rw [Nat.add_zero] at hr
          have hrest : ∀ j < m, ∃ r, entry table (probe (i + 1 + j)) = some r ∧
              isKey r = false := by
            intro j hj
            rw [show i + 1 + j = i + (j + 1) by omega]
            exact h (j + 1) (by omega)
          obtain ⟨slot', hs⟩ := ih (probe i) hrest (show m < n by omega)
          refine ⟨slot', ?_⟩
          rw [search, hr]
          simp only [hkey, Bool.false_eq_true, if_false, hs]
          rw [Nat.add_sub_add_right, show i + 1 + m = i + (m + 1) by omega]

/-- A slot that is found has an entry with the key. -/
theorem search_true {n i slot₀ slot : ℕ} (h : search probe isKey table n i slot₀ = (true, slot)) :
    ∃ r, entry table slot = some r ∧ isKey r = true := by
  induction n generalizing i slot₀ with
  | zero => cases h
  | succ n ih =>
      rw [search] at h
      split at h
      · cases h
      · next r hr =>
          by_cases hkey : isKey r = true
          · rw [if_pos hkey] at h
            cases h
            exact ⟨r, hr, hkey⟩
          · rw [if_neg hkey] at h
            exact ih h

/-- A key that no entry has is not found. -/
theorem search_absent (h : ∀ slot r, entry table slot = some r → isKey r = false)
    (n i slot : ℕ) : (search probe isKey table n i slot).1 = false := by
  induction n generalizing i slot with
  | zero => rfl
  | succ n ih =>
      rw [search]
      split
      · rfl
      · next r hr =>
          rw [h _ r hr]
          exact ih _ _

/-- The search for an absent key ends in an empty slot, or after `n` slots in use. -/
theorem search_slot (h : ∀ slot r, entry table slot = some r → isKey r = false)
    (n i slot : ℕ) :
    (∃ j < n, (search probe isKey table n i slot).2 = probe (i + j) ∧
      entry table (probe (i + j)) = none ∧ ∀ k < j, ∃ r, entry table (probe (i + k)) = some r) ∨
    ∀ k < n, ∃ r, entry table (probe (i + k)) = some r := by
  induction n generalizing i slot with
  | zero => exact .inr fun k hk => absurd hk (Nat.not_lt_zero k)
  | succ n ih =>
      rw [search]
      cases hr : entry table (probe i) with
      | none => exact .inl ⟨0, by omega, rfl, hr, fun k hk => absurd hk (Nat.not_lt_zero k)⟩
      | some r =>
          simp only [h _ r hr, Bool.false_eq_true, if_false]
          have hshift : ∀ k, i + 1 + k = i + (k + 1) := fun k => by omega
          have hcons : ∀ m, (∀ k < m, ∃ r, entry table (probe (i + 1 + k)) = some r) →
              ∀ k < m + 1, ∃ r, entry table (probe (i + k)) = some r := by
            intro m hm k hk
            cases k with
            | zero => exact ⟨r, hr⟩
            | succ k =>
                rw [← hshift]
                exact hm k (by omega)
          rcases ih (i + 1) (probe i) with ⟨j, hj, hslot, hnone, hbefore⟩ | hall
          · refine .inl ⟨j + 1, by omega, ?_, ?_, hcons j hbefore⟩
            · rw [hslot, hshift]
            · rw [← hshift, hnone]
          · exact .inr (hcons n hall)

end Search

/-! ### Tables in which all entries can be found -/

variable {κ : Type*} (probe : κ → ℕ → ℕ) (n : ℕ) (key : α → κ)

/-- Every entry is on the probe sequence of its key, with all slots before in use. -/
def Placed (table : List (Option α)) : Prop :=
  ∀ slot r, entry table slot = some r →
    ∃ i < n, probe (key r) i = slot ∧ ∀ j < i, ∃ r', entry table (probe (key r) j) = some r'

/-- No key is stored in two slots. -/
def Distinct (table : List (Option α)) : Prop :=
  ∀ slot slot' r r', entry table slot = some r → entry table slot' = some r' →
    key r = key r' → slot = slot'

variable {probe n key}

/-- Setting an empty slot adds its new entry. -/
theorem reduceOption_set_none {table : List (Option α)} {slot : ℕ} (hslot : slot < table.length)
    (h : entry table slot = none) (r : α) :
    (table.set slot (some r)).reduceOption.Perm (r :: table.reduceOption) := by
  exact reduceOption_set_perm (getElem?_of_entry_none hslot h) (some r)

/-- The entries other than the one in a slot. -/
theorem reduceOption_perm_cons {table : List (Option α)} {slot : ℕ} {r : α}
    (h : entry table slot = some r) :
    table.reduceOption.Perm (r :: (table.set slot none).reduceOption) :=
  (reduceOption_set_perm (entry_eq_some.mp h) none).symm

/-- Setting a slot with an entry replaces the entry. -/
theorem reduceOption_set_some {table : List (Option α)} {slot : ℕ} {r : α}
    (h : entry table slot = some r) (r' : α) :
    (table.set slot (some r')).reduceOption.Perm
      (r' :: (table.set slot none).reduceOption) := by
  have hslot := (List.getElem?_eq_some_iff.mp (entry_eq_some.mp h)).1
  have hset : ((table.set slot none).set slot (some r')).reduceOption.Perm
      (r' :: (table.set slot none).reduceOption) :=
    reduceOption_set_none (by simpa using hslot) (by simp [entry_set _ hslot]) r'
  rwa [List.set_set] at hset

/-- Distinct keys are in different slots. -/
theorem distinct_of_nodup {table : List (Option α)} (h : (table.reduceOption.map key).Nodup) :
    Distinct key table := by
  intro slot slot' r r' hr hr' hkey
  by_contra hne
  have hslot := (List.getElem?_eq_some_iff.mp (entry_eq_some.mp hr)).1
  rw [((reduceOption_perm_cons hr).map key).nodup_iff, List.map_cons, List.nodup_cons] at h
  refine h.1 (List.mem_map.mpr ⟨r', ?_, hkey.symm⟩)
  rw [mem_reduceOption_iff_entry]
  exact ⟨slot', by rw [entry_set _ hslot, if_neg (Ne.symm hne), hr']⟩

/-- Which entries are found depends only on the keys in the slots. -/
theorem placed_congr {table table' : List (Option α)} (hplaced : Placed probe n key table)
    (h : ∀ slot, (entry table' slot).map key = (entry table slot).map key) :
    Placed probe n key table' := by
  have hsome : ∀ {slot r}, entry table slot = some r → ∃ r', entry table' slot = some r' := by
    intro slot r hr
    have hslot := h slot
    rw [hr, Option.map_some, Option.map_eq_some_iff] at hslot
    obtain ⟨r', hr', -⟩ := hslot
    exact ⟨r', hr'⟩
  intro slot r' hr'
  have hslot := (h slot).symm
  rw [hr', Option.map_some, Option.map_eq_some_iff] at hslot
  obtain ⟨r, hr, hkey⟩ := hslot
  obtain ⟨i, hi, hprobe, hbefore⟩ := hplaced slot r hr
  rw [hkey] at hprobe hbefore
  refine ⟨i, hi, hprobe, fun j hj => ?_⟩
  obtain ⟨r'', hr''⟩ := hbefore j hj
  exact hsome hr''

/-- A stored key is found in its slot. -/
theorem search_stored [DecidableEq κ] {table : List (Option α)} (hplaced : Placed probe n key table)
    (hdist : Distinct key table) (hinj : ∀ k, ∀ i < n, ∀ j < n, probe k i = probe k j → i = j)
    {slot : ℕ} {r : α} (h : entry table slot = some r) (slot₀ : ℕ) :
    search (probe (key r)) (key · = key r) table n 0 slot₀ = (true, slot) := by
  obtain ⟨i, hi, rfl, hbefore⟩ := hplaced slot r h
  have hskip : ∀ j < i, ∃ r', entry table (probe (key r) (0 + j)) = some r' ∧
      decide (key r' = key r) = false := by
    intro j hj
    obtain ⟨r', hr'⟩ := hbefore j hj
    refine ⟨r', by rwa [Nat.zero_add], ?_⟩
    -- an earlier slot with the same key would be a second one of that key
    by_contra hkey
    have heq := hdist _ _ r' r hr' h (by simpa using hkey)
    have := hinj _ j (by omega) i hi heq
    omega
  obtain ⟨slot', hs⟩ := search_skip slot₀ hskip hi
  obtain ⟨m, hm⟩ : ∃ m, n - i = m + 1 := ⟨n - i - 1, by omega⟩
  rw [hs, hm, Nat.zero_add, search, h]
  simp

/-- As many slots as are probed fit only in a table with as many entries. -/
theorem le_length_of_probes {table : List (Option α)} {probe : ℕ → ℕ}
    (hinj : ∀ i < n, ∀ j < n, probe i = probe j → i = j)
    (h : ∀ k < n, ∃ r, entry table (probe k) = some r) : n ≤ table.reduceOption.length := by
  have hused : (Finset.range n).image probe ⊆
      (Finset.range table.length).filter fun i => (entry table i).isSome := by
    intro s hs
    obtain ⟨k, hk, rfl⟩ := Finset.mem_image.mp hs
    obtain ⟨r, hr⟩ := h k (Finset.mem_range.mp hk)
    have hlt := (List.getElem?_eq_some_iff.mp (entry_eq_some.mp hr)).1
    simp [hr, hlt]
  have hcard : ((Finset.range n).image probe).card = n := by
    rw [Finset.card_image_of_injOn, Finset.card_range]
    intro i hi j hj hij
    exact hinj i (by simpa using hi) j (by simpa using hj) hij
  have hcount : ((Finset.range table.length).filter fun i => (entry table i).isSome).card =
      table.reduceOption.length := by
    clear hused h
    induction table using List.reverseRecOn with
    | nil => rfl
    | append_singleton table x ih =>
        have hsame : ∀ i ∈ Finset.range table.length,
            (entry (table ++ [x]) i).isSome = (entry table i).isSome := by
          intro i hi
          rw [entry, entry, List.getElem?_append_left (Finset.mem_range.mp hi)]
        rw [List.length_append, List.length_singleton, Finset.range_add_one,
          Finset.filter_insert, Finset.filter_congr fun i hi => by rw [hsame i hi],
          List.reduceOption_append]
        have hlast : entry (table ++ [x]) table.length = x := by
          simp [entry]
        cases x with
        | none => simp [hlast, ih, List.reduceOption_cons_of_none]
        | some x =>
            rw [hlast, if_pos (by simp), Finset.card_insert_of_notMem (by simp), ih]
            simp [List.reduceOption_cons_of_some]
  rw [← hcard, ← hcount]
  exact Finset.card_le_card hused

/-- With fewer than `n` entries, the search for an absent key ends in an empty slot, with
all slots before in use. -/
theorem search_empty {table : List (Option α)} {probe : ℕ → ℕ} {isKey : α → Bool}
    (hinj : ∀ i < n, ∀ j < n, probe i = probe j → i = j)
    (habsent : ∀ slot r, entry table slot = some r → isKey r = false)
    (hroom : table.reduceOption.length < n) (slot₀ : ℕ) :
    ∃ j < n, (search probe isKey table n 0 slot₀).2 = probe j ∧ entry table (probe j) = none ∧
      ∀ k < j, ∃ r, entry table (probe k) = some r := by
  rcases search_slot habsent n 0 slot₀ with ⟨j, hj, h⟩ | hall
  · simp only [Nat.zero_add] at h
    exact ⟨j, hj, h⟩
  · simp only [Nat.zero_add] at hall
    have := le_length_of_probes hinj hall
    omega

/-- An entry with a new key can be stored in the slot that its search ends in. -/
theorem placed_set {table : List (Option α)} (hplaced : Placed probe n key table) {r : α} {j : ℕ}
    (hj : j < n) (hslot : probe (key r) j < table.length)
    (hnone : entry table (probe (key r) j) = none)
    (hbefore : ∀ k < j, ∃ r', entry table (probe (key r) k) = some r') :
    Placed probe n key (table.set (probe (key r) j) (some r)) := by
  have hkeep : ∀ {slot r'}, entry table slot = some r' →
      entry (table.set (probe (key r) j) (some r)) slot = some r' := by
    intro slot r' h
    rw [entry_set _ hslot, if_neg, h]
    rintro rfl
    rw [hnone] at h
    cases h
  intro slot r' h
  rw [entry_set _ hslot] at h
  split at h
  · next heq =>
      obtain rfl : r = r' := Option.some.inj h
      refine ⟨j, hj, heq.symm, fun k hk => ?_⟩
      obtain ⟨r', hr'⟩ := hbefore k hk
      exact ⟨r', hkeep hr'⟩
  · obtain ⟨i, hi, hprobe, hall⟩ := hplaced slot r' h
    refine ⟨i, hi, hprobe, fun k hk => ?_⟩
    obtain ⟨r'', hr''⟩ := hall k hk
    exact ⟨r'', hkeep hr''⟩

/-! ### Triangular numbers -/

/-- **The probe sequence with triangular numbers** does not repeat in a table whose size
is a power of two. -/
theorem triangular_injective {k i j h : ℕ} (hi : i < 2 ^ k) (hj : j < 2 ^ k)
    (heq : (h + (i + i * i) / 2) % 2 ^ k = (h + (j + j * j) / 2) % 2 ^ k) : i = j := by
  wlog hlt : i ≤ j generalizing i j
  · exact (this hj hi heq.symm (by omega)).symm
  obtain ⟨d, rfl⟩ := Nat.exists_eq_add_of_le hlt
  have hmod : Nat.ModEq (2 ^ k) ((i + i * i) / 2) ((i + d + (i + d) * (i + d)) / 2) :=
    Nat.ModEq.add_left_cancel' h heq
  have heven : ∀ a : ℕ, 2 * ((a + a * a) / 2) = a + a * a := by
    intro a
    have : 2 ∣ a + a * a := by
      have := (Nat.even_mul_succ_self a).two_dvd
      rwa [show a * (a + 1) = a + a * a by ring] at this
    omega
  have hle : (i + i * i) / 2 ≤ (i + d + (i + d) * (i + d)) / 2 := by
    have hsq : i * i ≤ (i + d) * (i + d) := Nat.mul_le_mul hlt hlt
    omega
  -- the difference of the doubled numbers is a product with one odd factor
  have hdvd : 2 ^ (k + 1) ∣ d * (2 * i + d + 1) := by
    obtain ⟨c, hc⟩ := (Nat.modEq_iff_dvd' hle).mp hmod
    refine ⟨c, ?_⟩
    have h1 := heven i
    have h2 := heven (i + d)
    have h3 : i + d + (i + d) * (i + d) = i + i * i + d * (2 * i + d + 1) := by ring
    have h4 : 2 ^ (k + 1) * c = 2 * (2 ^ k * c) := by ring
    omega
  by_contra hne
  have hd : 0 < d := by omega
  have hpow : 2 ^ (k + 1) = 2 * 2 ^ k := by ring
  rcases Nat.even_or_odd d with hd2 | hd2
  · have hodd : Nat.Coprime (2 ^ (k + 1)) (2 * i + d + 1) := by
      refine Nat.Coprime.pow_left _ ?_
      rw [Nat.coprime_two_left]
      obtain ⟨c, rfl⟩ := hd2
      exact ⟨i + c, by ring⟩
    have := Nat.le_of_dvd hd (hodd.dvd_of_dvd_mul_right hdvd)
    omega
  · have hodd : Nat.Coprime (2 ^ (k + 1)) d :=
      Nat.Coprime.pow_left _ (Nat.coprime_two_left.mpr hd2)
    have := Nat.le_of_dvd (by omega) (hodd.dvd_of_dvd_mul_left hdvd)
    omega

end Chrony.Lib.OpenAddressing
