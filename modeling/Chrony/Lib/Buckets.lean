import Mathlib.Algebra.Order.Group.Nat
import Mathlib.Data.Finset.Card
import Mathlib.Data.Nat.ModEq
import Mathlib.Logic.Function.Basic
import Mathlib.Order.Interval.Finset.Nat

/-!
# Hash Tables with Buckets

A hash table with `n` buckets of `size` cells each is an array of cells, each empty or with
one key. The key is in the bucket of its hash, the used cells are at the start of each
bucket, and no key is in two cells (`Table`).

When the number of buckets is doubled, each bucket is split in two. The keys of a bucket
which were moved already are fewer than its cells as long as one of them was not moved yet,
so that a new bucket always has room for the next key (`Table.exists_room`).

## Main results

* `Table.store`: a key is stored in the first empty cell of its bucket, or in place of another
  key.
* `Table.exists_room`: no new bucket is full when the keys are moved.
-/

namespace Chrony.Lib.Buckets

variable {K : Type*} {hash : K → ℕ} {size n : ℕ} {cells : ℕ → Option K}

/-- **A hash table with buckets.** -/
structure Table (hash : K → ℕ) (size n : ℕ) (cells : ℕ → Option K) : Prop where
  placed : ∀ i < n * size, ∀ k, cells i = some k → i / size = hash k % n
  filled : ∀ b < n, ∀ i j, i ≤ j → j < size → cells (b * size + i) = none →
    cells (b * size + j) = none
  unique : ∀ i < n * size, ∀ j < n * size, ∀ k, cells i = some k → cells j = some k → i = j

/-- The cell `i` of the bucket `b` is in the table. -/
theorem index_lt {b i : ℕ} (hb : b < n) (hi : i < size) : b * size + i < n * size :=
  calc b * size + i < b * size + size := Nat.add_lt_add_left hi _
    _ = (b + 1) * size := (Nat.succ_mul b size).symm
    _ ≤ n * size := Nat.mul_le_mul_right size hb

theorem index_div {b i : ℕ} (hi : i < size) : (b * size + i) / size = b := by
  rw [Nat.mul_comm, Nat.mul_add_div (Nat.zero_lt_of_lt hi), Nat.div_eq_of_lt hi, Nat.add_zero]

/-- An index given by its bucket. -/
theorem exists_index {b i : ℕ} (hsize : 0 < size) (hi : i / size = b) :
    ∃ c < size, i = b * size + c :=
  ⟨i % size, Nat.mod_lt i hsize, by rw [← hi, Nat.mul_comm]; exact (Nat.div_add_mod i size).symm⟩

namespace Table

/-- The empty table. -/
theorem empty (hash : K → ℕ) (size n : ℕ) : Table hash size n fun _ => none where
  placed _ _ _ h := nomatch h
  filled _ _ _ _ _ _ _ := rfl
  unique _ _ _ _ _ h := nomatch h

/-- A key which is not in its bucket is not in the table. -/
theorem absent_of_bucket (h : Table hash size n cells) {k : K} (hsize : 0 < size)
    (habsent : ∀ c < size, cells (hash k % n * size + c) ≠ some k) (i : ℕ) (hi : i < n * size) :
    cells i ≠ some k := by
  intro hcell
  obtain ⟨c, hc, rfl⟩ := exists_index hsize (h.placed i hi k hcell)
  exact habsent c hc hcell

/-- **A new key is stored in a cell of its bucket**, after which the used cells are still at
the start of the bucket. -/
theorem store (h : Table hash size n cells) {k : K} {c : ℕ} (hc : c < size)
    (hbefore : ∀ j < c, cells (hash k % n * size + j) ≠ none)
    (habsent : ∀ i < n * size, cells i ≠ some k) :
    Table hash size n (Function.update cells (hash k % n * size + c) (some k)) where
  placed := by
    intro i hi k' hcell
    by_cases heq : i = hash k % n * size + c
    · rw [heq, Function.update_self] at hcell
      obtain rfl := Option.some.inj hcell
      rw [heq]
      exact index_div hc
    · rw [Function.update_of_ne heq] at hcell
      exact h.placed i hi k' hcell
  filled := by
    intro b hb i j hij hj hnone
    have hne : b * size + i ≠ hash k % n * size + c := by
      intro heq
      rw [heq, Function.update_self] at hnone
      cases hnone
    rw [Function.update_of_ne hne] at hnone
    by_cases heq : b * size + j = hash k % n * size + c
    · obtain rfl : b = hash k % n := by
        rw [← index_div (b := b) hj, heq, index_div hc]
      obtain rfl : j = c := Nat.add_left_cancel heq
      rcases Nat.lt_or_eq_of_le hij with hlt | rfl
      · exact absurd hnone (hbefore i hlt)
      · exact absurd rfl hne
    · rw [Function.update_of_ne heq]
      exact h.filled b hb i j hij hj hnone
  unique := by
    intro i hi j hj k' hci hcj
    by_cases hi' : i = hash k % n * size + c
    · by_cases hj' : j = hash k % n * size + c
      · exact hi'.trans hj'.symm
      · rw [hi', Function.update_self] at hci
        rw [Function.update_of_ne hj'] at hcj
        exact absurd (hcj.trans hci.symm) (habsent j hj)
    · rw [Function.update_of_ne hi'] at hci
      by_cases hj' : j = hash k % n * size + c
      · rw [hj', Function.update_self] at hcj
        exact absurd (hci.trans hcj.symm) (habsent i hi)
      · rw [Function.update_of_ne hj'] at hcj
        exact h.unique i hi j hj k' hci hcj

/-- **A new bucket has room for the next key** when the keys in the cells below `m` have been
moved to a table with twice as many buckets. -/
theorem exists_room {cells' : ℕ → Option K} {m : ℕ} {k : K} (h : Table hash size n cells)
    (h' : Table hash size (2 * n) cells') (hm : m < n * size) (hk : cells m = some k)
    (hmoved : ∀ i < 2 * n * size, ∀ k', cells' i = some k' → ∃ j < m, cells j = some k') :
    ∃ c < size, cells' (hash k % (2 * n) * size + c) = none := by
  by_contra hfull
  push Not at hfull
  have hn : 0 < n := Nat.pos_of_mul_pos_right (Nat.zero_lt_of_lt hm)
  have hbucket : hash k % (2 * n) < 2 * n := Nat.mod_lt _ (by omega)
  -- the place in the old table of the key in each cell of the new bucket
  have hold : ∀ c < size, ∃ j, j < m ∧ j / size = hash k % n ∧
      cells j = cells' (hash k % (2 * n) * size + c) := by
    intro c hc
    have hlt := index_lt hbucket hc
    obtain ⟨k', hk'⟩ := Option.ne_none_iff_exists'.mp (hfull c hc)
    obtain ⟨j, hj, hcell⟩ := hmoved _ hlt k' hk'
    refine ⟨j, hj, ?_, hcell.trans hk'.symm⟩
    have hhash := h'.placed _ hlt k' hk'
    rw [index_div hc] at hhash
    rw [h.placed j (hj.trans hm) k' hcell, ← Nat.mod_mul_left_mod (hash k') 2 n, ← hhash,
      Nat.mod_mul_left_mod]
  choose! old hlt hdiv hcell using hold
  have hkdiv := h.placed m hm k hk
  have hsize : 0 < size := Nat.pos_of_mul_pos_left (Nat.zero_lt_of_lt hm)
  have hmaps : Set.MapsTo old (Finset.range size) (Finset.Ico (hash k % n * size) m) := by
    intro c hc
    have hc := Finset.mem_range.mp hc
    refine Finset.mem_coe.mpr (Finset.mem_Ico.mpr ⟨?_, hlt c hc⟩)
    rw [← hdiv c hc]
    exact Nat.div_mul_le_self _ _
  have hinj : Set.InjOn old (Finset.range size) := by
    intro c hc d hd heq
    have hc := Finset.mem_range.mp hc
    have hd := Finset.mem_range.mp hd
    obtain ⟨k', hk'⟩ := Option.ne_none_iff_exists'.mp (hfull c hc)
    have hd' : cells' (hash k % (2 * n) * size + d) = some k' := by
      rw [← hcell d hd, ← heq, hcell c hc, hk']
    exact Nat.add_left_cancel (h'.unique _ (index_lt hbucket hc) _ (index_lt hbucket hd) k' hk' hd')
  have hcard := Finset.card_le_card_of_injOn old hmaps hinj
  rw [Finset.card_range, Nat.card_Ico] at hcard
  obtain ⟨c, hc, rfl⟩ := exists_index hsize hkdiv
  omega

end Table

end Chrony.Lib.Buckets
