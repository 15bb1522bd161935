import Mathlib.Data.List.Sort
import Mathlib.Logic.Equiv.Basic

/-!
# Selection of Order Statistics

An algorithm which selects the `k`-th smallest entry of an array rearranges its entries. What it
knows about the order is a set of cuts: no entry on the left of a cut is larger than an entry on
its right. An entry between two cuts is an order statistic.

An array with `n` entries is a function `ℕ → α` with the entries at the positions below `n`.

## Main results

* `Rearranged.cut`: a cut is kept by a rearrangement of the entries on one of its sides.
* `sorted_getElem?_of_cut`: the entry between two cuts is in its position in the sorted array.
-/

namespace Chrony.Lib

variable {α : Type*}

/-! ### Rearrangements -/

/-- **The entries at the positions from `u` to `v` are rearranged.** -/
def Rearranged (u v : ℕ) (x x' : ℕ → α) : Prop :=
  ∃ σ : Equiv.Perm ℕ, (∀ i, i < u ∨ v < i → σ i = i) ∧ x' = x ∘ σ

variable {n u v i j : ℕ} {x x' x'' : ℕ → α}

theorem Rearranged.refl (u v : ℕ) (x : ℕ → α) : Rearranged u v x x :=
  ⟨Equiv.refl ℕ, fun _ _ => rfl, rfl⟩

theorem Rearranged.trans (h : Rearranged u v x x') (h' : Rearranged u v x' x'') :
    Rearranged u v x x'' := by
  obtain ⟨σ, hσ, rfl⟩ := h
  obtain ⟨τ, hτ, rfl⟩ := h'
  refine ⟨τ.trans σ, fun i hi => ?_, rfl⟩
  rw [Equiv.trans_apply, hτ i hi, hσ i hi]

theorem Rearranged.mono {u' v' : ℕ} (h : Rearranged u v x x') (hu : u' ≤ u) (hv : v ≤ v') :
    Rearranged u' v' x x' := by
  obtain ⟨σ, hσ, rfl⟩ := h
  refine ⟨σ, fun i hi => hσ i ?_, rfl⟩
  omega

/-- Two entries are exchanged. -/
theorem rearranged_swap (hi : u ≤ i ∧ i ≤ v) (hj : u ≤ j ∧ j ≤ v) (x : ℕ → α) :
    Rearranged u v x (x ∘ Equiv.swap i j) := by
  refine ⟨Equiv.swap i j, fun m hm => ?_, rfl⟩
  exact Equiv.swap_apply_of_ne_of_ne (by omega) (by omega)

/-- Other entries are not changed. -/
theorem Rearranged.eq (h : Rearranged u v x x') (hi : i < u ∨ v < i) : x' i = x i := by
  obtain ⟨σ, hσ, rfl⟩ := h
  rw [Function.comp_apply, hσ i hi]

theorem perm_range {σ : Equiv.Perm ℕ} (hσ : ∀ i, i < u ∨ v < i → σ i = i) (hi : u ≤ i ∧ i ≤ v) :
    u ≤ σ i ∧ σ i ≤ v := by
  by_contra hout
  have hfix : σ (σ i) = σ i := hσ _ (by omega)
  have heq : σ i = i := σ.injective hfix
  omega

theorem perm_lt {σ : Equiv.Perm ℕ} (hσ : ∀ i, i < u ∨ v < i → σ i = i) (hv : v < n) (hi : i < n) :
    σ i < n := by
  by_cases hin : u ≤ i ∧ i ≤ v
  · have hrange := perm_range hσ hin
    omega
  · rw [hσ i (by omega)]
    exact hi

/-- An entry comes from a position in the range. -/
theorem Rearranged.exists_eq (h : Rearranged u v x x') (hi : u ≤ i ∧ i ≤ v) :
    ∃ j, (u ≤ j ∧ j ≤ v) ∧ x' i = x j := by
  obtain ⟨σ, hσ, rfl⟩ := h
  exact ⟨σ i, perm_range hσ hi, rfl⟩

/-- **The array has the same entries.** -/
theorem Rearranged.perm (h : Rearranged u v x x') (hv : v < n) :
    ((List.range n).map x').Perm ((List.range n).map x) := by
  obtain ⟨σ, hσ, rfl⟩ := h
  rw [← List.map_map]
  refine List.Perm.map x ?_
  rw [List.perm_ext_iff_of_nodup (List.nodup_range.map σ.injective) List.nodup_range]
  intro m
  rw [List.mem_map, List.mem_range]
  constructor
  · rintro ⟨i, hi, rfl⟩
    exact perm_lt hσ hv (List.mem_range.mp hi)
  · intro hm
    have hσ' : ∀ i, i < u ∨ v < i → σ.symm i = i := by
      intro i hi
      rw [Equiv.symm_apply_eq, hσ i hi]
    exact ⟨σ.symm m, List.mem_range.mpr (perm_lt hσ' hv hm), σ.apply_symm_apply m⟩

/-! ### Cuts -/

section Order

variable [LinearOrder α]

/-- **A cut**: no entry before the position `m` is larger than an entry from the position on. -/
def Cut (n : ℕ) (x : ℕ → α) (m : ℕ) : Prop :=
  ∀ i < m, ∀ j, m ≤ j → j < n → x i ≤ x j

variable {m k : ℕ}

theorem cut_zero (n : ℕ) (x : ℕ → α) : Cut n x 0 := nofun

theorem cut_length (x : ℕ → α) : Cut n x n := by
  intro i _ j hj hlt
  omega

/-- **A cut outside of the range is kept.** -/
theorem Rearranged.cut (h : Rearranged u v x x') (hv : v < n) (hm : m ≤ u ∨ v < m)
    (hcut : Cut n x m) : Cut n x' m := by
  have hfrom : ∀ i, ∃ i', (i < m → i' < m) ∧ (m ≤ i → i < n → m ≤ i' ∧ i' < n) ∧ x' i = x i' := by
    intro i
    by_cases hi : u ≤ i ∧ i ≤ v
    · obtain ⟨i', hi', heq⟩ := h.exists_eq hi
      exact ⟨i', by omega, by omega, heq⟩
    · exact ⟨i, id, And.intro, h.eq (by omega)⟩
  intro i hi j hj hlt
  obtain ⟨i', hi', -, heq⟩ := hfrom i
  obtain ⟨j', -, hj', heq'⟩ := hfrom j
  rw [heq, heq']
  obtain ⟨hm', hlt'⟩ := hj' hj hlt
  exact hcut i' (hi' hi) j' hm' hlt'

/-- Entries in the range are divided by a value. -/
theorem Cut.of_split {piv : α} (hu : Cut n x u) (hv : Cut n x (v + 1))
    (hm : u ≤ m ∧ m ≤ v + 1) (hle : ∀ i, u ≤ i → i < m → x i ≤ piv)
    (hge : ∀ j, m ≤ j → j ≤ v → piv ≤ x j) : Cut n x m := by
  intro i hi j hj hlt
  by_cases hiu : i < u
  · exact hu i hiu j (by omega) hlt
  · by_cases hjv : j ≤ v
    · exact (hle i (by omega) hi).trans (hge j hj hjv)
    · exact hv i (by omega) j (by omega) hlt

/-- **The entry between two cuts is in its position in the sorted array.** -/
theorem sorted_getElem?_of_cut (hk : k < n) (hcut : Cut n x k) (hcut' : Cut n x (k + 1))
    {s : List α} (hperm : s.Perm ((List.range n).map x)) (hs : s.Pairwise (· ≤ ·)) :
    s[k]? = some (x k) := by
  let le : α → α → Bool := fun a b => decide (a ≤ b)
  let left := ((List.range k).map x).mergeSort le
  let right := ((List.range' (k + 1) (n - (k + 1))).map x).mergeSort le
  have hsorted : ∀ l : List α, (l.mergeSort le).Pairwise (· ≤ ·) := by
    intro l
    have h : (l.mergeSort le).Pairwise fun a b => le a b = true :=
      List.pairwise_mergeSort (fun a b c => by simpa [le] using le_trans)
        (fun a b => by simpa [le] using le_total a b) l
    exact h.imp (by simp [le])
  have hmemLeft : ∀ a ∈ left, ∃ i < k, x i = a := by
    intro a ha
    rw [List.mem_mergeSort, List.mem_map] at ha
    simpa using ha
  have hmemRight : ∀ a ∈ right, ∃ j, k + 1 ≤ j ∧ j < n ∧ x j = a := by
    intro a ha
    rw [List.mem_mergeSort, List.mem_map] at ha
    obtain ⟨j, hj, rfl⟩ := ha
    rw [List.mem_range'_1] at hj
    exact ⟨j, hj.1, by omega, rfl⟩
  have hall : (left ++ x k :: right).Pairwise (· ≤ ·) := by
    rw [List.pairwise_append, List.pairwise_cons]
    refine ⟨hsorted _, ⟨fun b hb => ?_, hsorted _⟩, fun a ha b hb => ?_⟩
    · obtain ⟨j, hj, hlt, rfl⟩ := hmemRight b hb
      exact hcut' k (by omega) j hj hlt
    · obtain ⟨i, hi, rfl⟩ := hmemLeft a ha
      rcases List.mem_cons.mp hb with rfl | hb
      · exact hcut i hi k le_rfl hk
      · obtain ⟨j, hj, hlt, rfl⟩ := hmemRight b hb
        exact hcut i hi j (by omega) hlt
  have hrange : List.range n = List.range k ++ k :: List.range' (k + 1) (n - (k + 1)) := by
    have happend : List.range' 0 k ++ List.range' (0 + k) (n - (k + 1) + 1) = _ :=
      List.range'_append_1
    rw [← List.range'_succ, List.range_eq_range', List.range_eq_range']
    rw [Nat.zero_add] at happend
    rw [happend]
    congr 1
    omega
  have hsame : (left ++ x k :: right).Perm s := by
    refine List.Perm.trans ?_ hperm.symm
    rw [hrange, List.map_append, List.map_cons]
    exact (List.mergeSort_perm _ _).append ((List.mergeSort_perm _ _).cons _)
  have hlength : left.length = k := by
    rw [List.length_mergeSort, List.length_map, List.length_range]
  have heq : left ++ x k :: right = s := hsame.eq_of_pairwise' hall hs
  rw [← heq, List.getElem?_append_right (by omega), hlength, Nat.sub_self]
  rfl

end Order

end Chrony.Lib
