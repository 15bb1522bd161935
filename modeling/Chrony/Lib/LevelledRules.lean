import Mathlib.Data.List.Induction
import Mathlib.Data.List.Perm.Basic
import Mathlib.Data.List.Pairwise

/-!
# Rules with Levels

Rules are given one after another. Each rule has a level, and a rule may clear the
earlier ones that are at its level or at a deeper one. Of the rules that survive, the
one at the greatest level wins, and the latest one among those of equal level.

What a list of survivors is good for is determined by the latest survivor of each level,
its `slot`. A new rule changes the slots by one update (`slot_apply`), the winner is the
deepest slot in use (`slot_winner`, `winner_congr`), and rules that clear nothing and have different
levels can be given in any order (`slot_foldl_perm`).
-/

namespace Chrony.Lib.LevelledRules

variable {ρ : Type*} (level : ρ → ℕ) (clears : ρ → Bool)

/-- The survivors after one more rule. -/
def apply (acc : List ρ) (r : ρ) : List ρ :=
  (if clears r then acc.filter (level · < level r) else acc) ++ [r]

/-- The survivors of a list of rules. -/
def survivors (rules : List ρ) : List ρ :=
  rules.foldl (apply level clears) []

/-- The better of two rules of which the second is the later one. -/
def better (best : Option ρ) (r : ρ) : Option ρ :=
  match best with
  | none => some r
  | some b => if level b ≤ level r then some r else some b

/-- The rule at the greatest level, the latest one among equals. -/
def winner (rules : List ρ) : Option ρ :=
  rules.foldl (better level) none

/-- The latest rule at the level `k`. -/
def slot (rules : List ρ) (k : ℕ) : Option ρ :=
  (rules.filter (level · = k)).getLast?

variable {level clears}

@[simp] theorem slot_nil (k : ℕ) : slot level ([] : List ρ) k = none := rfl

theorem slot_append_singleton (acc : List ρ) (r : ρ) (k : ℕ) :
    slot level (acc ++ [r]) k = if level r = k then some r else slot level acc k := by
  by_cases h : level r = k
  · simp [slot, List.filter_append, h]
  · simp [slot, List.filter_append, h]

/-- A new rule takes the slot of its level, and may clear the deeper ones. -/
theorem slot_apply (acc : List ρ) (r : ρ) (k : ℕ) :
    slot level (apply level clears acc r) k =
      if k = level r then some r
      else if clears r ∧ level r < k then none
      else slot level acc k := by
  rw [apply, slot_append_singleton]
  by_cases hk : k = level r
  · simp [hk]
  · rw [if_neg (Ne.symm hk), if_neg hk]
    by_cases hc : clears r = true
    · have hfilter : (acc.filter (level · < level r)).filter (level · = k) =
          if k < level r then acc.filter (level · = k) else [] := by
        rw [List.filter_filter]
        split
        · next hlt =>
            refine List.filter_congr fun x _ => ?_
            by_cases hx : level x = k
            · simp [hx, hlt]
            · simp [hx]
        · next hge =>
            rw [List.filter_eq_nil_iff]
            intro x _ hx
            simp only [Bool.and_eq_true, decide_eq_true_eq] at hx
            omega
      rw [if_pos hc, slot, hfilter]
      by_cases hlt : level r < k
      · have hlt' : ¬ k < level r := by omega
        simp [hc, hlt, hlt']
      · have hlt' : k < level r := by omega
        simp [hlt, hlt', slot]
    · simp [hc]

/-- No winner means that there is no rule. -/
theorem winner_eq_none {rules : List ρ} (h : winner level rules = none) : rules = [] := by
  cases rules using List.reverseRecOn with
  | nil => rfl
  | append_singleton l y =>
      rw [winner, List.foldl_append] at h
      change better level (winner level l) y = none at h
      cases hl : winner level l with
      | none => simp [hl, better] at h
      | some b =>
          rw [hl, better] at h
          split at h <;> cases h

/-- The winner is the deepest slot in use. -/
theorem slot_winner {rules : List ρ} {r : ρ} (h : winner level rules = some r) :
    slot level rules (level r) = some r ∧ ∀ k, level r < k → slot level rules k = none := by
  induction rules using List.reverseRecOn generalizing r with
  | nil => simp [winner] at h
  | append_singleton rules x ih =>
      rw [winner, List.foldl_append] at h
      change better level (winner level rules) x = some r at h
      simp only [slot_append_singleton]
      cases hw : winner level rules with
      | none =>
          rw [hw] at h
          obtain rfl : x = r := Option.some.inj h
          obtain rfl := winner_eq_none hw
          refine ⟨by simp, fun k hk => ?_⟩
          simp [Nat.ne_of_lt hk]
      | some b =>
          obtain ⟨hb, hdeep⟩ := ih hw
          rw [hw, better] at h
          split at h
          · next hle =>
              obtain rfl : x = r := Option.some.inj h
              refine ⟨by simp, fun k hk => ?_⟩
              rw [if_neg (Nat.ne_of_lt hk)]
              exact hdeep k (by omega)
          · next hgt =>
              obtain rfl : b = r := Option.some.inj h
              refine ⟨by rw [if_neg (by omega)]; exact hb, fun k hk => ?_⟩
              rw [if_neg (by omega)]
              exact hdeep k hk

/-- The slots determine the winner. -/
theorem winner_congr {rules rules' : List ρ} (h : ∀ k, slot level rules k = slot level rules' k) :
    winner level rules = winner level rules' := by
  have hnone : ∀ {l l' : List ρ}, (∀ k, slot level l k = slot level l' k) →
      winner level l = none → winner level l' = none := by
    intro l l' hl hw
    cases hw' : winner level l' with
    | none => rfl
    | some r =>
        have hr := (slot_winner hw').1
        rw [← hl, winner_eq_none hw, slot_nil] at hr
        cases hr
  cases hw : winner level rules with
  | none => rw [hnone h hw]
  | some r =>
      cases hw' : winner level rules' with
      | none => rw [hnone (fun k => (h k).symm) hw'] at hw; cases hw
      | some r' =>
          obtain ⟨hr, hdeep⟩ := slot_winner hw
          obtain ⟨hr', hdeep'⟩ := slot_winner hw'
          -- a deeper winner of one list would be a deeper slot of the other one
          have hlevel : level r = level r' := by
            rcases Nat.lt_trichotomy (level r) (level r') with hlt | heq | hgt
            · rw [← h, hdeep _ hlt] at hr'
              cases hr'
            · exact heq
            · rw [h, hdeep' _ hgt] at hr
              cases hr
          rw [h, hlevel, hr'] at hr
          exact hr.symm

/-- Rules act on the slots only. -/
theorem slot_foldl_congr {acc acc' : List ρ} (h : ∀ k, slot level acc k = slot level acc' k)
    (rules : List ρ) (k : ℕ) :
    slot level (rules.foldl (apply level clears) acc) k =
      slot level (rules.foldl (apply level clears) acc') k := by
  induction rules generalizing acc acc' with
  | nil => exact h k
  | cons r rules ih =>
      refine ih fun j => ?_
      rw [slot_apply, slot_apply, h]

/-- **Order independence.** Rules that clear nothing and have pairwise different levels
leave the same slots in any order. -/
theorem slot_foldl_perm {rules rules' : List ρ} (hperm : rules.Perm rules')
    (hclears : ∀ r ∈ rules, clears r = false)
    (hlevel : rules.Pairwise fun r r' => level r ≠ level r') (acc : List ρ) (k : ℕ) :
    slot level (rules.foldl (apply level clears) acc) k =
      slot level (rules'.foldl (apply level clears) acc) k := by
  induction hperm generalizing acc with
  | nil => rfl
  | cons x _ ih =>
      exact ih (fun r hr => hclears r (List.mem_cons_of_mem x hr))
        (List.pairwise_cons.mp hlevel).2 _
  | swap x y l =>
      refine slot_foldl_congr (fun j => ?_) l k
      have hne : level y ≠ level x :=
        (List.pairwise_cons.mp hlevel).1 x List.mem_cons_self
      have hx : clears x = false := hclears x (by simp)
      have hy : clears y = false := hclears y (by simp)
      simp only [slot_apply, hx, hy]
      by_cases hjx : j = level x
      · have hjy : j ≠ level y := fun h => hne (h.symm.trans hjx)
        simp [hjx, hne.symm]
      · simp [hjx]
  | trans h₁ _ ih₁ ih₂ =>
      have hlevel' := (h₁.pairwise_iff fun hne => Ne.symm hne).mp hlevel
      have hclears' : ∀ r ∈ _, clears r = false := fun r hr => hclears r (h₁.mem_iff.mpr hr)
      rw [ih₁ hclears hlevel, ih₂ hclears' hlevel']

end Chrony.Lib.LevelledRules
