import Chrony.AddrFilt.Paths
import Chrony.Lib.LevelledRules

/-!
# The Access-Control Tree Refines its Rules

The abstract model of the access control is a list of rules, each for the addresses
that share a prefix with the address of the rule. The level of a rule is the level of
the tree its prefix ends in, one for every four bits. A rule given with `all` clears the
earlier rules for an address at its level and at the deeper ones. The verdict for an
address is that of the surviving rule at the greatest level, the latest one among
equals, and denial if no rule survives.

The tree is read along the path of an address: `stateAt` is the state at each level of
the path, and a call of `set_subnet` changes these states exactly as the rule changes
the slots of the abstract model (`stateAt_setSubnet`, `LevelledRules.slot_apply`).

## Main results

* `isAllowed_run`: the tree gives the verdict of the rules, after any calls.
* `verdict_perm`: plain rules of different levels, or for disjoint subnets, can be given
  in any order.
* `isAnyAllowed_run`: `isAnyAllowed` tells whether some address of the family is allowed.
* `accessControl_refines_rules`: all of this together.
-/

namespace Chrony.AddrFilt

open Chrony.Lib

/-! ### The rules -/

/-- An access rule, as it is given to `ADF_Allow`, `ADF_AllowAll`, `ADF_Deny` or
`ADF_DenyAll`. -/
structure Rule where
  ip : IPAddr
  bits : ℤ
  allow : Bool
  all : Bool

namespace Rule

/-- The rules that the calls accept: the prefix is not longer than the address, and is
empty if no family is specified. -/
def valid (r : Rule) : Bool :=
  r.ip.family ≠ .id ∧ 0 ≤ r.bits ∧ r.bits ≤ addrLen r.ip

/-- The level of the tree in which the prefix of the rule ends. -/
def level (r : Rule) : ℕ :=
  (r.bits.toNat + 3) / 4

/-- The addresses that a rule is for: those which share its prefix, in both families if
none is specified. -/
def contains (r : Rule) (a : IPAddr) : Bool :=
  r.valid ∧ a.isReal ∧ (r.ip.family = .unspec ∨ r.ip.family = a.family) ∧
    ∀ i < r.bits.toNat, addrBit r.ip i = addrBit a i

/-- Two rules that no address is in common to. -/
def Disjoint (r r' : Rule) : Prop :=
  ∀ a, ¬ (r.contains a = true ∧ r'.contains a = true)

end Rule

/-- The verdict of a list of rules for an address. -/
def verdict (rules : List Rule) (a : IPAddr) : Bool :=
  let surviving := LevelledRules.survivors Rule.level Rule.all (rules.filter (·.contains a))
  match LevelledRules.winner Rule.level surviving with
  | some r => r.allow
  | none => false

/-- The call that a rule makes. -/
def giveRule (table : AuthTable) (r : Rule) : Status × AuthTable :=
  match r.allow, r.all with
  | true, false => allow table r.ip r.bits
  | true, true => allowAll table r.ip r.bits
  | false, false => deny table r.ip r.bits
  | false, true => denyAll table r.ip r.bits

/-- The table after a sequence of calls. -/
def run (rules : List Rule) : AuthTable :=
  rules.foldl (fun table r => (giveRule table r).2) createTable

/-- The state that a rule sets. -/
def Rule.newState (r : Rule) : State :=
  if r.allow then .allow else .deny

theorem giveRule_eq (table : AuthTable) (r : Rule) :
    giveRule table r = setSubnet' table r.ip r.bits r.newState r.all := by
  rcases r with ⟨ip, bits, allow, all⟩
  cases allow <;> cases all <;> rfl

/-! ### The calls -/

theorem Rule.valid_iff {r : Rule} :
    r.valid = true ↔ r.ip.family ≠ .id ∧ 0 ≤ r.bits ∧ r.bits ≤ addrLen r.ip := by
  simp [Rule.valid]

theorem Rule.contains_iff {r : Rule} {a : IPAddr} :
    r.contains a = true ↔ r.valid = true ∧ a.isReal = true ∧
      (r.ip.family = .unspec ∨ r.ip.family = a.family) ∧
      ∀ i < r.bits.toNat, addrBit r.ip i = addrBit a i := by
  simp [Rule.contains]

/-- An invalid call is refused and changes nothing. -/
theorem giveRule_invalid {r : Rule} (h : ¬ r.valid = true) (table : AuthTable) :
    giveRule table r = (.badSubnet, table) := by
  rw [giveRule_eq]
  obtain ⟨ip, bits, allow, all⟩ := r
  rw [Rule.valid_iff] at h
  cases ip with
  | unspec =>
      have hbits : bits ≠ 0 := by
        rintro rfl
        simp [IPAddr.family, addrLen] at h
      simp [setSubnet', hbits]
  | inet4 in4 =>
      have hbits : bits < 0 ∨ bits > 32 * (1 : ℕ) := by
        simp only [IPAddr.family, addrLen, ne_eq, reduceCtorEq, not_false_eq_true,
          true_and] at h
        omega
      simp only [setSubnet', setSubnet, if_pos hbits]
  | inet6 in6 =>
      have hbits : bits < 0 ∨ bits > 32 * (4 : ℕ) := by
        simp only [IPAddr.family, addrLen, ne_eq, reduceCtorEq, not_false_eq_true,
          true_and] at h
        omega
      simp only [setSubnet', setSubnet, if_pos hbits]
  | id id => rfl

/-- A valid call for a prefix in both families changes the two trees. -/
theorem setSubnet'_unspec (table : AuthTable) (st : State) (del : Bool) :
    setSubnet' table .unspec 0 st del =
      (.success, ⟨(setSubnet table.base4 [0, 0, 0, 0] 1 0 st del).2,
        (setSubnet table.base6 [0, 0, 0, 0] 4 0 st del).2⟩) := by
  have h4 : (setSubnet table.base4 [0, 0, 0, 0] 1 0 st del).1 = .success :=
    setSubnet_success le_rfl (by omega) _ _ _ _
  have h6 : (setSubnet table.base6 [0, 0, 0, 0] 4 0 st del).1 = .success :=
    setSubnet_success le_rfl (by omega) _ _ _ _
  unfold setSubnet'
  simp only [ne_eq, not_true_eq_false, if_false, h4, h6, if_true]

/-- A valid call succeeds. -/
theorem giveRule_valid {r : Rule} (h : r.valid = true) (table : AuthTable) :
    (giveRule table r).1 = .success := by
  rw [giveRule_eq]
  obtain ⟨ip, bits, allow, all⟩ := r
  obtain ⟨hfam, hlo, hhi⟩ := Rule.valid_iff.mp h
  cases ip with
  | unspec =>
      obtain rfl : bits = 0 := le_antisymm (by simpa [addrLen] using hhi) hlo
      rw [setSubnet'_unspec]
  | inet4 in4 => exact setSubnet_success hlo (by simpa [addrLen] using hhi) _ _ _ _
  | inet6 in6 => exact setSubnet_success hlo (by simpa [addrLen] using hhi) _ _ _ _
  | id id => simp [IPAddr.family] at hfam

/-- A rule contains an address of its family when the paths share the prefix. -/
theorem Rule.contains_iff_pathBit {r : Rule} {a : IPAddr} (hr : r.valid = true)
    (ha : a.isReal = true) (hf : r.ip.family = a.family) :
    r.contains a = true ↔ ∀ i < r.bits.toNat,
      pathBit (path (addrWords a)) i = pathBit (path (addrWords r.ip)) i := by
  have hlen : addrLen r.ip = addrLen a := by
    cases hip : r.ip <;> cases a <;> rw [hip] at hf <;> first | rfl | cases hf
  have hhi := (Rule.valid_iff.mp hr).2.2
  rw [Rule.contains_iff]
  simp only [hr, ha, hf, or_true, true_and]
  refine forall₂_congr fun i hi => ?_
  rw [pathBit_addrWords (by omega), pathBit_addrWords (by omega)]
  exact eq_comm

/-- What a rule does to the states on the path of an address, in the terms of
`LevelledRules.slot_apply`. -/
theorem stateAt_giveRule (table : AuthTable) (r : Rule) {a : IPAddr} (ha : a.isReal = true)
    (k : ℕ) :
    stateAt (path (addrWords a)) ((giveRule table r).2.node a.family) 0 k =
      if r.contains a then
        if k = r.level then r.newState
        else if r.all ∧ r.level < k then .asParent
        else stateAt (path (addrWords a)) (table.node a.family) 0 k
      else stateAt (path (addrWords a)) (table.node a.family) 0 k := by
  by_cases hvalid : r.valid = true
  · obtain ⟨hfam, hlo, hhi⟩ := Rule.valid_iff.mp hvalid
    by_cases hf : r.ip.family = a.family
    · simp only [Rule.contains_iff_pathBit hvalid ha hf, giveRule_eq]
      cases hip : r.ip with
      | unspec =>
          rw [hip] at hf
          cases a <;> simp [IPAddr.isReal, IPAddr.family] at ha hf
      | inet4 in4 =>
          rw [hip] at hf hhi
          rw [← hf]
          exact stateAt_setSubnet hlo (by simpa [addrLen] using hhi) _ _ _ k
      | inet6 in6 =>
          rw [hip] at hf hhi
          rw [← hf]
          exact stateAt_setSubnet hlo (by simpa [addrLen] using hhi) _ _ _ k
      | id id =>
          rw [hip] at hfam
          exact absurd rfl hfam
    · by_cases hu : r.ip = .unspec
      · -- the prefix is empty, so that both trees are changed for all addresses
        have hbits : r.bits = 0 :=
          le_antisymm (by simpa [hu, addrLen] using hhi) hlo
        have hcont : r.contains a = true := by
          simp [Rule.contains_iff, hvalid, ha, hu, IPAddr.family, hbits]
        have hset : ∀ (node : TableNode) (len : ℕ),
            stateAt (path (addrWords a))
              (setSubnet node [0, 0, 0, 0] len 0 r.newState r.all).2 0 k =
              if k = r.level then r.newState
              else if r.all ∧ r.level < k then .asParent
              else stateAt (path (addrWords a)) node 0 k := by
          intro node len
          rw [stateAt_setSubnet le_rfl (by omega)]
          simp [Rule.level, hbits]
        rw [if_pos hcont, giveRule_eq, hu, hbits, setSubnet'_unspec]
        cases a with
        | inet4 in4 => exact hset table.base4 1
        | inet6 in6 => exact hset table.base6 4
        | unspec => cases ha
        | id id => cases ha
      · have hcont : ¬ r.contains a = true := by
          rw [Rule.contains_iff]
          rintro ⟨-, -, h | h, -⟩
          · cases hip : r.ip <;> rw [hip] at h hu <;> first | exact hu rfl | cases h
          · exact hf h
        rw [if_neg hcont, giveRule_eq]
        cases hip : r.ip with
        | unspec => exact absurd hip hu
        | inet4 in4 =>
            rw [hip] at hf
            cases a with
            | inet4 _ => exact absurd rfl hf
            | inet6 _ => rfl
            | unspec => cases ha
            | id _ => cases ha
        | inet6 in6 =>
            rw [hip] at hf
            cases a with
            | inet4 _ => rfl
            | inet6 _ => exact absurd rfl hf
            | unspec => cases ha
            | id _ => cases ha
        | id id =>
            rw [hip] at hfam
            exact absurd rfl hfam
  · have hcont : ¬ r.contains a = true := fun h => hvalid (Rule.contains_iff.mp h).1
    rw [giveRule_invalid hvalid, if_neg hcont]

/-! ### The verdict -/

/-- The state that a slot of the rules stands for. The base nodes start as denied. -/
def stateOf (k : ℕ) : Option Rule → State
  | some r => r.newState
  | none => if k = 0 then .deny else .asParent

/-- The rules for an address that survive. -/
def surviving (rules : List Rule) (a : IPAddr) : List Rule :=
  LevelledRules.survivors Rule.level Rule.all (rules.filter (·.contains a))

theorem Rule.newState_ne_asParent (r : Rule) : r.newState ≠ .asParent := by
  rw [Rule.newState]
  split <;> simp

theorem Rule.newState_eq_allow (r : Rule) : r.newState = .allow ↔ r.allow = true := by
  rw [Rule.newState]
  split <;> simp_all

theorem run_append_singleton (rules : List Rule) (r : Rule) :
    run (rules ++ [r]) = (giveRule (run rules) r).2 := by
  simp [run, List.foldl_append]

/-- The survivors for an address after one more rule. -/
theorem surviving_append_singleton (rules : List Rule) (r : Rule) (a : IPAddr) :
    surviving (rules ++ [r]) a =
      if r.contains a then LevelledRules.apply Rule.level Rule.all (surviving rules a) r
      else surviving rules a := by
  by_cases h : r.contains a = true
  · simp [surviving, LevelledRules.survivors, List.filter_append, h]
  · simp [surviving, LevelledRules.survivors, List.filter_append, h]

/-- **The abstraction relation**: the states on the path of an address are the slots of
the surviving rules. -/
theorem stateAt_run (rules : List Rule) {a : IPAddr} (ha : a.isReal = true) (k : ℕ) :
    stateAt (path (addrWords a)) ((run rules).node a.family) 0 k =
      stateOf k (LevelledRules.slot Rule.level (surviving rules a) k) := by
  induction rules using List.reverseRecOn with
  | nil => cases a <;> cases k <;> rfl
  | append_singleton rules r ih =>
      rw [run_append_singleton, stateAt_giveRule _ _ ha, surviving_append_singleton, ih]
      by_cases hcont : r.contains a = true
      · rw [if_pos hcont, if_pos hcont, LevelledRules.slot_apply]
        by_cases hk : k = r.level
        · simp [hk, stateOf]
        · by_cases hall : r.all = true ∧ r.level < k
          · have hk0 : k ≠ 0 := by omega
            simp [hk, hall, hk0, stateOf]
          · simp only [hk, hall, if_false]
      · simp only [hcont]
        rfl

/-- A verdict is given on the last state of the path of the address. -/
theorem isAllowed_eq {a : IPAddr} (ha : a.isReal = true) (table : AuthTable) :
    isAllowed table a =
      (follow (path (addrWords a)) (table.node a.family) 0 .deny = .allow : Bool) := by
  cases a with
  | unspec => cases ha
  | inet4 in4 =>
      change checkIpInNode _ _ = _
      rw [checkIpInNode, ← lastState_eq_follow]
      rfl
  | inet6 in6 =>
      change checkIpInNode _ _ = _
      rw [checkIpInNode, ← lastState_eq_follow]
      rfl
  | id _ => cases ha

/-- No rule is for an address without a family of its own. -/
theorem verdict_of_not_isReal {a : IPAddr} (ha : a.isReal = false) (rules : List Rule) :
    verdict rules a = false := by
  have hnone : rules.filter (·.contains a) = [] := by
    rw [List.filter_eq_nil_iff]
    intro r _ hr
    have hreal := (Rule.contains_iff.mp hr).2.1
    rw [ha] at hreal
    cases hreal
  rw [verdict, hnone]
  rfl

/-- **The tree gives the verdict of the rules.** -/
theorem isAllowed_run (rules : List Rule) (a : IPAddr) :
    isAllowed (run rules) a = verdict rules a := by
  by_cases ha : a.isReal = true
  · rw [isAllowed_eq ha, verdict]
    change _ = match LevelledRules.winner Rule.level (surviving rules a) with
      | some r => r.allow
      | none => false
    cases hw : LevelledRules.winner Rule.level (surviving rules a) with
    | none =>
        have hnil := LevelledRules.winner_eq_none hw
        have h0 := stateAt_run rules ha 0
        rw [hnil, LevelledRules.slot_nil] at h0
        rw [follow_eq (k := 0) (by rw [h0]; simp [stateOf]), h0]
        · simp [stateOf]
        · intro j hj
          rw [stateAt_run rules ha, hnil, LevelledRules.slot_nil, stateOf, if_neg (by omega)]
    | some r =>
        obtain ⟨hr, hdeep⟩ := LevelledRules.slot_winner hw
        have hlevel := stateAt_run rules ha r.level
        rw [hr] at hlevel
        rw [follow_eq (by rw [hlevel]; exact r.newState_ne_asParent), hlevel]
        · change decide (r.newState = .allow) = r.allow
          simp [r.newState_eq_allow]
        · intro j hj
          rw [stateAt_run rules ha, hdeep j hj, stateOf, if_neg (by omega)]
  · rw [Bool.not_eq_true] at ha
    rw [verdict_of_not_isReal ha]
    cases a <;> first | rfl | cases ha

/-- The order of plain rules does not matter when no two of them are for a common address
and at the same level. -/
theorem verdict_perm {rules rules' : List Rule} (hperm : rules.Perm rules')
    (hplain : ∀ r ∈ rules, r.all = false)
    (hpair : rules.Pairwise fun r r' => r.level ≠ r'.level ∨ r.Disjoint r')
    (before after : List Rule) (a : IPAddr) :
    verdict (before ++ rules ++ after) a = verdict (before ++ rules' ++ after) a := by
  have hlevel : (rules.filter (·.contains a)).Pairwise fun r r' => r.level ≠ r'.level := by
    have hmem := hpair.filter (·.contains a)
    refine hmem.imp_of_mem fun {r r'} hr hr' h => ?_
    rcases h with h | h
    · exact h
    · exact absurd ⟨(List.mem_filter.mp hr).2, (List.mem_filter.mp hr').2⟩ (h a)
  have hplain' : ∀ r ∈ rules.filter (·.contains a), r.all = false :=
    fun r hr => hplain r (List.mem_filter.mp hr).1
  have hslot : ∀ k, LevelledRules.slot Rule.level (surviving (before ++ rules ++ after) a) k =
      LevelledRules.slot Rule.level (surviving (before ++ rules' ++ after) a) k := by
    intro k
    simp only [surviving, LevelledRules.survivors, List.filter_append, List.foldl_append]
    exact LevelledRules.slot_foldl_congr
      (LevelledRules.slot_foldl_perm (hperm.filter _) hplain' hlevel _) _ k
  have hwinner := LevelledRules.winner_congr hslot
  rw [surviving, surviving] at hwinner
  simp only [verdict, hwinner]

/-! ### Whether any address is allowed -/

/-- The depth of both trees stays within the length of the addresses. -/
theorem run_depthLe (rules : List Rule) :
    DepthLe 8 (run rules).base4 ∧ DepthLe 32 (run rules).base6 := by
  induction rules using List.reverseRecOn with
  | nil => exact ⟨trivial, trivial⟩
  | append_singleton rules r ih =>
      obtain ⟨h4, h6⟩ := ih
      rw [run_append_singleton, giveRule_eq]
      cases hip : r.ip with
      | unspec =>
          by_cases hbits : r.bits = 0
          · rw [hbits, setSubnet'_unspec]
            exact ⟨setSubnet_depthLe 1 h4 _ _ _ _, setSubnet_depthLe 4 h6 _ _ _ _⟩
          · simp only [setSubnet', ne_eq, hbits, not_false_eq_true, if_true]
            exact ⟨h4, h6⟩
      | inet4 in4 => exact ⟨setSubnet_depthLe 1 h4 _ _ _ _, h6⟩
      | inet6 in6 => exact ⟨h4, setSubnet_depthLe 4 h6 _ _ _ _⟩
      | id _ => exact ⟨h4, h6⟩

/-- The base nodes have a state of their own, so that the state the search starts from
does not matter. -/
theorem follow_run (rules : List Rule) {a : IPAddr} (ha : a.isReal = true) (q : ℕ → Fin 16)
    (s s' : State) :
    follow q ((run rules).node a.family) 0 s = follow q ((run rules).node a.family) 0 s' := by
  have h0 := stateAt_run rules ha 0
  rw [stateAt_zero] at h0
  have hne : ((run rules).node a.family).state ≠ .asParent := by
    rw [h0]
    cases LevelledRules.slot Rule.level (surviving rules a) 0 with
    | none => simp [stateOf]
    | some r => exact r.newState_ne_asParent
  cases hnode : (run rules).node a.family with
  | closed st =>
      rw [hnode] at hne
      have hst : st ≠ .asParent := hne
      simp [follow, hst]
  | opened st extended =>
      rw [hnode] at hne
      have hst : st ≠ .asParent := hne
      simp [follow, hst]

/-- `ADF_IsAnyAllowed` tells whether some address of the family is allowed. -/
theorem isAnyAllowed_run (rules : List Rule) (f : Family) :
    isAnyAllowed (run rules) f = true ↔
      ∃ a : IPAddr, a.family = f ∧ isAllowed (run rules) a = true := by
  obtain ⟨h4, h6⟩ := run_depthLe rules
  by_cases hf : f = .inet4 ∨ f = .inet6
  · have hany : isAnyAllowed (run rules) f = true ↔
        ∃ q, follow q ((run rules).node f) 0 .asParent = .allow := by
      rcases hf with rfl | rfl
      · exact isAnyAllowed'_iff h4 0 _
      · exact isAnyAllowed'_iff h6 0 _
    rw [hany]
    constructor
    · rintro ⟨q, hq⟩
      obtain ⟨a, rfl, hpath⟩ := exists_addr_path q hf
      have ha : a.isReal = true := by
        cases a <;> simp [IPAddr.family, IPAddr.isReal] at hf ⊢
      refine ⟨a, rfl, ?_⟩
      rw [isAllowed_eq ha, decide_eq_true_eq, follow_run rules ha _ _ .asParent, ← hq]
      cases a with
      | unspec => cases ha
      | inet4 in4 => exact follow_congr h4 (fun i _ hi => hpath i (by simpa [addrLen] using hi)) _
      | inet6 in6 => exact follow_congr h6 (fun i _ hi => hpath i (by simpa [addrLen] using hi)) _
      | id _ => cases ha
    · rintro ⟨a, rfl, hall⟩
      have ha : a.isReal = true := by
        cases a <;> simp [IPAddr.family, IPAddr.isReal] at hf ⊢
      rw [isAllowed_eq ha, decide_eq_true_eq, follow_run rules ha _ _ .asParent] at hall
      exact ⟨_, hall⟩
  · have hnone : isAnyAllowed (run rules) f = false := by
      cases f <;> simp [isAnyAllowed] at hf ⊢
    rw [hnone]
    constructor
    · intro h
      cases h
    · rintro ⟨a, rfl, hall⟩
      cases a <;> simp [IPAddr.family, isAllowed] at hf hall

/-- **The access-control tree refines its rules.** After any sequence of calls, an address
is allowed when the rules say so; a call is refused exactly when it is invalid, and then
changes nothing; plain rules which have pairwise different levels or are for disjoint
subnets can be given in any order, before and after any other rules; and
`ADF_IsAnyAllowed` tells whether some address of the family is allowed. -/
theorem accessControl_refines_rules :
    (∀ rules a, isAllowed (run rules) a = verdict rules a) ∧
      (∀ table r, r.valid = true → (giveRule table r).1 = .success) ∧
      (∀ table r, r.valid = false → giveRule table r = (.badSubnet, table)) ∧
      (∀ rules rules' : List Rule, rules.Perm rules' → (∀ r ∈ rules, r.all = false) →
        (rules.Pairwise fun r r' => r.level ≠ r'.level ∨ r.Disjoint r') →
        ∀ before after a, isAllowed (run (before ++ rules ++ after)) a =
          isAllowed (run (before ++ rules' ++ after)) a) ∧
      ∀ rules f, isAnyAllowed (run rules) f = true ↔
        ∃ a : IPAddr, a.family = f ∧ isAllowed (run rules) a = true := by
  refine ⟨isAllowed_run, fun table r h => giveRule_valid h table,
    fun table r h => giveRule_invalid (by simp [h]) table, ?_, isAnyAllowed_run⟩
  intro rules rules' hperm hplain hpair before after a
  rw [isAllowed_run, isAllowed_run]
  exact verdict_perm hperm hplain hpair before after a

end Chrony.AddrFilt
