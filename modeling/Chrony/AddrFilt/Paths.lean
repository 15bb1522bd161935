import Mathlib.Algebra.Order.Ring.Nat
import Mathlib.Tactic.IntervalCases
import Chrony.AddrFilt.Tree

/-!
# Paths in the Access-Control Tree

An address determines a path in the tree, one child for every four of its bits. The tree
is read along a path: `stateAt` is the state at each level of it, and `follow` the last
state that is not taken from the parent, which is what `check_ip_in_node` decides on.

## Main results

* `stateAt_setSubnet`: a call of `set_subnet` sets the state at the level of the prefix,
  on the paths which share the prefix, and clears the deeper levels if the children are
  deleted.
* `setSubnet_depthLe`: the tree does not get deeper than the addresses are long, so that
  no word after the last one of an address is read.
* `follow_eq`: the last state is the deepest one that is set.
* `isAnyAllowed'_iff`: `is_any_allowed` tells whether some path is allowed.
-/

namespace Chrony.AddrFilt

/-! ### The states on the path of an address -/

/-- The index of the child that the loops take at the level `d`. -/
def path (ip : List (BitVec 32)) (d : ℕ) : Fin 16 :=
  (getSubnet ip (d * 4)).toFin

/-- The state of the node `k` levels below `node` on the path `q` from the level `d`, or
`asParent` if the path ends before. -/
def stateAt (q : ℕ → Fin 16) : TableNode → ℕ → ℕ → State
  | .closed s, _, 0 => s
  | .closed _, _, _ + 1 => .asParent
  | .opened s _, _, 0 => s
  | .opened _ extended, d, k + 1 => stateAt q (extended (q d)) (d + 1) k

@[simp] theorem stateAt_zero (q : ℕ → Fin 16) (node : TableNode) (d : ℕ) :
    stateAt q node d 0 = node.state := by
  cases node <;> rfl

/-- Opening a node does not change what is on the path. -/
theorem stateAt_succ (q : ℕ → Fin 16) (node : TableNode) (d k : ℕ) :
    stateAt q node d (k + 1) = stateAt q (node.openNode (q d)) (d + 1) k := by
  cases node with
  | closed s => cases k <;> rfl
  | opened s extended => rfl

/-- Setting one entry changes its state, and clears what is below if the children are
deleted. -/
theorem stateAt_setEntry (q : ℕ → Fin 16) (st : State) (del : Bool) (node : TableNode)
    (d k : ℕ) :
    stateAt q (setEntry st del node) d k =
      if k = 0 then st else if del then .asParent else stateAt q node d k := by
  cases node <;> cases del <;> cases k <;> rfl

/-- Setting some entries of a table does so on the paths which go through them. -/
theorem stateAt_setEntries (q : ℕ → Fin 16) (subnet n : ℕ) (st : State) (del : Bool)
    (node : TableNode) (d k : ℕ) :
    stateAt q (setEntries subnet n st del node) d k =
      if subnet ≤ q d ∧ q d < subnet + n then
        if k = 1 then st else if del ∧ 1 < k then .asParent else stateAt q node d k
      else stateAt q node d k := by
  cases k with
  | zero => simp [setEntries, TableNode.state]
  | succ k =>
      rw [setEntries, stateAt, stateAt_succ q node]
      split
      · rw [stateAt_setEntry]
        cases k <;> simp
      · rfl

/-- Going down the path `p` changes the nodes on the paths that share it, at and below
the node that is got to. -/
theorem stateAt_descend (ip : List (BitVec 32)) (q : ℕ → Fin 16) (set : TableNode → TableNode)
    (f : (ℕ → State) → ℕ → State) (levels d : ℕ)
    (hset : ∀ node k, stateAt q (set node) (d + levels) k =
      f (stateAt q node (d + levels)) k) (node : TableNode) (k : ℕ) :
    stateAt q (descend ip set levels (d * 4) node) d k =
      if ∀ i < levels, q (d + i) = path ip (d + i) then
        if k < levels then stateAt q node d k
        else f (fun j => stateAt q node d (levels + j)) (k - levels)
      else stateAt q node d k := by
  induction levels generalizing d node k with
  | zero => simpa [descend] using hset node k
  | succ levels ih =>
      have hset' : ∀ node k, stateAt q (set node) (d + 1 + levels) k =
          f (stateAt q node (d + 1 + levels)) k := by
        intro node k
        have heq : d + 1 + levels = d + (levels + 1) := by omega
        rw [heq]
        exact hset node k
      have hmul : d * 4 + 4 = (d + 1) * 4 := by omega
      rw [descend]
      cases k with
      | zero => simp [TableNode.state]
      | succ k =>
          simp only [stateAt, hmul]
          change stateAt q (Function.update node.openNode (path ip d)
            (descend ip set levels ((d + 1) * 4) (node.openNode (path ip d))) (q d)) (d + 1) k = _
          by_cases hq : q d = path ip d
          · rw [hq, Function.update_self, ih (d + 1) hset']
            have hall : (∀ i < levels + 1, q (d + i) = path ip (d + i)) ↔
                ∀ i < levels, q (d + 1 + i) = path ip (d + 1 + i) := by
              constructor
              · intro h i hi
                have := h (i + 1) (by omega)
                rwa [show d + (i + 1) = d + 1 + i by omega] at this
              · intro h i hi
                cases i with
                | zero => simpa using hq
                | succ i =>
                    have := h i (by omega)
                    rwa [show d + 1 + i = d + (i + 1) by omega] at this
            simp only [hall, ← hq, stateAt_succ, Nat.add_lt_add_iff_right, Nat.add_sub_add_right,
              Nat.succ_add]
          · rw [Function.update_of_ne hq, ← stateAt_succ, if_neg]
            intro h
            exact hq (by simpa using h 0 (by omega))

/-! ### Prefixes as paths -/

/-- The bits of a path, four for every level. -/
def pathBit (q : ℕ → Fin 16) (i : ℕ) : Bool :=
  (BitVec.ofFin (q (i / 4)) : BitVec 4).getMsbD (i % 4)

theorem nibble_eq_iff (x y : Fin 16) :
    x = y ↔ ∀ j < 4, (BitVec.ofFin x : BitVec 4).getMsbD j =
      (BitVec.ofFin y : BitVec 4).getMsbD j := by
  revert x y
  decide

/-- The entries that `set_subnet` sets in the last table are those that share the
remaining bits of the prefix. -/
theorem entries_iff (x y : BitVec 4) {r : ℕ} (hr : r < 4) (hr0 : r ≠ 0) :
    ((x &&& ~~~(BitVec.ofNat 4 (1 <<< (4 - r) - 1))).toNat ≤ y.toNat ∧
      y.toNat < (x &&& ~~~(BitVec.ofNat 4 (1 <<< (4 - r) - 1))).toNat + 1 <<< (4 - r)) ↔
      ∀ j < r, y.getMsbD j = x.getMsbD j := by
  interval_cases r
  · exact absurd rfl hr0
  · revert x y
    decide
  · revert x y
    decide
  · revert x y
    decide

/-- Two paths share `4 * m + r` bits when they share `m` levels and `r` more bits. -/
theorem pathBit_prefix_iff (q p : ℕ → Fin 16) {m r : ℕ} (hr : r < 4) :
    (∀ i < 4 * m + r, pathBit q i = pathBit p i) ↔
      (∀ i < m, q i = p i) ∧
      ∀ j < r, (BitVec.ofFin (q m) : BitVec 4).getMsbD j =
        (BitVec.ofFin (p m) : BitVec 4).getMsbD j := by
  have hbit : ∀ (f : ℕ → Fin 16) (n j : ℕ), j < 4 →
      pathBit f (4 * n + j) = (BitVec.ofFin (f n) : BitVec 4).getMsbD j := by
    intro f n j hj
    have h1 : (4 * n + j) / 4 = n := by omega
    have h2 : (4 * n + j) % 4 = j := by omega
    rw [pathBit, h1, h2]
  constructor
  · intro h
    refine ⟨fun i hi => (nibble_eq_iff _ _).mpr fun j hj => ?_, fun j hj => ?_⟩
    · rw [← hbit q i j hj, ← hbit p i j hj]
      exact h _ (by omega)
    · rw [← hbit q m j (by omega), ← hbit p m j (by omega)]
      exact h _ (by omega)
  · rintro ⟨hm, hlast⟩ i hi
    have hi' : i = 4 * (i / 4) + i % 4 := by omega
    rw [hi', hbit q _ _ (by omega), hbit p _ _ (by omega)]
    by_cases hlt : i / 4 < m
    · rw [hm _ hlt]
    · have hieq : i / 4 = m := by omega
      rw [hieq]
      exact hlast _ (by omega)

/-- **What `set_subnet` does to the path of an address**: nothing if the address does not
share the prefix, and otherwise it sets the state at the level of the prefix, and clears
the deeper levels if the children are deleted. -/
theorem stateAt_setSubnet {node : TableNode} {ip : List (BitVec 32)} {ipLen : ℕ} {bits : ℤ}
    (hlo : 0 ≤ bits) (hhi : bits ≤ 32 * ipLen) (st : State) (del : Bool) (q : ℕ → Fin 16)
    (k : ℕ) :
    stateAt q (setSubnet node ip ipLen bits st del).2 0 k =
      if ∀ i < bits.toNat, pathBit q i = pathBit (path ip) i then
        if k = (bits.toNat + 3) / 4 then st
        else if del ∧ (bits.toNat + 3) / 4 < k then .asParent
        else stateAt q node 0 k
      else stateAt q node 0 k := by
  obtain ⟨n, rfl⟩ := Int.eq_ofNat_of_zero_le hlo
  have hin : ¬ ((n : ℤ) < 0 ∨ (n : ℤ) > 32 * ipLen) := by omega
  have hn : n = 4 * (n / 4) + n % 4 := by omega
  have hiff := pathBit_prefix_iff q (path ip) (m := n / 4) (r := n % 4) (by omega)
  rw [← hn] at hiff
  rw [setSubnet, if_neg hin]
  simp only [Int.toNat_natCast, hiff]
  by_cases hr : n % 4 = 0
  · have hlevel : (n + 3) / 4 = n / 4 := by omega
    have hdesc := stateAt_descend ip q (setEntry st del)
      (fun g k => if k = 0 then st else if del then .asParent else g k) (n / 4) 0
      (fun node k => stateAt_setEntry q st del node _ k) node k
    simp only [hr, hlevel, if_true, Nat.not_lt_zero, false_implies, implies_true, and_true]
    simp only [Nat.zero_mul, Nat.zero_add] at hdesc
    rw [hdesc]
    by_cases hm : ∀ i < n / 4, q i = path ip i
    · rw [if_pos hm, if_pos hm]
      by_cases hlt : k < n / 4
      · have h1 : k ≠ n / 4 := by omega
        have h2 : ¬ n / 4 < k := by omega
        simp [hlt, h1, h2]
      · by_cases heq : k = n / 4
        · simp [heq]
        · have h1 : k - n / 4 ≠ 0 := by omega
          have h2 : n / 4 < k := by omega
          have h3 : n / 4 + (k - n / 4) = k := by omega
          simp [hlt, heq, h1, h2, h3]
    · simp only [hm, if_false]
  · have hlevel : (n + 3) / 4 = n / 4 + 1 := by omega
    have hentries := entries_iff (getSubnet ip (n / 4 * 4)) (BitVec.ofFin (q (n / 4)))
      (r := n % 4) (by omega) hr
    have hdesc := stateAt_descend ip q
      (setEntries (getSubnet ip (n / 4 * 4) &&&
        ~~~(BitVec.ofNat 4 (1 <<< (4 - n % 4) - 1))).toNat (1 <<< (4 - n % 4)) st del)
      (fun g k =>
        if ∀ j < n % 4, (BitVec.ofFin (q (n / 4)) : BitVec 4).getMsbD j =
            (getSubnet ip (n / 4 * 4)).getMsbD j then
          if k = 1 then st else if del ∧ 1 < k then .asParent else g k
        else g k) (n / 4) 0
      (fun node k => by
        rw [stateAt_setEntries, Nat.zero_add]
        exact if_congr hentries rfl rfl) node k
    simp only [hr, hlevel, if_false]
    simp only [Nat.zero_mul, Nat.zero_add] at hdesc
    rw [hdesc]
    have hpath : (BitVec.ofFin (path ip (n / 4)) : BitVec 4) = getSubnet ip (n / 4 * 4) := rfl
    simp only [hpath]
    by_cases hm : ∀ i < n / 4, q i = path ip i
    · rw [if_pos hm]
      simp only [and_iff_right hm]
      by_cases hlt : k < n / 4
      · have h1 : k ≠ n / 4 + 1 := by omega
        have h2 : ¬ n / 4 + 1 < k := by omega
        simp [hlt, h1, h2]
      · have h1 : n / 4 + (k - n / 4) = k := by omega
        have h2 : k - n / 4 = 1 ↔ k = n / 4 + 1 := by omega
        have h3 : 1 < k - n / 4 ↔ n / 4 + 1 < k := by omega
        simp only [hlt, if_false, h1, h2, h3]
    · simp only [hm, if_false, false_and]

/-! ### Addresses as paths -/

/-- The bits of an address, the most significant one first. -/
def addrBit : IPAddr → ℕ → Bool
  | .inet4 in4, i => in4.getMsbD i
  | .inet6 in6, i => if h : i < 128 then (in6 ⟨i / 8, by omega⟩).getMsbD (i % 8) else false
  | _, _ => false

/-- The number of bits of an address of a family that rules can be made for. -/
def addrLen : IPAddr → ℕ
  | .inet4 _ => 32
  | .inet6 _ => 128
  | _ => 0

/-- The words of an address. -/
def addrWords : IPAddr → List (BitVec 32)
  | .inet4 in4 => [in4]
  | .inet6 in6 => splitIp6 in6
  | _ => []

/-- The base node for the addresses of a family. -/
def AuthTable.node (table : AuthTable) : Family → TableNode
  | .inet6 => table.base6
  | _ => table.base4

/-- The bits of an entry index are bits of the address. -/
theorem getMsbD_getSubnet (addr : List (BitVec 32)) (d j : ℕ) (hj : j < 4) :
    (getSubnet addr (d * 4)).getMsbD j =
      (addr.getD (d * 4 / 32) 0).getMsbD (d * 4 % 32 + j) := by
  have hd : d * 4 % 32 ≤ 28 := by omega
  have h1 : 32 - 4 - d * 4 % 32 + (4 - 1 - j) = 32 - 1 - (d * 4 % 32 + j) := by omega
  have h2 : d * 4 % 32 + j < 32 := by omega
  have h3 : 4 - 1 - j < 4 := by omega
  simp only [getSubnet, BitVec.getMsbD, BitVec.getLsbD_setWidth, BitVec.getLsbD_ushiftRight]
  simp [hj, h1, h2, h3]

/-- The bits of the path of an address are the bits of its words. -/
theorem pathBit_path (addr : List (BitVec 32)) (i : ℕ) :
    pathBit (path addr) i = (addr.getD (i / 32) 0).getMsbD (i % 32) := by
  have h1 : i / 4 * 4 / 32 = i / 32 := by omega
  have h2 : i / 4 * 4 % 32 + i % 4 = i % 32 := by omega
  rw [pathBit]
  change (getSubnet addr (i / 4 * 4)).getMsbD (i % 4) = _
  rw [getMsbD_getSubnet addr (i / 4) (i % 4) (by omega), h1, h2]

/-- The bits of a word that is put together from bytes. -/
theorem getMsbD_word (b₀ b₁ b₂ b₃ : BitVec 8) {m : ℕ} (hm : m < 32) :
    (b₀.setWidth 32 <<< 24 ||| b₁.setWidth 32 <<< 16 ||| b₂.setWidth 32 <<< 8 |||
      b₃.setWidth 32).getMsbD m =
      (if m / 8 = 0 then b₀ else if m / 8 = 1 then b₁ else if m / 8 = 2 then b₂
        else b₃).getMsbD (m % 8) := by
  interval_cases m <;> simp [BitVec.getMsbD]

/-- The bits of the words of an IPv6 address are the bits of its bytes. -/
theorem getMsbD_splitIp6 (in6 : Fin 16 → BitVec 8) {i : ℕ} (hi : i < 128) :
    ((splitIp6 in6).getD (i / 32) 0).getMsbD (i % 32) =
      (in6 ⟨i / 8, Nat.div_lt_of_lt_mul hi⟩).getMsbD (i % 8) := by
  have h4 : i / 32 < 4 := by omega
  have hget : (splitIp6 in6).getD (i / 32) 0 =
      (in6 ⟨i / 32 * 4 + 0, by omega⟩).setWidth 32 <<< 24 |||
        (in6 ⟨i / 32 * 4 + 1, by omega⟩).setWidth 32 <<< 16 |||
        (in6 ⟨i / 32 * 4 + 2, by omega⟩).setWidth 32 <<< 8 |||
        (in6 ⟨i / 32 * 4 + 3, by omega⟩).setWidth 32 := by
    simp [splitIp6, List.getD_eq_getElem?_getD, h4]
  have hbyte : ∀ n (hn : n < 16), n = i / 8 → in6 ⟨n, hn⟩ = in6 ⟨i / 8, by omega⟩ := by
    rintro n hn rfl
    rfl
  have hmod : i % 32 % 8 = i % 8 := by omega
  rw [hget, getMsbD_word _ _ _ _ (by omega), hmod]
  congr 1
  split
  · exact hbyte _ _ (by omega)
  · split
    · exact hbyte _ _ (by omega)
    · split
      · exact hbyte _ _ (by omega)
      · exact hbyte _ _ (by omega)

/-- The bits of the path of an address are the bits of the address. -/
theorem pathBit_addrWords {a : IPAddr} {i : ℕ} (hi : i < addrLen a) :
    pathBit (path (addrWords a)) i = addrBit a i := by
  rw [pathBit_path]
  cases a with
  | unspec => simp [addrLen] at hi
  | inet4 in4 =>
      rw [addrLen] at hi
      have h1 : i / 32 = 0 := by omega
      have h2 : i % 32 = i := by omega
      rw [h1, h2]
      rfl
  | inet6 in6 =>
      rw [addrLen] at hi
      rw [addrBit, dif_pos hi]
      exact getMsbD_splitIp6 in6 hi
  | id _ => simp [addrLen] at hi

/-- The bits of an address can be chosen freely. -/
theorem exists_getMsbD (f : ℕ → Bool) (n : ℕ) :
    ∃ w : BitVec n, ∀ i < n, w.getMsbD i = f i := by
  induction n with
  | zero => exact ⟨0, fun i hi => absurd hi (Nat.not_lt_zero i)⟩
  | succ n ih =>
      obtain ⟨w, hw⟩ := ih
      refine ⟨w.concat (f n), fun i hi => ?_⟩
      rw [BitVec.getMsbD_concat]
      by_cases h : i < n
      · rw [if_pos h, hw i h]
      · obtain rfl : i = n := by omega
        simp

/-- A prefix that is not longer than the address is accepted. -/
theorem setSubnet_success {ipLen : ℕ} {bits : ℤ} (hlo : 0 ≤ bits) (hhi : bits ≤ 32 * ipLen)
    (node : TableNode) (ip : List (BitVec 32)) (st : State) (del : Bool) :
    (setSubnet node ip ipLen bits st del).1 = .success := by
  simp only [setSubnet, if_neg (show ¬ (bits < 0 ∨ bits > 32 * ipLen) by omega)]
  split
  · rfl
  · rfl

/-- Every path is that of an address, as far as the addresses of the family go. -/
theorem exists_addr_path (q : ℕ → Fin 16) {f : Family} (hf : f = .inet4 ∨ f = .inet6) :
    ∃ a : IPAddr, a.family = f ∧ ∀ d < addrLen a / 4, path (addrWords a) d = q d := by
  have hpath : ∀ a : IPAddr, (∀ i < addrLen a, addrBit a i = pathBit q i) →
      ∀ d < addrLen a / 4, path (addrWords a) d = q d := by
    intro a ha
    refine ((pathBit_prefix_iff _ _ (show 0 < 4 by omega)).mp fun i hi => ?_).1
    rw [pathBit_addrWords (by omega), ha i (by omega)]
  rcases hf with rfl | rfl
  · obtain ⟨w, hw⟩ := exists_getMsbD (pathBit q) 32
    exact ⟨.inet4 w, rfl, hpath _ hw⟩
  · choose w hw using fun j : Fin 16 => exists_getMsbD (fun i => pathBit q (8 * j + i)) 8
    refine ⟨.inet6 w, rfl, hpath _ fun i hi => ?_⟩
    rw [addrLen] at hi
    have hi' : 8 * (i / 8) + i % 8 = i := by omega
    rw [addrBit, dif_pos hi, hw _ _ (by omega), hi']

/-! ### The last state of a path -/

/-- The last state on a path that is not taken from the parent, starting from `state`. -/
def follow (q : ℕ → Fin 16) : TableNode → ℕ → State → State
  | .closed s, _, state => if s ≠ .asParent then s else state
  | .opened s extended, d, state =>
      follow q (extended (q d)) (d + 1) (if s ≠ .asParent then s else state)

theorem lastState_eq_follow (ip : List (BitVec 32)) (node : TableNode) (d : ℕ) (s : State) :
    lastState ip node (d * 4) s = follow (path ip) node d s := by
  induction node generalizing d s with
  | closed _ => rfl
  | opened _ extended ih =>
      have hmul : d * 4 + 4 = (d + 1) * 4 := by omega
      rw [lastState, follow, hmul]
      exact ih _ _ _

/-- With no state on the path, the last state is the one it is started from. -/
theorem follow_asParent {q : ℕ → Fin 16} {node : TableNode} {d : ℕ}
    (h : ∀ k, stateAt q node d k = .asParent) (s : State) : follow q node d s = s := by
  induction node generalizing d s with
  | closed st =>
      have h0 : st = .asParent := h 0
      simp [follow, h0]
  | opened st extended ih =>
      have h0 : st = .asParent := h 0
      rw [follow, ih _ fun k => h (k + 1)]
      simp [h0]

/-- The last state is the deepest one that is set. -/
theorem follow_eq {q : ℕ → Fin 16} {node : TableNode} {d k : ℕ}
    (hk : stateAt q node d k ≠ .asParent)
    (hdeep : ∀ j, k < j → stateAt q node d j = .asParent) (s : State) :
    follow q node d s = stateAt q node d k := by
  induction node generalizing d k s with
  | closed st =>
      cases k with
      | zero =>
          have hst : st ≠ .asParent := hk
          simp [follow, hst, stateAt]
      | succ k => exact absurd rfl hk
  | opened st extended ih =>
      rw [follow]
      cases k with
      | zero =>
          have hst : st ≠ .asParent := hk
          rw [follow_asParent fun j => hdeep (j + 1) (by omega), if_pos hst]
          rfl
      | succ k => exact ih _ hk (fun j hj => hdeep (j + 1) (by omega)) _

/-! ### The depth of the tree -/

/-- A node has at most `n` levels below it. -/
def DepthLe : ℕ → TableNode → Prop
  | _, .closed _ => True
  | 0, .opened _ _ => False
  | n + 1, .opened _ extended => ∀ i, DepthLe n (extended i)

/-- The last state depends on the levels that the tree has. -/
theorem follow_congr {q q' : ℕ → Fin 16} {node : TableNode} {n d : ℕ} (hn : DepthLe n node)
    (h : ∀ i, d ≤ i → i < d + n → q i = q' i) (s : State) :
    follow q node d s = follow q' node d s := by
  induction node generalizing n d s with
  | closed _ => rfl
  | opened st extended ih =>
      cases n with
      | zero => exact hn.elim
      | succ n =>
          rw [follow, follow, h d le_rfl (by omega)]
          exact ih _ (hn _) (fun i hi hi' => h i (by omega) (by omega)) _

/-- `is_any_allowed` tells whether some path from the node is allowed. -/
theorem isAnyAllowed'_iff {n : ℕ} {node : TableNode} (hn : DepthLe n node) (d : ℕ) (s : State) :
    isAnyAllowed' node s = true ↔ ∃ q, follow q node d s = .allow := by
  induction node generalizing n d s with
  | closed st => simp [isAnyAllowed', follow]
  | opened st extended ih =>
      cases n with
      | zero => exact hn.elim
      | succ n =>
          simp only [isAnyAllowed', List.any_eq_true, List.mem_finRange, true_and, follow,
            ih _ (hn _) (d + 1)]
          constructor
          · -- the rest of the path does not depend on the entry of this level
            rintro ⟨i, q, hq⟩
            refine ⟨Function.update q d i, ?_⟩
            rw [Function.update_self, ← hq]
            refine follow_congr (hn i) (fun j hj _ => ?_) _
            exact Function.update_of_ne (by omega) _ _
          · rintro ⟨q, hq⟩
            exact ⟨q d, q, hq⟩

theorem openNode_depthLe {n : ℕ} {node : TableNode} (h : DepthLe (n + 1) node) (i : Fin 16) :
    DepthLe n (node.openNode i) := by
  cases node with
  | closed _ => cases n <;> trivial
  | opened _ extended => exact h i

theorem setEntry_depthLe {n : ℕ} {node : TableNode} (h : DepthLe n node) (st : State)
    (del : Bool) : DepthLe n (setEntry st del node) := by
  cases node <;> cases del <;> cases n <;> trivial

theorem setEntries_depthLe {n : ℕ} {node : TableNode} (h : DepthLe (n + 1) node)
    (subnet m : ℕ) (st : State) (del : Bool) :
    DepthLe (n + 1) (setEntries subnet m st del node) := by
  intro i
  dsimp only
  split
  · exact setEntry_depthLe (openNode_depthLe h i) st del
  · exact openNode_depthLe h i

theorem descend_depthLe {ip : List (BitVec 32)} {set : TableNode → TableNode} {n : ℕ}
    (hset : ∀ node, DepthLe n node → DepthLe n (set node)) (levels at' : ℕ)
    {node : TableNode} (h : DepthLe (levels + n) node) :
    DepthLe (levels + n) (descend ip set levels at' node) := by
  induction levels generalizing at' node with
  | zero =>
      rw [Nat.zero_add] at h ⊢
      exact hset node h
  | succ levels ih =>
      rw [Nat.add_right_comm] at h ⊢
      intro i
      by_cases hi : i = (getSubnet ip at').toFin
      · rw [hi, Function.update_self]
        exact ih _ (openNode_depthLe h _)
      · rw [Function.update_of_ne hi]
        exact openNode_depthLe h i

/-- The tree does not get deeper than the addresses are long. -/
theorem setSubnet_depthLe {node : TableNode} (ipLen : ℕ) (h : DepthLe (8 * ipLen) node)
    (ip : List (BitVec 32)) (bits : ℤ) (st : State) (del : Bool) :
    DepthLe (8 * ipLen) (setSubnet node ip ipLen bits st del).2 := by
  rw [setSubnet]
  split
  · exact h
  · next hin =>
      dsimp only
      split
      · next hr =>
          obtain ⟨n, hn⟩ : ∃ n, 8 * ipLen = bits.toNat / 4 + n :=
            ⟨8 * ipLen - bits.toNat / 4, by omega⟩
          rw [hn] at h ⊢
          exact descend_depthLe (fun node hnode => setEntry_depthLe hnode st del) _ _ h
      · next hr =>
          obtain ⟨n, hn⟩ : ∃ n, 8 * ipLen = bits.toNat / 4 + (n + 1) :=
            ⟨8 * ipLen - bits.toNat / 4 - 1, by omega⟩
          rw [hn] at h ⊢
          exact descend_depthLe (fun node hnode => setEntries_depthLe hnode _ _ st del) _ _ h

end Chrony.AddrFilt
