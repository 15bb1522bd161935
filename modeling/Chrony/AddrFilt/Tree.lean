import Mathlib.Logic.Function.Basic
import Chrony.Addressing

/-!
# The Access-Control Tree

This module models `addrfilt.c`: the tree of 16-way tables that `ADF_Allow`,
`ADF_AllowAll`, `ADF_Deny` and `ADF_DenyAll` write, and that `ADF_IsAllowed` and
`ADF_IsAnyAllowed` read. A node with `extended == NULL` is `closed`; the in-place
updates of the source rebuild the nodes on the path.

An address is passed to the tree as an array of 32-bit words, most significant first.
-/

namespace Chrony.AddrFilt

/-- `State`. -/
inductive State
  | deny
  | allow
  | asParent
  deriving DecidableEq, Repr

/-- `TableNode`. -/
inductive TableNode
  | closed (state : State)
  | opened (state : State) (extended : Fin 16 → TableNode)

/-- `struct ADF_AuthTableInst`. -/
structure AuthTable where
  base4 : TableNode
  base6 : TableNode

/-- `ADF_Status`. -/
inductive Status
  | success
  | badSubnet
  deriving DecidableEq, Repr

namespace TableNode

/-- The field `state` of a node. -/
def state : TableNode → State
  | closed state => state
  | opened state _ => state

/-- The children of a node after `open_node`: those it has, or new ones that take the
state of their parent. -/
def openNode : TableNode → Fin 16 → TableNode
  | closed _ => fun _ => closed .asParent
  | opened _ extended => extended

/-- `close_node`. -/
def closeNode : TableNode → TableNode
  | closed state => closed state
  | opened state _ => closed state

/-- The assignment of a new state to a node. -/
def setState (newState : State) : TableNode → TableNode
  | closed _ => closed newState
  | opened _ extended => opened newState extended

end TableNode

/-- `split_ip6`. -/
def splitIp6 (in6 : Fin 16 → BitVec 8) : List (BitVec 32) :=
  (List.finRange 4).map fun i =>
    (in6 ⟨i.val * 4 + 0, by have := i.isLt; omega⟩).setWidth 32 <<< 24 |||
      (in6 ⟨i.val * 4 + 1, by have := i.isLt; omega⟩).setWidth 32 <<< 16 |||
      (in6 ⟨i.val * 4 + 2, by have := i.isLt; omega⟩).setWidth 32 <<< 8 |||
      (in6 ⟨i.val * 4 + 3, by have := i.isLt; omega⟩).setWidth 32

/-- `get_subnet`: the four bits of the address from the bit `at'` on. -/
def getSubnet (addr : List (BitVec 32)) (at' : ℕ) : BitVec 4 :=
  ((addr.getD (at' / 32) 0) >>> (32 - 4 - at' % 32)).setWidth 4

/-- `ADF_CreateTable`. -/
def createTable : AuthTable where
  base4 := .closed .deny
  base6 := .closed .deny

/-- The loop of `set_subnet` that goes down `levels` levels of the tree, opening the
nodes on the way, and changes the node it gets to by `set`. -/
def descend (ip : List (BitVec 32)) (set : TableNode → TableNode) :
    ℕ → ℕ → TableNode → TableNode
  | 0, _, node => set node
  | levels + 1, bitsConsumed, node =>
      let subnet := (getSubnet ip bitsConsumed).toFin
      let extended := node.openNode
      .opened node.state (Function.update extended subnet
        (descend ip set levels (bitsConsumed + 4) (extended subnet)))

/-- The end of `set_subnet` for one entry. -/
def setEntry (newState : State) (deleteChildren : Bool) (node : TableNode) : TableNode :=
  (if deleteChildren then node.closeNode else node).setState newState

/-- The end of `set_subnet` for a prefix that ends inside of a level: the entries
`subnet, ..., subnet + N - 1` of the table are set. -/
def setEntries (subnet n : ℕ) (newState : State) (deleteChildren : Bool) (node : TableNode) :
    TableNode :=
  .opened node.state fun i =>
    if subnet ≤ i ∧ i < subnet + n then setEntry newState deleteChildren (node.openNode i)
    else node.openNode i

/-- `set_subnet`. The loops run `subnetBits / 4` times in both branches, with
`subnetBits % 4` bits to go after them. -/
def setSubnet (startNode : TableNode) (ip : List (BitVec 32)) (ipLen : ℕ) (subnetBits : ℤ)
    (newState : State) (deleteChildren : Bool) : Status × TableNode :=
  if subnetBits < 0 ∨ subnetBits > 32 * ipLen then (.badSubnet, startNode)
  else
    let bits := subnetBits.toNat
    let bitsToGo := bits % 4
    if bitsToGo = 0 then
      (.success, descend ip (setEntry newState deleteChildren) (bits / 4) 0 startNode)
    else
      let n := 1 <<< (4 - bitsToGo)
      let subnet := getSubnet ip (bits / 4 * 4) &&& ~~~(BitVec.ofNat 4 (n - 1))
      (.success,
        descend ip (setEntries subnet.toNat n newState deleteChildren) (bits / 4) 0 startNode)

/-- `set_subnet_`. -/
def setSubnet' (table : AuthTable) (ipAddr : IPAddr) (subnetBits : ℤ) (newState : State)
    (deleteChildren : Bool) : Status × AuthTable :=
  match ipAddr with
  | .inet4 in4 =>
      let (status, node) :=
        setSubnet table.base4 [in4] 1 subnetBits newState deleteChildren
      (status, { table with base4 := node })
  | .inet6 in6 =>
      let (status, node) :=
        setSubnet table.base6 (splitIp6 in6) 4 subnetBits newState deleteChildren
      (status, { table with base6 := node })
  | .unspec =>
      if subnetBits ≠ 0 then (.badSubnet, table)
      else
        let ip6 := [0, 0, 0, 0]
        let (status4, node4) := setSubnet table.base4 ip6 1 0 newState deleteChildren
        let table := { table with base4 := node4 }
        if status4 = .success then
          let (status6, node6) := setSubnet table.base6 ip6 4 0 newState deleteChildren
          let table := { table with base6 := node6 }
          (if status6 = .success then .success else .badSubnet, table)
        else (.badSubnet, table)
  | .id _ => (.badSubnet, table)

/-- `ADF_Allow`. -/
def allow (table : AuthTable) (ip : IPAddr) (subnetBits : ℤ) : Status × AuthTable :=
  setSubnet' table ip subnetBits .allow false

/-- `ADF_AllowAll`. -/
def allowAll (table : AuthTable) (ip : IPAddr) (subnetBits : ℤ) : Status × AuthTable :=
  setSubnet' table ip subnetBits .allow true

/-- `ADF_Deny`. -/
def deny (table : AuthTable) (ip : IPAddr) (subnetBits : ℤ) : Status × AuthTable :=
  setSubnet' table ip subnetBits .deny false

/-- `ADF_DenyAll`. -/
def denyAll (table : AuthTable) (ip : IPAddr) (subnetBits : ℤ) : Status × AuthTable :=
  setSubnet' table ip subnetBits .deny true

/-- The loop of `check_ip_in_node`: the last state on the path of the address that is
not taken from the parent, starting from `state`. -/
def lastState (ip : List (BitVec 32)) : TableNode → ℕ → State → State
  | .closed s, _, state => if s ≠ .asParent then s else state
  | .opened s extended, bitsConsumed, state =>
      lastState ip (extended (getSubnet ip bitsConsumed).toFin) (bitsConsumed + 4)
        (if s ≠ .asParent then s else state)

/-- `check_ip_in_node`. -/
def checkIpInNode (startNode : TableNode) (ip : List (BitVec 32)) : Bool :=
  lastState ip startNode 0 .deny = .allow

/-- `ADF_IsAllowed`. -/
def isAllowed (table : AuthTable) : IPAddr → Bool
  | .inet4 in4 => checkIpInNode table.base4 [in4]
  | .inet6 in6 => checkIpInNode table.base6 (splitIp6 in6)
  | _ => false

/-- `is_any_allowed`. -/
def isAnyAllowed' : TableNode → State → Bool
  | .closed s, parent => (if s ≠ .asParent then s else parent) = .allow
  | .opened s extended, parent =>
      (List.finRange 16).any fun i =>
        isAnyAllowed' (extended i) (if s ≠ .asParent then s else parent)

/-- `ADF_IsAnyAllowed`. -/
def isAnyAllowed (table : AuthTable) : Family → Bool
  | .inet4 => isAnyAllowed' table.base4 .asParent
  | .inet6 => isAnyAllowed' table.base6 .asParent
  | _ => false

end Chrony.AddrFilt
