import Mathlib.Data.Fintype.Pi
import Mathlib.Data.Int.Basic

/-!
# Addresses

The address types of `addressing.h` and the functions of `util.c` on them. An address
is a value of one of four families; an `id` address stands for a source whose name is
not resolved yet. The parts are in host order.
-/

namespace Chrony

/-- `IPAddr`. -/
inductive IPAddr
  | unspec
  | inet4 (in4 : BitVec 32)
  | inet6 (in6 : Fin 16 → BitVec 8)
  | id (id : BitVec 32)
  deriving DecidableEq

/-- `IPADDR_UNSPEC`, `IPADDR_INET4`, `IPADDR_INET6` and `IPADDR_ID`. -/
inductive Family
  | unspec
  | inet4
  | inet6
  | id
  deriving DecidableEq, Repr

namespace IPAddr

/-- The family of an address. -/
def family : IPAddr → Family
  | unspec => .unspec
  | inet4 _ => .inet4
  | inet6 _ => .inet6
  | id _ => .id

/-- `UTI_IsIPReal`. -/
def isReal : IPAddr → Bool
  | inet4 _ => true
  | inet6 _ => true
  | _ => false

/-- The number of a family, as `UTI_CompareIPs` subtracts them. -/
def familyNumber : IPAddr → ℤ
  | unspec => 0
  | inet4 _ => 1
  | inet6 _ => 2
  | id _ => 3

/-- The loop of `UTI_CompareIPs` over the bytes of two IPv6 addresses. -/
def compareBytes : List (BitVec 8 × BitVec 8) → ℤ
  | [] => 0
  | (a, b) :: l =>
      let d := (a.toNat : ℤ) - b.toNat
      if d = 0 then compareBytes l else d

/-- `UTI_CompareIPs` with no mask. The differences of 32-bit words are converted to
`int`. -/
def compareIPs : IPAddr → IPAddr → ℤ
  | unspec, unspec => 0
  | inet4 a, inet4 b => (a - b).toInt
  | inet6 a, inet6 b => compareBytes ((List.finRange 16).map fun i => (a i, b i))
  | id a, id b => (a - b).toInt
  | a, b => a.familyNumber - b.familyNumber

/-- The bytes of a word in the memory of a little-endian host. -/
def wordBytes (w : BitVec 32) : List (BitVec 8) :=
  (List.range 4).map fun i => (w >>> (8 * i)).setWidth 8

/-- `UTI_IPToHash`: the 32-bit FNV-1a hash of the bytes of the address, started from a
random seed. -/
def toHash (seed : BitVec 32) : IPAddr → BitVec 32
  | unspec => 0
  | inet4 a => fnv (wordBytes a)
  | inet6 a => fnv ((List.finRange 16).map a)
  | id a => fnv (wordBytes a)
where
  fnv (bytes : List (BitVec 8)) : BitVec 32 :=
    bytes.foldl (fun hash byte => (hash ^^^ byte.setWidth 32) * 16777619) seed

theorem compareBytes_eq_zero_iff (l : List (BitVec 8 × BitVec 8)) :
    compareBytes l = 0 ↔ ∀ p ∈ l, p.1 = p.2 := by
  induction l with
  | nil => simp [compareBytes]
  | cons p l ih =>
      obtain ⟨a, b⟩ := p
      rw [compareBytes]
      have hd : (a.toNat : ℤ) - b.toNat = 0 ↔ a = b := by
        rw [sub_eq_zero, Int.natCast_inj, BitVec.toNat_inj]
      by_cases h : a = b
      · simp [h, ih]
      · simp [hd, h]

/-- A zero difference of words, as an `int`, means that they are equal. -/
theorem toInt_sub_eq_zero_iff (a b : BitVec 32) : (a - b).toInt = 0 ↔ a = b := by
  rw [← BitVec.toInt_zero (w := 32), BitVec.toInt_inj]
  constructor
  · intro h
    have := BitVec.sub_add_cancel a b
    rw [h] at this
    simpa using this.symm
  · rintro rfl
    exact BitVec.sub_self a

/-- `UTI_CompareIPs` gives zero exactly for equal addresses. -/
theorem compareIPs_eq_zero_iff (a b : IPAddr) : compareIPs a b = 0 ↔ a = b := by
  cases a with
  | unspec => cases b <;> simp [compareIPs, familyNumber]
  | inet4 a =>
      cases b with
      | inet4 b => simpa [compareIPs] using toInt_sub_eq_zero_iff a b
      | unspec => simp [compareIPs, familyNumber]
      | inet6 b => simp [compareIPs, familyNumber]
      | id b => simp [compareIPs, familyNumber]
  | inet6 a =>
      cases b with
      | inet6 b =>
          simp only [compareIPs, compareBytes_eq_zero_iff, inet6.injEq, funext_iff]
          simp [List.mem_finRange]
      | unspec => simp [compareIPs, familyNumber]
      | inet4 b => simp [compareIPs, familyNumber]
      | id b => simp [compareIPs, familyNumber]
  | id a =>
      cases b with
      | id b => simpa [compareIPs] using toInt_sub_eq_zero_iff a b
      | unspec => simp [compareIPs, familyNumber]
      | inet4 b => simp [compareIPs, familyNumber]
      | inet6 b => simp [compareIPs, familyNumber]

end IPAddr

/-- `NTP_Remote_Address`. -/
structure RemoteAddress where
  ipAddr : IPAddr
  port : BitVec 16
  deriving DecidableEq

end Chrony
