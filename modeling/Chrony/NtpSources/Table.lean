import Mathlib.Data.Rat.Defs
import Chrony.Addressing
import Chrony.Lib.OpenAddressing

/-!
# The Table of NTP Sources

This module models the part of `ntp_sources.c` which keeps the records of the NTP
sources: the hash table of their addresses, the pools, the names to be resolved, and the
changes of the addresses.

A slot of the table whose `remote_addr` is `NULL` is `none`. The instance of the protocol
engine that belongs to a record is not a part of the record here; what the engine calls
back while a record is created or changed is an argument of the operations. The reset of a
selected source starts a selection of the sources, which calls `NSR_HandleBadSource`. A
failed assertion of the source is an `Abort`.
-/

namespace Chrony.NtpSources

open Chrony.Lib

/-- `NSR_Status`. -/
inductive Status
  | success
  | noSuchSource
  | alreadyInUse
  | tooManySources
  | invalidAF
  | invalidName
  | unresolvedName
  deriving DecidableEq, Repr

/-- The assertions of the source, with that of `SCH_RemoveTimeout`. -/
inductive Abort
  | recordLocked
  | addressDuplicated
  | emptyRecord
  | resolvingRunning
  | wrongResolvingSource
  | resolvingScheduled
  | invalidTimeout
  | poolRefreshment
  deriving DecidableEq, Repr

/-- `SourceRecord`. A source that is not from a pool has no `poolId`. -/
structure SourceRecord where
  remoteAddr : RemoteAddress
  name : String
  resolvedAddr : IPAddr
  family : Family
  poolId : Option ℕ
  tentative : Bool
  confId : BitVec 32
  lastResolving : ℚ
  deriving DecidableEq

/-- The address that a record is stored under. -/
def SourceRecord.ip (r : SourceRecord) : IPAddr :=
  r.remoteAddr.ipAddr

/-- `struct UnresolvedSource`. The number stands for the pointer to it. -/
structure UnresolvedSource where
  number : ℕ
  address : RemoteAddress
  poolId : Option ℕ
  name : String
  family : Family
  randomOrder : Bool
  refreshment : Bool
  deriving DecidableEq

/-- `struct SourcePool`. -/
structure SourcePool where
  sources : ℤ
  unresolvedSources : ℤ
  confirmedSources : ℤ
  maxSources : ℤ
  deriving DecidableEq

/-- `struct AddressUpdate`. -/
structure AddressUpdate where
  oldAddress : RemoteAddress
  newAddress : RemoteAddress
  deriving DecidableEq

/-- The variables of `ntp_sources.c`. The flag `resolvingId` is set if the ID is not zero,
`resolvingTimeouts` is the number of the timeouts of the resolving that the scheduler has,
`requests` are the requests that were made to the resolver and not answered yet, and
`allocated` is the number of the next unresolved source. -/
structure State where
  records : List (Option SourceRecord)
  nSources : ℤ
  recordLock : Bool
  lastAddressId : BitVec 32
  lastConfId : BitVec 32
  unresolvedSources : List UnresolvedSource
  allocated : ℕ
  resolvingInterval : ℤ
  resolvingRestart : Bool
  resolvingId : Bool
  resolvingTimeouts : ℕ
  resolvingSource : Option UnresolvedSource
  requests : List UnresolvedSource
  pools : List SourcePool
  savedAddressUpdate : AddressUpdate
  nextReplacement : ℚ
  lastRefreshment : ℚ
  lastEventMonoTime : ℚ

/-- What the module takes from the rest of the program: the seed of the hash function,
the configured refresh interval, and the parser and formatter of numerical addresses. -/
structure Env where
  seed : BitVec 32
  refresh : ℤ
  stringToIP : String → Option IPAddr
  ipToString : IPAddr → String

variable (env : Env)

/-- `MAX_SOURCES`. -/
def maxSources : ℤ := 65536

/-- `MAX_POOL_SOURCES`. -/
def maxPoolSources : ℤ := 16

/-- The slot that `find_slot` tries as the number `i`, in 32-bit arithmetic. -/
def probe (size : ℕ) (ipAddr : IPAddr) (i : ℕ) : ℕ :=
  let i := BitVec.ofNat 32 i
  (ipAddr.toHash env.seed + (i + i * i) / 2).toNat % size

/-- `find_slot`. -/
def findSlot (s : State) (ipAddr : IPAddr) : Bool × ℕ :=
  if ipAddr.family = .unspec then (false, 0)
  else
    let size := s.records.length
    OpenAddressing.search (probe env size ipAddr) (fun r => IPAddr.compareIPs r.ip ipAddr = 0)
      s.records (size / 2) 0 0

/-- The results of `find_slot2`: 0, 1 and 2. -/
inductive Found
  | nothing
  | ip
  | ipPort
  deriving DecidableEq, Repr

/-- `find_slot2`. -/
def findSlot2 (s : State) (remoteAddr : RemoteAddress) : Found × ℕ :=
  match findSlot env s remoteAddr.ipAddr with
  | (false, slot) => (.nothing, slot)
  | (true, slot) =>
      match OpenAddressing.entry s.records slot with
      | some r => (if r.remoteAddr.port = remoteAddr.port then .ipPort else .ip, slot)
      | none => (.ip, slot)

/-- `check_hashtable_size`. -/
def checkHashtableSize (sources : ℤ) (size : ℕ) : Bool :=
  sources * 2 ≤ size

/-- The loop of `rehash_records` that doubles the size until it is sufficient. The number
of turns is limited by the width of the size. -/
def newSize (sources : ℤ) : ℕ → ℕ → ℕ
  | 0, size => size
  | turns + 1, size =>
      if checkHashtableSize sources size then size else newSize sources turns (size * 2)

/-- One turn of the loop of `rehash_records` over the old slots. -/
def rehashRecord (s : State) (slot : Option SourceRecord) : Except Abort State :=
  match slot with
  | none => .ok s
  | some r =>
      match findSlot2 env s r.remoteAddr with
      | (.nothing, slot) => .ok { s with records := s.records.set slot (some r) }
      | _ => .error .addressDuplicated

/-- `rehash_records`. -/
def rehashRecords (s : State) : Except Abort State :=
  if s.recordLock then .error .recordLocked
  else
    let size := newSize s.nSources 32 1
    s.records.foldlM (rehashRecord env) { s with records := List.replicate size none }

/-- `NSR_Initialise`. -/
def initialise : Except Abort State :=
  rehashRecords env
    { records := []
      nSources := 0
      recordLock := false
      lastAddressId := 0
      lastConfId := 0
      unresolvedSources := []
      allocated := 0
      resolvingInterval := 0
      resolvingRestart := false
      resolvingId := false
      resolvingTimeouts := 0
      resolvingSource := none
      requests := []
      pools := []
      savedAddressUpdate := ⟨⟨.unspec, 0⟩, ⟨.unspec, 0⟩⟩
      nextReplacement := 0
      lastRefreshment := 0
      lastEventMonoTime := 0 }

/-- A change of the pool of a record. -/
def State.modifyPool (s : State) (poolId : Option ℕ) (f : SourcePool → SourcePool) : State :=
  match poolId with
  | none => s
  | some id => { s with pools := s.pools.modify id f }

/-! ### Names to be resolved -/

/-- `is_resolved`. -/
def isResolved (s : State) (us : UnresolvedSource) : Bool :=
  match us.poolId with
  | some id => s.pools[id]?.all fun p => p.unresolvedSources ≤ 0
  | none => (findSlot2 env s us.address).1 = .nothing

/-- `append_unresolved_source`, with the allocation of the source. -/
def appendUnresolvedSource (s : State) (us : UnresolvedSource) : State :=
  { s with
    unresolvedSources := s.unresolvedSources ++ [{ us with number := s.allocated }]
    allocated := s.allocated + 1 }

/-- `remove_unresolved_source`. -/
def removeUnresolvedSource (s : State) (us : UnresolvedSource) : State :=
  { s with unresolvedSources := s.unresolvedSources.filter (·.number ≠ us.number) }

/-- The start of a request to the resolver. -/
def startRequest (s : State) (us : UnresolvedSource) : State :=
  { s with resolvingSource := some us, requests := s.requests ++ [us] }

/-- `resolve_sources`. -/
def resolveSources' (s : State) : Except Abort State :=
  if s.resolvingSource.isSome then .error .resolvingRunning
  else
    let s := { s with
      unresolvedSources := s.unresolvedSources.filter fun us => ¬ isResolved env s us }
    match s.unresolvedSources with
    | [] => .ok s
    | us :: _ => .ok (startRequest s us)

/-- The part of `NSR_ResolveSources` that removes the timeout. -/
def removeResolvingTimeout (s : State) : Except Abort State :=
  if ¬ s.resolvingId then .ok s
  else if s.resolvingTimeouts = 0 then .error .invalidTimeout
  else
    .ok { s with
      resolvingId := false
      resolvingTimeouts := s.resolvingTimeouts - 1
      resolvingInterval := s.resolvingInterval - 1 }

/-- `NSR_ResolveSources`. -/
def resolveSources (s : State) : Except Abort State :=
  if s.unresolvedSources = [] then .ok s
  else if s.resolvingSource = none then do
    let s ← removeResolvingTimeout s
    resolveSources' env s
  else .ok { s with resolvingRestart := true }

/-- `resolve_source_replacement` for the record in a slot. -/
def resolveSourceReplacement (s : State) (slot : ℕ) (r : SourceRecord) (refreshment : Bool) :
    Except Abort State :=
  let s := { s with
    records := s.records.set slot (some { r with lastResolving := s.lastEventMonoTime }) }
  let s := appendUnresolvedSource s
    { number := 0
      address := r.remoteAddr
      poolId := none
      name := r.name
      family := r.family
      randomOrder := true
      refreshment := refreshment }
  if s.resolvingSource = none then resolveSources env s else .ok s

/-- A call of `NSR_HandleBadSource`, with the random number that it gets. -/
structure BadSource where
  address : IPAddr
  rnd : BitVec 32

/-- `NSR_HandleBadSource`. -/
def handleBadSource (s : State) (b : BadSource) : Except Abort State :=
  match findSlot env s b.address with
  | (false, _) => .ok s
  | (true, slot) =>
      match OpenAddressing.entry s.records slot with
      | none => .error .emptyRecord
      | some r =>
          if (env.stringToIP r.name).any (fun ip => IPAddr.compareIPs r.ip ip = 0) then .ok s
          else if s.lastEventMonoTime < s.nextReplacement then .ok s
          else
            let delay : ℚ := (b.rnd.toNat : ℚ) / (2 ^ 32 - 1) * (7 * 2 ^ 9)
            resolveSourceReplacement env
              { s with nextReplacement := s.lastEventMonoTime + delay } slot r false

/-! ### Changes of addresses -/

/-- The checks that `NSR_UpdateSourceNtpAddress` makes first. -/
def checkUpdate (s : State) (u : AddressUpdate) : Option Status :=
  if ¬ u.oldAddress.ipAddr.isReal ∨ ¬ u.newAddress.ipAddr.isReal then some .invalidAF
  else if IPAddr.compareIPs u.oldAddress.ipAddr u.newAddress.ipAddr ≠ 0 ∧
      (findSlot env s u.newAddress.ipAddr).1 then some .alreadyInUse
  else none

/-- The end of `NSR_UpdateSourceNtpAddress` for an update that has to be postponed. -/
def postponeUpdate (s : State) (u : AddressUpdate) : Status × State :=
  if s.savedAddressUpdate.oldAddress.ipAddr.isReal then (.tooManySources, s)
  else (.success, { s with savedAddressUpdate := u })

/-- A call of `NSR_UpdateSourceNtpAddress` by the protocol engine while the record is
locked, i.e. from `NCR_CreateInstance` or `NCR_ChangeRemoteAddress`. -/
def nestedUpdate (s : State) (u : AddressUpdate) : State :=
  match checkUpdate env s u with
  | some _ => s
  | none => (postponeUpdate s u).2

/-- What `change_source_address` does with a record. -/
def SourceRecord.changeAddress (r : SourceRecord) (newAddr : RemoteAddress)
    (replacement : Bool) : SourceRecord :=
  { r with
    remoteAddr := newAddr
    resolvedAddr := if replacement then newAddr.ipAddr else r.resolvedAddr
    tentative := true }

/-- The counters of the pool of a record whose address is changed from `old`. -/
def SourcePool.changeAddress (old new : IPAddr) (tentative : Bool) (p : SourcePool) :
    SourcePool :=
  { p with
    unresolvedSources :=
      if ¬ old.isReal ∧ new.isReal then p.unresolvedSources - 1 else p.unresolvedSources
    confirmedSources :=
      if tentative then p.confirmedSources else p.confirmedSources - 1 }

/-- The part of `change_source_address` that changes the record in a slot, while it is
locked. The updates are those which the instance of the source requests when its address
is replaced. The bad sources are those that a selection of the sources finds when the
instance is reset, with its new address, which is also that of the record. -/
def changeRecord (s : State) (slot : ℕ) (r : SourceRecord) (oldAddr newAddr : RemoteAddress)
    (replacement : Bool) (updates : List AddressUpdate) (bad : List BadSource) :
    Except Abort State := do
  let s := { s with recordLock := true }
  let s := if replacement then updates.foldl (nestedUpdate env) s else s
  let s := { s with records := s.records.set slot (some { r with remoteAddr := newAddr }) }
  let s ← bad.foldlM (handleBadSource env) s
  match OpenAddressing.entry s.records slot with
  | none => .error .emptyRecord
  | some r =>
      let s := { s with
        records := s.records.set slot (some (r.changeAddress newAddr replacement)) }
      let s := s.modifyPool r.poolId
        (SourcePool.changeAddress oldAddr.ipAddr newAddr.ipAddr r.tentative)
      .ok { s with recordLock := false }

/-- `change_source_address`. -/
def changeSourceAddress (s : State) (oldAddr newAddr : RemoteAddress) (replacement : Bool)
    (updates : List AddressUpdate) (bad : List BadSource) : Except Abort (Status × State) :=
  match findSlot2 env s oldAddr with
  | (.ipPort, slot1) =>
      let (found, slot2) := findSlot2 env s newAddr
      if found = .ipPort ∨ (found ≠ .nothing ∧ slot1 ≠ slot2) then .ok (.alreadyInUse, s)
      else if s.recordLock then .error .recordLocked
      else
        match OpenAddressing.entry s.records slot1 with
        | none => .error .emptyRecord
        | some r => do
            let s ← changeRecord env s slot1 r oldAddr newAddr replacement updates bad
            let s ← if found = .nothing then rehashRecords env s else .ok s
            .ok (.success, s)
  | _ => .ok (.noSuchSource, s)

/-- `handle_saved_address_update`. -/
def handleSavedAddressUpdate (s : State) (bad : List BadSource) : Except Abort State :=
  let u := s.savedAddressUpdate
  if ¬ u.oldAddress.ipAddr.isReal then .ok s
  else do
    let (_, s) ← changeSourceAddress env s u.oldAddress u.newAddress false [] bad
    .ok { s with savedAddressUpdate :=
      { s.savedAddressUpdate with oldAddress.ipAddr := .unspec } }

/-- `NSR_UpdateSourceNtpAddress`. -/
def updateSourceNtpAddress (s : State) (u : AddressUpdate) (bad : List BadSource) :
    Except Abort (Status × State) :=
  match checkUpdate env s u with
  | some status => .ok (status, s)
  | none =>
      if ¬ s.recordLock then changeSourceAddress env s u.oldAddress u.newAddress false [] bad
      else .ok (postponeUpdate s u)

/-! ### Additions -/

/-- The counters of the pool of a record that is added. -/
def SourcePool.add (ip : IPAddr) (p : SourcePool) : SourcePool :=
  { p with
    sources := p.sources + 1
    unresolvedSources := if ip.isReal then p.unresolvedSources else p.unresolvedSources + 1 }

/-- The record of a new source. -/
def SourceRecord.new (remoteAddr : RemoteAddress) (name : String) (family : Family)
    (poolId : Option ℕ) (confId : BitVec 32) (now : ℚ) : SourceRecord where
  remoteAddr := remoteAddr
  name := name
  resolvedAddr := remoteAddr.ipAddr
  family := family
  poolId := poolId
  tentative := true
  confId := confId
  lastResolving := now

/-- The part of `add_source` that stores the new record in a slot, while it is locked.
The updates are those which the new instance requests. -/
def storeRecord (s : State) (slot : ℕ) (remoteAddr : RemoteAddress) (name : Option String)
    (family : Family) (poolId : Option ℕ) (confId : BitVec 32)
    (updates : List AddressUpdate) : State :=
  let s := updates.foldl (nestedUpdate env) { s with recordLock := true }
  let r := SourceRecord.new remoteAddr (name.getD (env.ipToString remoteAddr.ipAddr)) family poolId
    confId s.lastEventMonoTime
  let s := { s with records := s.records.set slot (some r), recordLock := false }
  s.modifyPool poolId (SourcePool.add remoteAddr.ipAddr)

/-- The slot of `add_source` for the new record, after the number of the sources was
incremented. -/
def makeRoom (s : State) (remoteAddr : RemoteAddress) (slot : ℕ) : Except Abort (State × ℕ) :=
  if checkHashtableSize s.nSources s.records.length then .ok (s, slot)
  else do
    let s ← rehashRecords env s
    match findSlot2 env s remoteAddr with
    | (.nothing, slot) => .ok (s, slot)
    | _ => .error .addressDuplicated

/-- `add_source`. An instance changes only its own address, and the new one is not selected
yet, so that there is no selection of the sources. -/
def addSource (s : State) (remoteAddr : RemoteAddress) (name : Option String)
    (family : Family) (poolId : Option ℕ) (confId : BitVec 32)
    (updates : List AddressUpdate) : Except Abort (Status × State) :=
  match findSlot2 env s remoteAddr with
  | (.nothing, slot) =>
      if name = none ∧ ¬ remoteAddr.ipAddr.isReal then .ok (.invalidName, s)
      else if s.nSources ≥ maxSources then .ok (.tooManySources, s)
      else if remoteAddr.ipAddr.family = .unspec then .ok (.invalidAF, s)
      else do
        let (s, slot) ← makeRoom env { s with nSources := s.nSources + 1 } remoteAddr slot
        if s.recordLock then .error .recordLocked
        else do
          let s := storeRecord env s slot remoteAddr name family poolId confId updates
          let s ← handleSavedAddressUpdate env s []
          .ok (.success, s)
  | _ => .ok (.alreadyInUse, s)

end Chrony.NtpSources
