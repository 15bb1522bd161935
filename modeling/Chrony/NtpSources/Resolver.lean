import Chrony.NtpSources.Table

/-!
# The Operations on the NTP Sources

This module models the rest of `ntp_sources.c`: the asynchronous resolving of names, the
additions by name, the removals, the replacements of bad sources, and the confirmation of
the sources of a pool by their good responses. A run is a sequence of `Event`s, each a
call of a public function, an answer of the resolver, or a timeout.

The answers of the rest of the program are a part of the event. An instance that is
destroyed, that gets a response or that gets another address may cause a selection of the
sources, which calls `NSR_HandleBadSource`. The addresses that come from the resolver are
IPv4 and IPv6 addresses only (`DNS_Name2IPAddress`).
-/

namespace Chrony.NtpSources

open Chrony.Lib

variable (env : Env)

/-! ### Removals -/

/-- The counters of the pool of a record that is removed. -/
def SourcePool.remove (r : SourceRecord) (p : SourcePool) : SourcePool :=
  let sources := p.sources - 1
  { sources := sources
    unresolvedSources :=
      if r.ip.isReal then p.unresolvedSources else p.unresolvedSources - 1
    confirmedSources := if r.tentative then p.confirmedSources else p.confirmedSources - 1
    maxSources := if p.maxSources > sources then sources else p.maxSources }

/-- `clean_source_record`. The bad sources are those that a selection of the sources
finds when the instance is destroyed. -/
def cleanSourceRecord (s : State) (slot : ℕ) (bad : List BadSource) : Except Abort State :=
  match OpenAddressing.entry s.records slot with
  | none => .error .emptyRecord
  | some r => do
      let s := s.modifyPool r.poolId (SourcePool.remove r)
      let s := { s with records := s.records.set slot none }
      let s ← bad.foldlM (handleBadSource env) s
      .ok { s with nSources := s.nSources - 1 }

/-- One turn of the loops that remove records. -/
def cleanIf (p : SourceRecord → Bool) (bad : ℕ → List BadSource) (acc : State × ℕ) (i : ℕ) :
    Except Abort (State × ℕ) :=
  match OpenAddressing.entry acc.1.records i with
  | none => .ok acc
  | some r =>
      if p r then do
        let s ← cleanSourceRecord env acc.1 i (bad i)
        .ok (s, acc.2 + 1)
      else .ok acc

/-- The loops that remove records, with the number of those that are removed. -/
def cleanRecords (s : State) (p : SourceRecord → Bool) (bad : ℕ → List BadSource) :
    Except Abort (State × ℕ) :=
  (List.range s.records.length).foldlM (cleanIf env p bad) (s, 0)

/-- `NSR_RemoveSource`. -/
def removeSource (s : State) (address : IPAddr) (bad : List BadSource) :
    Except Abort (Status × State) :=
  match findSlot env s address with
  | (false, _) => .ok (.noSuchSource, s)
  | (true, slot) => do
      let s ← cleanSourceRecord env s slot bad
      let s ← rehashRecords env s
      .ok (.success, s)

/-- `NSR_RemoveSourcesById`. -/
def removeSourcesById (s : State) (confId : BitVec 32) (bad : ℕ → List BadSource) :
    Except Abort State := do
  let (s, _) ← cleanRecords env s (fun r => r.confId = confId) bad
  rehashRecords env s

/-- `NSR_RemoveAllSources`. -/
def removeAllSources (s : State) (bad : ℕ → List BadSource) : Except Abort State := do
  let (s, _) ← cleanRecords env s (fun _ => true) bad
  rehashRecords env s

/-- `remove_pool_sources`. -/
def removePoolSources (s : State) (poolId : ℕ) (tentative unresolved : Bool)
    (bad : ℕ → List BadSource) : Except Abort State := do
  let (s, removed) ← cleanRecords env s
    (fun r => r.poolId = some poolId ∧
      ¬ ((tentative ∧ ¬ r.tentative) ∨ (unresolved ∧ r.ip.isReal))) bad
  if removed ≠ 0 then rehashRecords env s else .ok s

/-! ### Resolved names -/

/-- An address from the resolver, if a socket can be connected to it, the updates that the
instance of a source requests when it gets the address, and the bad sources that are found
when it gets the address and when an update is made. -/
structure ResolvedAddr where
  ip : IPAddr
  isReal : ip.isReal = true
  connectable : Bool
  updates : List AddressUpdate
  bad : List BadSource
  badSaved : List BadSource

/-- `replace_source_connectable`. -/
def replaceSourceConnectable (s : State) (oldAddr : RemoteAddress) (port : BitVec 16)
    (new : ResolvedAddr) : Except Abort (Bool × State) :=
  if ¬ new.connectable then .ok (false, s)
  else do
    let (status, s) ←
      changeSourceAddress env s oldAddr ⟨new.ip, port⟩ true new.updates new.bad
    if status = .alreadyInUse then .ok (false, s)
    else do
      let s ← handleSavedAddressUpdate env s new.badSaved
      .ok (true, s)

/-- The first source of a pool that does not have a real address yet. -/
def unresolvedOfPool (s : State) (poolId : ℕ) : Option SourceRecord :=
  s.records.reduceOption.find? fun r => r.poolId = some poolId ∧ ¬ r.ip.isReal

/-- The loop of `process_resolved_name` over the addresses. -/
def replaceLoop (us : UnresolvedSource) : List ResolvedAddr → State → Except Abort State
  | [], s => .ok s
  | new :: addrs, s =>
      if us.family ≠ .unspec ∧ us.family ≠ new.ip.family then replaceLoop us addrs s
      else
        match us.poolId with
        | some id =>
            match unresolvedOfPool s id with
            | none => replaceLoop us addrs s
            | some r => do
                let (_, s) ←
                  replaceSourceConnectable env s r.remoteAddr r.remoteAddr.port new
                replaceLoop us addrs s
        | none => do
            let (replaced, s) ←
              replaceSourceConnectable env s us.address us.address.port new
            if replaced then .ok s else replaceLoop us addrs s

/-- The check of `process_resolved_name` whether the current address is still one of the
resolved addresses. -/
def stillFresh (s : State) (us : UnresolvedSource) (addrs : List ResolvedAddr) : Bool :=
  match findSlot2 env s us.address with
  | (.ipPort, slot) =>
      match OpenAddressing.entry s.records slot with
      | some r => addrs.any fun a => IPAddr.compareIPs r.resolvedAddr a.ip = 0
      | none => false
  | _ => false

/-- `process_resolved_name`, with the random number for the order of the addresses. -/
def processResolvedName (s : State) (us : UnresolvedSource) (addrs : List ResolvedAddr)
    (first : BitVec 16) : Except Abort State :=
  if us.refreshment ∧ us.poolId ≠ none then .error .poolRefreshment
  else if us.refreshment ∧ stillFresh env s us addrs then .ok s
  else replaceLoop env us (addrs.rotate (if us.randomOrder then first.toNat else 0)) s

/-- `DNS_Status`, with the addresses that a name is resolved to. -/
inductive DnsResult
  | success (addrs : List ResolvedAddr)
  | tryAgain
  | failure

/-- The source after another one in the list of unresolved sources. -/
def nextUnresolved (s : State) (us : UnresolvedSource) : Option UnresolvedSource :=
  (s.unresolvedSources.dropWhile (·.number ≠ us.number))[1]?

/-- The end of `name_resolve_handler`: the next source to be resolved, or the next
attempt if some sources could not be resolved. -/
def continueResolving (s : State) (next : Option UnresolvedSource) : State :=
  match next with
  | some us => startRequest s us
  | none =>
      let s := { s with resolvingSource := none }
      if s.unresolvedSources ≠ [] then
        { s with
          resolvingInterval := max 2 (min (s.resolvingInterval + 1) 9)
          resolvingId := true
          resolvingTimeouts := s.resolvingTimeouts + 1 }
      else { s with resolvingInterval := 0 }

/-- `name_resolve_handler`. -/
def nameResolveHandler (s : State) (us : UnresolvedSource) (result : DnsResult)
    (first : BitVec 16) : Except Abort State :=
  if s.resolvingSource ≠ some us then .error .wrongResolvingSource
  else if s.resolvingId then .error .resolvingScheduled
  else do
    let (s, failed) ← match result with
      | .success addrs => do
          let s ← processResolvedName env s us addrs first
          .ok (s, false)
      | .tryAgain => .ok (s, false)
      | .failure => .ok (s, true)
    let next := nextUnresolved s us
    let s :=
      if failed ∨ us.address.ipAddr.isReal ∨ us.refreshment ∨ isResolved env s us then
        removeUnresolvedSource s us
      else s
    if next = none ∧ s.resolvingRestart then
      .ok (continueResolving { s with resolvingRestart := false } s.unresolvedSources.head?)
    else .ok (continueResolving s next)

/-! ### Additions by name -/

/-- The loop of `get_next_conf_id` which skips the IDs that are in use. -/
def skipConfIds (records : List SourceRecord) : ℕ → BitVec 32 → BitVec 32
  | 0, id => id
  | turns + 1, id =>
      if records.any (·.confId = id + 1) then skipConfIds records turns (id + 1) else id + 1

/-- `get_next_conf_id`. There are fewer records than IDs, so that the number of turns is
limited by the number of the records. -/
def getNextConfId (s : State) : BitVec 32 × State :=
  let records := s.records.reduceOption
  let id := skipConfIds records (records.length + 1) s.lastConfId
  (id, { s with lastConfId := id })

/-- `NSR_AddSource`. -/
def addSourceByAddress (s : State) (remoteAddr : RemoteAddress) (updates : List AddressUpdate) :
    Except Abort (Status × State) :=
  let (confId, s) := getNextConfId s
  addSource env s remoteAddr none .unspec none confId updates

/-- `get_unused_pool_id`. -/
def getUnusedPoolId (s : State) : Option ℕ :=
  (List.range s.pools.length).find? fun i =>
    s.pools[i]?.any (fun p => p.sources ≤ 0) ∧ ¬ s.unresolvedSources.any (·.poolId = some i)

/-- The new pool of `NSR_AddSourceByName`. -/
def addPool (s : State) (params : ℤ) : ℕ × State :=
  let pool : SourcePool :=
    { sources := 0
      unresolvedSources := 0
      confirmedSources := 0
      maxSources := max 1 (min params maxPoolSources) }
  match getUnusedPoolId s with
  | some id => (id, { s with pools := s.pools.set id pool })
  | none => (s.pools.length, { s with pools := s.pools ++ [pool] })

/-- The loop of `NSR_AddSourceByName` that adds the sources. The ID of the first address
is already taken. -/
def addSources (name : String) (family : Family) (port : BitVec 16) (poolId : Option ℕ)
    (confId : BitVec 32) (updates : ℕ → List AddressUpdate) :
    ℕ → ℕ → State → Except Abort (Status × State)
  | 0, _, s => .ok (.unresolvedName, s)
  | n + 1, i, s => do
      let s := if i > 0 then { s with lastAddressId := s.lastAddressId + 1 } else s
      let (status, s) ← addSource env s ⟨.id s.lastAddressId, port⟩ (some name) family poolId
        confId (updates i)
      if status ≠ .success then .ok (.tooManySources, s)
      else addSources name family port poolId confId updates n (i + 1) s

/-- `isgraph`. -/
def isgraph (c : Char) : Bool :=
  33 ≤ c.toNat ∧ c.toNat ≤ 126

/-- The name of `NSR_AddSourceByName` that is put in the list of unresolved sources. -/
def unresolvedName (address : RemoteAddress) (poolId : Option ℕ) (name : String)
    (family : Family) : UnresolvedSource where
  number := 0
  address := address
  poolId := poolId
  name := name
  family := family
  randomOrder := false
  refreshment := false

/-- `NSR_AddSourceByName`. Of the parameters of the source, only `max_sources` is used
here. -/
def addSourceByName (s : State) (name : String) (family : Family) (port : BitVec 16)
    (pool : Bool) (params : ℤ) (updates : ℕ → List AddressUpdate) :
    Except Abort (Status × State) :=
  match env.stringToIP name with
  | some ip =>
      if family ≠ .unspec ∧ family ≠ ip.family then .ok (.invalidAF, s)
      else
        let (confId, s) := getNextConfId s
        addSource env s ⟨ip, port⟩ (some name) .unspec none confId (updates 0)
  | none =>
      if ¬ name.toList.all isgraph then .ok (.invalidName, s)
      else
        let s := { s with lastAddressId := s.lastAddressId + 1 }
        if ¬ pool then
          let s := appendUnresolvedSource s
            (unresolvedName ⟨.id s.lastAddressId, port⟩ none name family)
          let (confId, s) := getNextConfId s
          addSources env name family port none confId updates 1 0 s
        else
          let (id, s) := addPool s params
          let newSources :=
            min (2 * max 1 (min params maxPoolSources)) maxPoolSources
          let s := appendUnresolvedSource s
            (unresolvedName ⟨.unspec, 0⟩ (some id) name family)
          let (confId, s) := getNextConfId s
          addSources env name family port (some id) confId updates newSources.toNat 0 s

/-! ### Refreshments and responses -/

/-- The record that `maybe_refresh_source` selects: the one that was resolved first. -/
def oldestRecord (s : State) : Option (ℕ × SourceRecord) :=
  (List.range s.records.length).foldl (fun oldest i =>
    match OpenAddressing.entry s.records i with
    | none => oldest
    | some r =>
        if (env.stringToIP r.name).isSome then oldest
        else
          match oldest with
          | none => some (i, r)
          | some (j, o) =>
              if o.lastResolving > r.lastResolving then some (i, r) else some (j, o)) none

/-- `maybe_refresh_source`. -/
def maybeRefreshSource (s : State) : Except Abort State :=
  let now := s.lastEventMonoTime
  if env.refresh ≤ 0 ∨ now < s.lastRefreshment + env.refresh then .ok s
  else
    let s := { s with lastRefreshment := now }
    match oldestRecord env s with
    | none => .ok s
    | some (slot, r) =>
        if now < r.lastResolving + env.refresh then
          .ok { s with lastRefreshment := r.lastResolving }
        else resolveSourceReplacement env s slot r true

/-- `NSR_RefreshAddresses`. -/
def refreshAddresses (s : State) : Except Abort State :=
  (List.range s.records.length).foldlM (fun s i =>
    match OpenAddressing.entry s.records i with
    | none => .ok s
    | some r => resolveSourceReplacement env s i r true) s

/-- A record after the first good response of its source. -/
def SourceRecord.confirm (r : SourceRecord) : SourceRecord :=
  { r with tentative := false }

/-- The counters of the pool of a record that is confirmed. -/
def SourcePool.confirm (p : SourcePool) : SourcePool :=
  { p with confirmedSources := p.confirmedSources + 1 }

/-- What `NSR_ProcessRx` does after a good response of the record in a slot. -/
def confirmSource (s : State) (slot : ℕ) (bad : ℕ → List BadSource) : Except Abort State :=
  match OpenAddressing.entry s.records slot with
  | none => .error .emptyRecord
  | some r =>
      if r.tentative then
        let s := { s with records := s.records.set slot (some r.confirm) }
        match r.poolId with
        | none => .ok s
        | some id =>
            let s := s.modifyPool (some id) SourcePool.confirm
            if s.pools[id]?.any (fun p => p.confirmedSources ≥ p.maxSources) then
              removePoolSources env s id true false bad
            else .ok s
      else .ok s

/-- What comes with a received packet: if its mode is that of a client, if the instance
of the source accepts it as a good response, and the bad sources that are found by the
selection of sources with the new sample, and by those in which tentative sources are
removed. -/
structure Rx where
  client : Bool
  good : Bool
  bad : List BadSource
  badRemoved : ℕ → List BadSource

/-- `NSR_ProcessRx`. A packet that is not from a source does not change any record. -/
def processRx (s : State) (remoteAddr : RemoteAddress) (rx : Rx) : Except Abort State :=
  match rx.client, findSlot2 env s remoteAddr with
  | false, (.ipPort, slot) => do
      let s ← rx.bad.foldlM (handleBadSource env) s
      if ¬ rx.good then .ok s
      else do
        let s ← confirmSource env s slot rx.badRemoved
        maybeRefreshSource env s
  | _, _ => .ok s

/-! ### Runs -/

/-- The public functions, the answers of the resolver and the resolving timeout. -/
inductive Event
  | addSource (remoteAddr : RemoteAddress) (updates : List AddressUpdate)
  | addSourceByName (name : String) (family : Family) (port : BitVec 16) (pool : Bool)
      (params : ℤ) (updates : ℕ → List AddressUpdate)
  | resolveSources
  | resolveSourcesTimeout
  | nameResolved (result : DnsResult) (first : BitVec 16)
  | removeSource (address : IPAddr) (bad : List BadSource)
  | removeSourcesById (confId : BitVec 32) (bad : ℕ → List BadSource)
  | removeAllSources (bad : ℕ → List BadSource)
  | handleBadSource (bad : BadSource)
  | refreshAddresses
  | updateSourceNtpAddress (update : AddressUpdate) (bad : List BadSource)
  | processRx (remoteAddr : RemoteAddress) (rx : Rx)
  | setTime (now : ℚ)

/-- One event. -/
def step (s : State) : Event → Except Abort State
  | .addSource remoteAddr updates => do
      let (_, s) ← addSourceByAddress env s remoteAddr updates
      .ok s
  | .addSourceByName name family port pool params updates => do
      let (_, s) ← addSourceByName env s name family port pool params updates
      .ok s
  | .resolveSources => resolveSources env s
  | .resolveSourcesTimeout =>
      if s.resolvingTimeouts = 0 then .ok s
      else
        resolveSources' env
          { s with resolvingId := false, resolvingTimeouts := s.resolvingTimeouts - 1 }
  | .nameResolved result first =>
      match s.requests with
      | [] => .ok s
      | us :: requests => nameResolveHandler env { s with requests := requests } us result first
  | .removeSource address bad => do
      let (_, s) ← removeSource env s address bad
      .ok s
  | .removeSourcesById confId bad => removeSourcesById env s confId bad
  | .removeAllSources bad => removeAllSources env s bad
  | .handleBadSource bad => handleBadSource env s bad
  | .refreshAddresses => refreshAddresses env s
  | .updateSourceNtpAddress update bad => do
      let (_, s) ← updateSourceNtpAddress env s update bad
      .ok s
  | .processRx remoteAddr rx => processRx env s remoteAddr rx
  | .setTime now => .ok { s with lastEventMonoTime := now }

/-- A run from the initialisation on. -/
def run (events : List Event) : Except Abort State := do
  let s ← initialise env
  events.foldlM (step env) s

end Chrony.NtpSources
