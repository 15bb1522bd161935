import Mathlib.Order.Lattice.Nat
import Chrony.Addressing
import Chrony.ClientLog.TimestampMap

/-!
# The Records of Clients

The functions of `clientlog.c` which keep one record for each client address in a hash
table, and limit the rate of responses with token buckets. The table is an array with a
fixed number of records in each slot. It is doubled when a slot is full, by a function
which copies the records with the same function that finds them.

The two functions which call each other have an argument for the depth of the calls,
and a call which is too deep is an error. The random decisions of the rate limiting are
arguments.
-/

namespace Chrony.ClientLog

open Lib

/-- `CLG_Service`. -/
inductive Service
  | ntp
  | ntske
  | cmdmon
  deriving DecidableEq, Repr

/-- The services in the order of their numbers. -/
def Service.all : List Service := [.ntp, .ntske, .cmdmon]

instance : Fintype Service where
  elems := {.ntp, .ntske, .cmdmon}
  complete s := by cases s <;> decide

/-- `SLOT_SIZE`. -/
def slotSize : ℕ := 1 <<< slotBits

/-- `TS_FRAC`. -/
def tsFrac : ℕ := 4

/-- `INVALID_TS`. -/
def invalidTs : BitVec 32 := 0

/-- `RATE_SCALE`. -/
def rateScale : ℤ := 4

/-- `MIN_RATE`. -/
def minRate : ℤ := -14 * rateScale

/-- `INVALID_RATE`. -/
def invalidRate : ℤ := -128

/-- `Record`. The flags are the bits of `drop_flags`. -/
structure Record where
  ipAddr : IPAddr
  lastHit : Service → BitVec 32
  hits : Service → BitVec 32
  drops : Service → BitVec 16
  tokens : Service → BitVec 16
  rate : Service → ℤ
  ntpTimeoutRate : ℤ
  dropFlags : Service → Bool
  deriving DecidableEq

/-- The parameters of the rate limiting of a service. -/
structure Limit where
  maxTokens : BitVec 16
  tokensPerHit : BitVec 16
  tokenShift : ℤ
  leakRate : ℤ
  kodRate : ℤ
  deriving DecidableEq, Repr

/-- The variables of the client log. -/
structure Log where
  active : Bool
  limit : Service → Limit
  slots : ℕ
  maxSlots : ℕ
  records : ℕ → Record
  tsOffset : BitVec 32
  totalHits : Service → BitVec 64
  totalDrops : Service → BitVec 64
  totalRecordDrops : BitVec 64

/-- The ways a function ends without returning. -/
inductive LogAbort
  /-- `get_record` and `expand_hashtable` call each other too many times. -/
  | depth
  /-- `assert(slots <= max_slots)` in `expand_hashtable`. -/
  | slots
  /-- `oldest_record` is `NULL` where it is used. -/
  | oldestRecord
  /-- Rate limiting is enabled with `noclientlog`, which is a fatal error. -/
  | noClientLog
  deriving DecidableEq, Repr

/-! ### Records -/

/-- `compare_ts`. -/
def compareTs (x y : BitVec 32) : ℤ :=
  if x = y then 0
  else if y = invalidTs then 1
  else if (x - y).toInt > 0 then 1
  else -1

/-- `compare_total_hits`. -/
def compareTotalHits (x y : Record) : ℤ :=
  let total (record : Record) : BitVec 32 := (Service.all.map record.hits).foldl (· + ·) 0
  if total x > total y then 1 else -1

/-- `is_ip_equal`. -/
def isIpEqual : IPAddr → IPAddr → Bool
  | .inet4 a, .inet4 b => a = b
  | .inet6 a, .inet6 b => a = b
  | _, _ => false

/-- The latest of the last hits, as it is searched for in `get_record`. -/
def Record.latestHit (record : Record) : BitVec 32 :=
  [Service.ntske, Service.cmdmon].foldl
    (fun lastHit service =>
      if compareTs lastHit (record.lastHit service) < 0 then record.lastHit service else lastHit)
    (record.lastHit .ntp)

/-- A new record of an address. -/
def newRecord (limit : Service → Limit) (ip : IPAddr) : Record where
  ipAddr := ip
  lastHit := fun _ => invalidTs
  hits := fun _ => 0
  drops := fun _ => 0
  tokens := fun service => (limit service).maxTokens
  rate := fun _ => invalidRate
  ntpTimeoutRate := invalidRate
  dropFlags := fun _ => false

/-- A record which is not used. The other fields are not set by the source. -/
def emptyRecord : Record where
  ipAddr := .unspec
  lastHit := fun _ => 0
  hits := fun _ => 0
  drops := fun _ => 0
  tokens := fun _ => 0
  rate := fun _ => 0
  ntpTimeoutRate := 0
  dropFlags := fun _ => false

/-! ### The hash table -/

namespace Log

/-- An assignment to a record. -/
def setRecord (log : Log) (index : ℕ) (record : Record) : Log :=
  { log with records := Function.update log.records index record }

/-- The index of the first record in the slot of an address. -/
def first (log : Log) (seed : BitVec 32) (ip : IPAddr) : ℕ :=
  (ip.toHash seed).toNat % log.slots * slotSize

/-- The indices of the records in the slot of an address. -/
def slot (log : Log) (seed : BitVec 32) (ip : IPAddr) : List ℕ :=
  List.range' (log.first seed ip) slotSize

end Log

/-- What the loop of `get_record` finds in a slot: the record of the address, an empty
record, or the oldest one of other addresses. -/
inductive Search
  | found (index : ℕ)
  | empty (index : ℕ)
  | full (oldest : Option ℕ)
  deriving DecidableEq, Repr

/-- The older one of the oldest record and another one, with their latest hits. -/
def olderRecord (records : ℕ → Record) (oldest : Option (ℕ × BitVec 32)) (index : ℕ) :
    ℕ × BitVec 32 :=
  let lastHit := (records index).latestHit
  match oldest with
  | none => (index, lastHit)
  | some (oldestIndex, oldestHit) =>
      if compareTs oldestHit lastHit > 0 ∨ (oldestHit = lastHit ∧
          compareTotalHits (records oldestIndex) (records index) > 0) then (index, lastHit)
      else (oldestIndex, oldestHit)

/-- The loop of `get_record` over the records of a slot. -/
def searchSlot (records : ℕ → Record) (ip : IPAddr) :
    Option (ℕ × BitVec 32) → List ℕ → Search
  | oldest, [] => .full (oldest.map (·.1))
  | oldest, index :: l =>
      if isIpEqual ip (records index).ipAddr then .found index
      else if (records index).ipAddr = .unspec then .empty index
      else searchSlot records ip (some (olderRecord records oldest index)) l

mutual

/-- `get_record`, for an address which can have a record. It returns the index of the
record. -/
def getRecordOf (seed : BitVec 32) : ℕ → Log → IPAddr → Except LogAbort (Log × ℕ)
  | 0, _, _ => .error .depth
  | depth + 1, log, ip =>
      match searchSlot log.records ip none (log.slot seed ip) with
      | .found index => .ok (log, index)
      | .empty index => .ok (log.setRecord index (newRecord log.limit ip), index)
      | .full oldest => do
          match ← expandHashtable seed depth log with
          | some log => getRecordOf seed depth log ip
          | none =>
              match oldest with
              | none => .error .oldestRecord
              | some index =>
                  .ok ({ log with totalRecordDrops := log.totalRecordDrops + 1 }.setRecord index
                    (newRecord log.limit ip), index)

/-- `expand_hashtable`. It returns none if the table cannot be expanded. -/
def expandHashtable (seed : BitVec 32) : ℕ → Log → Except LogAbort (Option Log)
  | 0, _ => .error .depth
  | depth + 1, log =>
      if 2 * log.slots > log.maxSlots then .ok none
      else
        let slots := max minSlots (2 * log.slots)
        if slots > log.maxSlots then .error .slots
        else do
          let expanded ← (List.range (log.slots * slotSize)).foldlM
            (fun new index =>
              let oldRecord := log.records index
              if oldRecord.ipAddr = .unspec then .ok new
              else do
                let r ← getRecordOf seed depth new oldRecord.ipAddr
                pure (r.1.setRecord r.2 oldRecord))
            { log with slots, records := fun _ => emptyRecord }
          pure (some expanded)

end

/-- A depth which is enough for any number of slots. -/
def maxDepth : ℕ := 32

/-- `get_record`. -/
def getRecord (seed : BitVec 32) (log : Log) (ip : IPAddr) :
    Except LogAbort (Log × Option ℕ) :=
  if !log.active ∨ (ip.family ≠ .inet4 ∧ ip.family ≠ .inet6) then .ok (log, none)
  else (getRecordOf seed maxDepth log ip).map fun r => (r.1, some r.2)

/-! ### Token buckets -/

/-- `MIN_LIMIT_INTERVAL`. -/
def minLimitInterval : ℤ := -15 - tsFrac

/-- `MAX_LIMIT_INTERVAL`. -/
def maxLimitInterval : ℤ := 12

/-- `MIN_LIMIT_BURST`. -/
def minLimitBurst : ℤ := 1

/-- `MAX_LIMIT_BURST`. -/
def maxLimitBurst : ℤ := 255

/-- `CLAMP`. -/
def clamp (lo x hi : ℤ) : ℤ :=
  if x < lo then lo else if x > hi then hi else x

/-- The smallest shift, not less than `tshift` and at most `limit`, with which the maximum
number of tokens fits in 16 bits. -/
def tokenShiftLoop (burst : ℕ) (limit : ℕ) : ℕ → ℕ → ℕ
  | 0, tshift => tshift
  | n + 1, tshift =>
      if tshift < limit then
        if burst <<< (limit - tshift) < 1 <<< 16 then tshift
        else tokenShiftLoop burst limit n (tshift + 1)
      else tshift

/-- The parameters for an interval of `2 ^ interval` units of timestamps: the maximum number
of tokens, the tokens of a hit and the shift. -/
def fineBucketParams (interval burst : ℕ) : BitVec 16 × BitVec 16 × ℤ :=
  let tshift := tokenShiftLoop burst interval interval 0
  let tphit := BitVec.ofNat 16 (1 <<< (interval - tshift))
  (BitVec.ofNat 16 (tphit.toNat * burst), tphit, tshift)

/-- The parameters for coarse rate limiting, with intervals shorter than the resolution of
timestamps. -/
def coarseBucketParams (interval : ℤ) (burst : ℕ) : BitVec 16 × BitVec 16 × ℤ :=
  let tshift := interval
  let burst := max (1 <<< (-tshift).toNat) burst
  let tphit := BitVec.ofNat 16 (1 <<< (interval - tshift).toNat)
  (BitVec.ofNat 16 (tphit.toNat * burst), tphit, tshift)

/-- `set_bucket_params`. -/
def setBucketParams (interval burst : ℤ) : BitVec 16 × BitVec 16 × ℤ :=
  let interval := clamp minLimitInterval interval maxLimitInterval
  let burst := clamp minLimitBurst burst maxLimitBurst
  if interval ≥ -tsFrac then fineBucketParams (interval + tsFrac).toNat burst.toNat
  else coarseBucketParams (interval + tsFrac) burst.toNat

/-- The configured rate limit of a service. -/
structure RateLimit where
  interval : ℤ
  burst : ℤ
  leakRate : ℤ
  kodRate : ℤ
  deriving DecidableEq, Repr

/-- The parameters of a service in `CLG_Initialise`. -/
def RateLimit.toLimit : Option RateLimit → Limit
  | none => ⟨0, 0, 0, 0, 0⟩
  | some config =>
      let params := setBucketParams config.interval config.burst
      ⟨params.1, params.2.1, params.2.2, clamp 1 config.leakRate 4, clamp 0 config.kodRate 4⟩

/-- The log of `CLG_Initialise`, before the table is allocated. The memory limit allows for
`slots` slots. -/
def initialLog (noClientLog : Bool) (slots : ℕ) (rateLimit : Service → Option RateLimit)
    (tsOffset : BitVec 32) : Log where
  active := !noClientLog
  limit := fun service => RateLimit.toLimit (rateLimit service)
  slots := 0
  maxSlots := max minSlots (min slots maxSlots)
  records := fun _ => emptyRecord
  tsOffset
  totalHits := fun _ => 0
  totalDrops := fun _ => 0
  totalRecordDrops := 0

/-- `CLG_Initialise`. The first slot is allocated by `expand_hashtable`. -/
def Log.initialise (seed : BitVec 32) (noClientLog : Bool) (slots : ℕ)
    (rateLimit : Service → Option RateLimit) (tsOffset : BitVec 32) : Except LogAbort Log :=
  let log := initialLog noClientLog slots rateLimit tsOffset
  if noClientLog then
    if Service.all.any fun service => (log.limit service).leakRate ≠ 0 then .error .noClientLog
    else .ok log
  else (expandHashtable seed maxDepth log).map (·.getD log)

/-! ### Accesses -/

/-- `get_ts_from_timespec`. -/
def getTsFromTimespec (tsOffset : BitVec 32) (ts : Timespec) : BitVec 32 :=
  let sec := BitVec.ofInt 32 ts.sec
  let nsec := BitVec.ofInt 32 ts.nsec + tsOffset
  let carry : Bool := nsec ≥ 1000000000#32
  let sec := if carry then sec + 1 else sec
  let nsec := if carry then nsec - 1000000000#32 else nsec
  sec <<< tsFrac ||| (140740#32 * (nsec >>> 15)) >>> (32 - tsFrac)

/-- The loop of `update_record` which converts an interval to a scaled logarithm. -/
def scaledLog2 : ℕ → BitVec 32 → ℤ → ℤ
  | 0, _, interval2 => interval2
  | n + 1, interval, interval2 =>
      if interval2 < -minRate then
        if interval ≤ 1 then interval2
        else scaledLog2 n (interval >>> 1) (interval2 + rateScale)
      else interval2

/-- The scaled and rounded logarithm of an interval. -/
def intervalLog2 (interval : BitVec 32) : ℤ :=
  if interval ≠ 0 then scaledLog2 19 (interval + interval >>> 1) (-rateScale * tsFrac)
  else -rateScale * (tsFrac + 1)

/-- The approximation of the exponential moving average in `update_record`. -/
def updateRate (rate interval2 : ℤ) : ℤ :=
  if rate = invalidRate then -interval2
  else if rate < -interval2 then rate + 1
  else if rate > -interval2 then
    if rate > rateScale * 5 / 2 - interval2 then rateScale * 5 / 2 - interval2
    else (rate - interval2 - 1).tdiv 2
  else rate

/-- The tokens added for the time between two hits. -/
def addedTokens (limit : Limit) (nowTs prevHit : BitVec 32) : BitVec 32 :=
  if limit.tokenShift ≥ 0 then
    (nowTs >>> limit.tokenShift.toNat) - (prevHit >>> limit.tokenShift.toNat)
  else if nowTs - prevHit > limit.maxTokens.setWidth 32 then limit.maxTokens.setWidth 32
  else (nowTs - prevHit) <<< (-limit.tokenShift).toNat

/-- `MIN(record->tokens[service] + tokens, mtokens)`. -/
def refill (limit : Limit) (tokens : BitVec 16) (added : BitVec 32) : BitVec 16 :=
  let sum := tokens.setWidth 32 + added
  if sum < limit.maxTokens.setWidth 32 then sum.setWidth 16 else limit.maxTokens

/-- The part of `update_record` after the hit is recorded. -/
def Record.addInterval (record : Record) (limit : Limit) (service : Service)
    (nowTs prevHit : BitVec 32) : Record :=
  let interval2 := intervalLog2 (nowTs - prevHit)
  let record := { record with
    tokens := Function.update record.tokens service
      (refill limit (record.tokens service) (addedTokens limit nowTs prevHit)) }
  if service = .ntp ∧ record.dropFlags service then
    { record with ntpTimeoutRate := updateRate record.ntpTimeoutRate interval2 }
  else
    { record with
      rate := Function.update record.rate service (updateRate (record.rate service) interval2) }

/-- `update_record`. -/
def updateRecord (limit : Limit) (service : Service) (nowTs : BitVec 32) (record : Record) :
    Record :=
  let prevHit := record.lastHit service
  let record := { record with
    lastHit := Function.update record.lastHit service nowTs
    hits := Function.update record.hits service (record.hits service + 1) }
  if prevHit = invalidTs ∨ (nowTs - prevHit).toInt < 0 then record
  else record.addInterval limit service nowTs prevHit

/-- `CLG_LogServiceAccess`. It returns the index of the record. -/
def logServiceAccess (seed : BitVec 32) (log : Log) (service : Service) (client : IPAddr)
    (now : Timespec) : Except LogAbort (Log × Option ℕ) := do
  let log := { log with
    totalHits := Function.update log.totalHits service (log.totalHits service + 1) }
  let r ← getRecord seed log client
  match r.2 with
  | none => pure (r.1, none)
  | some index =>
      pure (r.1.setRecord index (updateRecord (r.1.limit service) service
        (getTsFromTimespec r.1.tsOffset now) (r.1.records index)), some index)

/-- `CLG_Limit`. -/
inductive LimitResult
  | pass
  | drop
  | kod
  deriving DecidableEq, Repr

/-- An assignment to the tokens of a service. -/
def Record.setTokens (record : Record) (service : Service) (tokens : BitVec 16) : Record :=
  { record with tokens := Function.update record.tokens service tokens }

/-- An assignment to the flag of a service in `drop_flags`. -/
def Record.setDropFlag (record : Record) (service : Service) (flag : Bool) : Record :=
  { record with dropFlags := Function.update record.dropFlags service flag }

/-- The random decision `leak` is inverted for NTP clients which send more requests when they
do not get responses. -/
def Record.isDropped (record : Record) (service : Service) (leak : Bool) : Bool :=
  if service = .ntp ∧ record.ntpTimeoutRate ≠ invalidRate ∧
      record.ntpTimeoutRate > record.rate service + rateScale then !leak
  else leak

/-- The part of `CLG_LimitServiceRate` for the record. -/
def Record.limitRate (record : Record) (limit : Limit) (service : Service) (leak kod : Bool) :
    Record × LimitResult :=
  let record := record.setDropFlag service false
  if record.tokens service ≥ limit.tokensPerHit then
    (record.setTokens service (record.tokens service - limit.tokensPerHit), .pass)
  else if !record.isDropped service leak then (record.setTokens service 0, .pass)
  else if limit.kodRate > 0 ∧ !kod then (record, .kod)
  else
    ({ record.setDropFlag service true with
        drops := Function.update record.drops service (record.drops service + 1) }, .drop)

/-- `CLG_LimitServiceRate`. The random decisions are `leak` and `kod`, which are the results
of `limit_response_random`. -/
def limitServiceRate (log : Log) (service : Service) (index : ℕ) (leak kod : Bool) :
    Log × LimitResult :=
  if (log.limit service).tokensPerHit = 0 then (log, .pass)
  else
    let r := (log.records index).limitRate (log.limit service) service leak kod
    ({ log with
        totalDrops :=
          if r.2 = LimitResult.drop then
            Function.update log.totalDrops service (log.totalDrops service + 1)
          else log.totalDrops
      }.setRecord index r.1, r.2)

/-- The reset of `CLG_GetClientAccessReportByIndex`, which is done only for records in use. -/
def resetRecord (log : Log) (index : ℕ) : Log :=
  if !log.active ∨ index ≥ log.slots * slotSize ∨ (log.records index).ipAddr = .unspec then log
  else
    log.setRecord index { log.records index with hits := fun _ => 0, drops := fun _ => 0 }

/-! ### Runs -/

/-- The calls of the client log by other modules. The rate is limited only for a record
which was just accessed, with a list of random decisions for each call of
`CLG_LimitServiceRate`. -/
inductive LogCall
  | access (service : Service) (client : IPAddr) (now : Timespec) (limited : List (Bool × Bool))
  | getClientIndex (client : IPAddr)
  | reset (index : ℕ)

/-- Calls of `CLG_LimitServiceRate` for one record. -/
def limitServiceRates (log : Log) (service : Service) (index : ℕ) (limited : List (Bool × Bool)) :
    Log :=
  limited.foldl (fun log random => (limitServiceRate log service index random.1 random.2).1) log

/-- One call. -/
def Log.step (seed : BitVec 32) (log : Log) : LogCall → Except LogAbort Log
  | .access service client now limited => do
      let r ← logServiceAccess seed log service client now
      match r.2 with
      | none => pure r.1
      | some index => pure (limitServiceRates r.1 service index limited)
  | .getClientIndex client => do
      let r ← getRecord seed log client
      pure r.1
  | .reset index => pure (resetRecord log index)

/-- A run from the initialised log. -/
def Log.run (seed : BitVec 32) (noClientLog : Bool) (slots : ℕ)
    (rateLimit : Service → Option RateLimit) (tsOffset : BitVec 32) (calls : List LogCall) :
    Except LogAbort Log := do
  let log ← Log.initialise seed noClientLog slots rateLimit tsOffset
  calls.foldlM (Log.step seed) log

end Chrony.ClientLog
