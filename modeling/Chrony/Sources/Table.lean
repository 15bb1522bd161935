import Chrony.Addressing
import Chrony.Timespec
import Chrony.Lib.IntervalSweep

/-!
# The Table of Sources

The data model of `sources.c` and its operations other than the selection. Real numbers of
the source are rational numbers here, with exact arithmetic. An instance is named by its
position in the table.

The sample buffers of a source are not part of the table. What the functions of
`sourcestats.c` compute from them is given by `Stats` and `TrackingData`, which may differ
from call to call. What is only logged or reported (`reported_status` and the flags which
limit log messages), and the counter `bad` with `handle_bad_source`, which asks the
resolver for a replacement to be made later, are left out.
-/

namespace Chrony.Sources

open Lib.IntervalSweep

/-- `SRC_Status`. -/
inductive Status
  | ok
  | unselectable
  | badStats
  | unsynchronised
  | badStratum
  | badDistance
  | jittery
  | waitsStats
  | stale
  | orphan
  | untrusted
  | falseticker
  | waitsSources
  | nonpreferred
  | waitsUpdate
  | distant
  | outlier
  | unselected
  | selected
  deriving DecidableEq, Repr

/-- `SRC_Type`. -/
inductive SourceType
  | ntp
  | refclock
  deriving DecidableEq, Repr

/-- `NTP_Leap`. -/
inductive Leap
  | normal
  | insertSecond
  | deleteSecond
  | unsynchronised
  deriving DecidableEq, Repr

/-- `SRC_AuthSelectMode`. -/
inductive AuthSelectMode
  | ignore
  | mix
  | prefer
  | require
  deriving DecidableEq, Repr

/-- The flags `SRC_SELECT_*`. -/
structure SelOptions where
  noselect : Bool
  prefer : Bool
  trust : Bool
  require : Bool
  deriving DecidableEq, Repr

namespace SelOptions

/-- No option. -/
def none : SelOptions := ⟨false, false, false, false⟩

/-- The bitwise or of options. -/
def union (a b : SelOptions) : SelOptions :=
  ⟨a.noselect || b.noselect, a.prefer || b.prefer, a.trust || b.trust, a.require || b.require⟩

/-- The bitwise and of options. -/
def inter (a b : SelOptions) : SelOptions :=
  ⟨a.noselect && b.noselect, a.prefer && b.prefer, a.trust && b.trust, a.require && b.require⟩

/-- The bitwise complement of options. -/
def compl (a : SelOptions) : SelOptions :=
  ⟨!a.noselect, !a.prefer, !a.trust, !a.require⟩

end SelOptions

/-- `struct SelectInfo`. -/
structure SelectInfo where
  stdDev : ℚ
  rootDistance : ℚ
  loLimit : ℚ
  hiLimit : ℚ
  lastSampleAgo : ℚ
  deriving DecidableEq, Repr

/-- `struct SRC_Instance_Record`. -/
structure Source where
  index : ℕ
  refId : BitVec 32
  ipAddr : IPAddr
  active : Bool
  reachability : ℕ
  reachabilitySize : ℕ
  unreachableRun : ℕ
  maxUnreachableRun : ℤ
  updates : ℕ
  distant : ℕ
  status : Status
  type : SourceType
  authenticated : Bool
  confSelOptions : SelOptions
  selOptions : SelOptions
  selScore : ℚ
  selInfo : SelectInfo
  stratum : ℤ
  leap : Leap
  leapVote : Bool
  deriving DecidableEq

/-- The table of sources with `selected_source_index`, which is none for
`INVALID_SOURCE`. -/
structure State where
  sources : List Source
  selected : Option ℕ
  deriving DecidableEq

/-- The configuration read by the functions of the table. -/
structure Config where
  maxDistance : ℚ
  maxJitter : ℚ
  maxStratum : ℤ
  minStratum : ℤ
  reselectDistance : ℚ
  stratumWeight : ℚ
  combineLimit : ℚ
  minSources : ℤ
  authSelectMode : AuthSelectMode

/-- `SOURCE_REACH_BITS`. -/
def sourceReachBits : ℕ := 8

/-- `MIN_SAMPLES_FOR_REGRESS`. -/
def minSamplesForRegress : ℕ := 3

/-- What the functions of `sourcestats.c` read from the samples of a source at the time of
a call: the offset and the root distance of the best sample, and the ages of the oldest and
newest sample. -/
structure Stats where
  nSamples : ℕ
  maxSamples : ℕ
  regressionOk : Bool
  stdDev : ℚ
  offset : ℚ
  rootDistance : ℚ
  firstSampleAgo : ℚ
  lastSampleAgo : ℚ

/-- The results of `SST_GetTrackingData`. -/
structure TrackingData where
  refTime : Timespec
  offset : ℚ
  offsetSd : ℚ
  frequency : ℚ
  frequencySd : ℚ
  skew : ℚ
  rootDelay : ℚ
  rootDispersion : ℚ

/-- `struct Sort_Element`. -/
abbrev SortElement := Endpoint ℕ ℚ

/-- `compare_sort_elements`. -/
def compareSortElements (u v : SortElement) : ℤ :=
  if u.offset < v.offset then -1
  else if u.offset > v.offset then 1
  else if u.tag = .low ∧ v.tag = .high then -1
  else if u.tag = .high ∧ v.tag = .low then 1
  else 0

/-- `qsort` with `compare_sort_elements`: the order of equal elements is not specified. -/
structure Qsort where
  sort : List SortElement → List SortElement
  perm : ∀ l, (sort l).Perm l
  sorted : ∀ l, (sort l).Pairwise fun u v => compareSortElements u v ≤ 0

/-- What a selection reads from other modules: the statistics of the sources by their
positions, `LCL_GetMaxClockError`, `REF_GetOrphanStratum`, `NSR_GetLocalRefid` for the
addresses of the sources, and the sort function. -/
structure Env where
  stats : ℕ → Stats
  tracking : ℕ → TrackingData
  maxClockError : ℚ
  orphanStratum : ℤ
  localRefid : ℕ → BitVec 32
  qsort : Qsort

/-- The assertions of the source. An access out of the table would be the last one. -/
inductive Assertion
  | statusNotOk
  | trustDepthLeDepth
  | trustDepthNonneg
  | depthZero
  | endpointCount
  | preferredFound
  | maxScoreIndexValid
  | combined
  | instanceInTable
  | indexInTable
  deriving DecidableEq, Repr

/-! ### Options -/

section Options

variable (cfg : Config)

/-- The number of NTP sources without `noselect`, which are authenticated or not. -/
def countNtpSources (authenticated : Bool) (sources : List Source) : ℕ :=
  sources.countP fun src =>
    !src.confSelOptions.noselect && src.type = .ntp && src.authenticated == authenticated

/-- The options which `update_sel_options` adds to authenticated NTP sources,
unauthenticated NTP sources and reference clocks. -/
def addedOptions (sources : List Source) : SelOptions × SelOptions × SelOptions :=
  let authNtpSources := countNtpSources true sources
  let unauthNtpSources := countNtpSources false sources
  let requireTrust : SelOptions := { SelOptions.none with require := true, trust := true }
  let noselect : SelOptions := { SelOptions.none with noselect := true }
  match cfg.authSelectMode with
  | .ignore => (.none, .none, .none)
  | .mix =>
      if authNtpSources > 0 ∧ unauthNtpSources > 0 then (requireTrust, .none, requireTrust)
      else (.none, .none, .none)
  | .prefer =>
      if authNtpSources > 0 then (.none, noselect, .none) else (.none, .none, .none)
  | .require => (.none, noselect, .none)

/-- The new options of one source in `update_sel_options`. -/
def effectiveOptions (added : SelOptions × SelOptions × SelOptions) (src : Source) :
    SelOptions :=
  if src.confSelOptions.noselect then src.confSelOptions
  else
    match src.type with
    | .ntp => src.confSelOptions.union (if src.authenticated then added.1 else added.2.1)
    | .refclock => src.confSelOptions.union added.2.2

/-- `update_sel_options`. -/
def updateSelOptions (sources : List Source) : List Source :=
  let added := addedOptions cfg sources
  sources.map fun src => { src with selOptions := effectiveOptions added src }

end Options

/-! ### Small operations -/

/-- The part of `SRC_ResetInstance` before the selection. -/
def Source.reset (src : Source) : Source :=
  { src with
    updates := 0
    reachability := 0
    reachabilitySize := 0
    unreachableRun := 0
    distant := 0
    status := .badStats
    selScore := 1
    stratum := 0
    leap := .unsynchronised
    leapVote := false
    selInfo := ⟨0, 0, 0, 0, 0⟩ }

/-- `INT_MAX`. -/
def intMax : ℕ := 2 ^ 31 - 1

/-- The part of `SRC_UpdateReachability` before the selection. -/
def Source.updateReachability (src : Source) (reachable : Bool) : Source :=
  let reachability := (src.reachability * 2 + reachable.toNat) % 2 ^ sourceReachBits
  { src with
    reachability
    reachabilitySize :=
      if src.reachabilitySize < sourceReachBits then src.reachabilitySize + 1
      else src.reachabilitySize
    unreachableRun :=
      if reachability = 0 then
        if src.unreachableRun < intMax then src.unreachableRun + 1 else src.unreachableRun
      else 0 }

/-- `get_leap_status`. -/
def getLeapStatus (sources : List Source) : Leap :=
  let leapVotes := sources.countP (·.leapVote)
  let leapIns := sources.countP fun src => src.leapVote && src.leap = .insertSecond
  let leapDel := sources.countP fun src => src.leapVote && src.leap = .deleteSecond
  if leapIns > leapVotes / 2 then .insertSecond
  else if leapDel > leapVotes / 2 then .deleteSecond
  else .normal

/-- `special_mode_end`. -/
def specialModeEnd (stats : ℕ → Stats) (sources : List Source) : Bool :=
  sources.zipIdx.all fun (src, i) =>
    !src.active || decide (src.reachabilitySize ≥ sourceReachBits - 1) ||
      !decide (sourceReachBits - 1 - src.reachabilitySize + (stats i).nSamples ≥
        minSamplesForRegress)

/-- `find_source`, as a position. -/
def findSource (sources : List Source) (ip : IPAddr) (refId : BitVec 32) : Option ℕ :=
  sources.findIdx? fun src =>
    (ip.family ≠ .unspec && src.type = .ntp && ip.compareIPs src.ipAddr = 0) ||
      (ip.family = .unspec && src.type = .refclock && refId = src.refId)

end Chrony.Sources
