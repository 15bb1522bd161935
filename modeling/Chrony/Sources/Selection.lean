import Chrony.Sources.Table

/-!
# The Selection of Sources

`SRC_SelectSource` and `combine_sources`, pass by pass. The passes of the source which
treat each source on its own are functions of one source; the list `sel_sources` is always
the list of positions whose status is still `SRC_OK`, in the order of the table. A failed
assertion is an error.

The result of a selection is the new table and the call of the reference module it ends
with, if any.
-/

namespace Chrony.Sources

open Lib.IntervalSweep

/-- A standard deviation passed to `REF_SetReference`. The ones of combined sources are
square roots, which are not taken here. -/
inductive Deviation
  | value (x : ℚ)
  | sqrt (x : ℚ)
  | invSqrt (x : ℚ)
  deriving DecidableEq, Repr

/-- The arguments of `REF_SetReference`. The combined sources are listed by their
positions; the source passes their number. -/
structure Reference where
  stratum : ℤ
  leap : Leap
  combined : List ℕ
  refId : BitVec 32
  ipAddr : IPAddr
  refTime : Timespec
  offset : ℚ
  offsetSd : Deviation
  frequency : ℚ
  frequencySd : Deviation
  skew : Deviation
  rootDelay : ℚ
  rootDispersion : ℚ

/-- The calls of the reference module. -/
inductive RefCall
  | setUnsynchronised
  | setReference (ref : Reference)

/-- `SCORE_LIMIT`. -/
def scoreLimit : ℚ := 10

/-- `DISTANT_PENALTY`. -/
def distantPenalty : ℕ := 32

/-! ### Statistics -/

/-- The results of `SST_GetSelectionData`. -/
structure SelectionData where
  info : SelectInfo
  firstSampleAgo : ℚ

/-- `SST_GetSelectionData`. It returns none when nothing is written, and else what is
written and the returned flag. -/
def getSelectionData (maxJitter : ℚ) (stats : Stats) : Option (SelectionData × Bool) :=
  if stats.nSamples = 0 then none
  else
    let data : SelectionData :=
      { info :=
          { stdDev := stats.stdDev
            rootDistance := stats.rootDistance
            loLimit := stats.offset - stats.rootDistance
            hiLimit := stats.offset + stats.rootDistance
            lastSampleAgo := stats.lastSampleAgo }
        firstSampleAgo := stats.firstSampleAgo }
    if stats.regressionOk = false ∧ stats.nSamples < minSamplesForRegress ∧
        stats.nSamples = stats.maxSamples then
      some ({ data with info := { data.info with stdDev := maxJitter } }, true)
    else some (data, stats.regressionOk)

/-- The extra dispersion of sources without new samples. -/
def addExtraDispersion (maxClockError : ℚ) (data : SelectionData) : SelectInfo :=
  let info := data.info
  if data.firstSampleAgo < 2 * info.lastSampleAgo then
    let extraDisp := maxClockError * (2 * info.lastSampleAgo - data.firstSampleAgo)
    { info with
      rootDistance := info.rootDistance + extraDisp
      loLimit := info.loLimit - extraDisp
      hiLimit := info.hiLimit + extraDisp }
  else info

section Select

variable (cfg : Config) (env : Env)

/-! ### Selectable sources -/

/-- The first pass over the sources, for one source. -/
def buildInterval (i : ℕ) (src : Source) : Source :=
  let src := { src with leapVote := false }
  if src.selOptions.noselect then { src with status := .unselectable }
  else
    match getSelectionData cfg.maxJitter (env.stats i) with
    | none => { src with status := .badStats }
    | some (data, false) => { src with selInfo := data.info, status := .badStats }
    | some (data, true) =>
        if src.leap = .unsynchronised then
          { src with selInfo := data.info, status := .unsynchronised }
        else if src.stratum < cfg.minStratum ∨ src.stratum > cfg.maxStratum then
          { src with selInfo := data.info, status := .badStratum }
        else
          let src := { src with selInfo := addExtraDispersion env.maxClockError data }
          if ¬(src.selInfo.rootDistance ≤ cfg.maxDistance ∧
              src.selInfo.loLimit ≤ src.selInfo.hiLimit) then
            { src with status := .badDistance }
          else if src.selInfo.stdDev > cfg.maxJitter then { src with status := .jittery }
          else { src with status := .ok }

/-- `first_sample_ago` of a source in the first pass. -/
def firstSampleAgo (i : ℕ) : ℚ :=
  ((getSelectionData cfg.maxJitter (env.stats i)).map fun r => r.1.firstSampleAgo).getD 0

/-- `max_reach_sample_ago` after the first pass. -/
def maxReachSampleAgo (sources : List Source) : ℚ :=
  sources.zipIdx.foldl
    (fun ago (src, i) =>
      if src.status = .ok ∧ src.reachability ≠ 0 ∧ ago < firstSampleAgo cfg env i then
        firstSampleAgo cfg env i
      else ago) 0

/-- `max_sel_reach` and `max_badstat_reach` after the first pass. -/
def maxReach (status : Status) (sources : List Source) : ℕ :=
  sources.foldl
    (fun reach src =>
      if src.status = status ∧ reach < src.reachability then src.reachability else reach) 0

/-- `max_sel_reach_size` after the first pass. -/
def maxReachSize (sources : List Source) : ℕ :=
  sources.foldl
    (fun size src =>
      if src.status = .ok ∧ size < src.reachabilitySize then src.reachabilitySize else size) 0

/-- The second pass over the sources, for one source. -/
def markStale (ago : ℚ) (src : Source) : Source :=
  if src.status ≠ .ok then src
  else if src.reachability = 0 ∧ (src.selInfo.lastSampleAgo > ago ∨
      src.unreachableRun > src.maxUnreachableRun) then
    { src with status := .stale }
  else if src.stratum ≥ env.orphanStratum ∧ src.type = .ntp then { src with status := .orphan }
  else src

/-- `orphan_source` after the second pass. -/
def orphanSource (sources : List Source) : Option (ℕ × Source) :=
  sources.zipIdx.foldl
    (fun best (src, i) =>
      if src.status = .orphan ∧ src.stratum = env.orphanStratum ∧ src.reachability ≠ 0 ∧
          ∀ b ∈ best, src.refId < b.2.refId then
        some (i, src)
      else best) none

/-- If no source is selectable, the orphan source is considered. The result has the number
of selectable sources. -/
def considerOrphan (sources : List Source) (nSelSources : ℕ) : List Source × ℕ :=
  match orphanSource env sources with
  | none => (sources, nSelSources)
  | some (i, src) =>
      if nSelSources = 0 ∧ env.localRefid i ≠ 0 ∧ src.refId < env.localRefid i then
        (sources.set i { src with status := .ok }, 1)
      else (sources, nSelSources)

/-- The table after the passes which find the selectable sources, and what they count. -/
structure Prepared where
  sources : List Source
  nSelSources : ℕ
  nBadstatsSources : ℕ
  maxSelReach : ℕ
  maxSelReachSize : ℕ
  maxBadstatReach : ℕ

/-- The number of sources whose status is still `SRC_OK`. -/
def countOk (sources : List Source) : ℕ :=
  sources.countP fun src => src.status = .ok

/-- The passes which find the selectable sources. -/
def prepare (sources : List Source) : Prepared :=
  let built := sources.mapIdx (buildInterval cfg env)
  let marked := built.map (markStale env (maxReachSampleAgo cfg env built))
  let (sources, nSelSources) := considerOrphan env marked (countOk marked)
  { sources
    nSelSources
    nBadstatsSources := built.countP fun src => src.status = .badStats
    maxSelReach := maxReach .ok built
    maxSelReachSize := maxReachSize built
    maxBadstatReach := maxReach .badStats built }

/-- The endpoints of the selectable sources. -/
def endpoints (sources : List Source) : List SortElement :=
  sources.zipIdx.flatMap fun (src, i) =>
    if src.status = .ok then
      [⟨i, src.selInfo.loLimit, .low⟩, ⟨i, src.selInfo.hiLimit, .high⟩]
    else []

/-- `mark_ok_sources`. -/
def markOkSources (status : Status) (sources : List Source) : List Source :=
  sources.map fun src => if src.status ≠ .ok then src else { src with status }

/-! ### The best interval -/

/-- The variables of the search for the best interval. -/
structure Sweep where
  depth : ℤ
  trustDepth : ℤ
  bestDepth : ℤ
  bestTrustDepth : ℤ
  bestLo : ℚ
  bestHi : ℚ
  bestTrustLo : ℚ
  bestTrustHi : ℚ
  deriving DecidableEq, Repr

/-- The values before the search. -/
def Sweep.init : Sweep := ⟨0, 0, 0, 0, 0, 0, 0, 0⟩

/-- `sources[index]->sel_options & SRC_SELECT_TRUST`. -/
def trusted (sources : List Source) (i : ℕ) : Bool :=
  sources[i]?.any (·.selOptions.trust)

/-- A low endpoint of the search. -/
def Sweep.visitLow (w : Sweep) (trust : Bool) (offset : ℚ) : Sweep :=
  let w := { w with
    depth := w.depth + 1, trustDepth := if trust then w.trustDepth + 1 else w.trustDepth }
  if w.trustDepth > w.bestTrustDepth ∨
      (w.trustDepth = w.bestTrustDepth ∧ w.depth > w.bestDepth) then
    let w :=
      if w.trustDepth > w.bestTrustDepth then
        { w with bestTrustDepth := w.trustDepth, bestTrustLo := offset }
      else w
    { w with bestDepth := w.depth, bestLo := offset }
  else w

/-- A high endpoint of the search. -/
def Sweep.visitHigh (w : Sweep) (trust : Bool) (offset : ℚ) : Sweep :=
  let w :=
    if w.trustDepth = w.bestTrustDepth then
      { w with
        bestHi := if w.depth = w.bestDepth then offset else w.bestHi
        bestTrustHi := offset }
    else w
  { w with
    trustDepth := if trust then w.trustDepth - 1 else w.trustDepth
    depth := w.depth - 1 }

/-- One iteration of the search. -/
def Sweep.visit (trust : ℕ → Bool) (w : Sweep) (e : SortElement) : Except Assertion Sweep :=
  let w :=
    match e.tag with
    | .low => w.visitLow (trust e.index) e.offset
    | .high => w.visitHigh (trust e.index) e.offset
  if ¬w.trustDepth ≤ w.depth then .error .trustDepthLeDepth
  else if ¬w.trustDepth ≥ 0 then .error .trustDepthNonneg
  else .ok w

/-- The search for the best interval in sorted endpoints. -/
def sweep (sources : List Source) (sorted : List SortElement) : Except Assertion Sweep :=
  sorted.foldlM (Sweep.visit (trusted sources)) .init

/-- The interval of the source contains the best interval, or is contained in it. -/
def Sweep.Agrees (w : Sweep) (info : SelectInfo) : Prop :=
  (info.loLimit ≤ w.bestLo ∧ info.hiLimit ≥ w.bestHi) ∨
    (info.loLimit ≥ w.bestLo ∧ info.hiLimit ≤ w.bestHi)

instance (w : Sweep) (info : SelectInfo) : Decidable (w.Agrees info) :=
  inferInstanceAs (Decidable (_ ∨ _))

/-- The pass which finds falsetickers, for one source. -/
def judge (w : Sweep) (src : Source) : Source :=
  if src.status ≠ .ok then src
  else if w.Agrees src.selInfo then
    if ¬(w.bestTrustDepth = 0 ∨ src.selOptions.trust ∨
        (src.selInfo.loLimit ≥ w.bestTrustLo ∧ src.selInfo.hiLimit ≤ w.bestTrustHi)) then
      { src with status := .untrusted }
    else src
  else { src with status := .falseticker }

/-- `sel_sources`. -/
def selSources (sources : List Source) : List ℕ :=
  (sources.zipIdx.filter fun (src, _) => src.status = .ok).map (·.2)

/-- `sel_req_source`: a source is required, but no source which passes is. -/
def selReqSource (sources : List Source) : Bool :=
  sources.any (·.selOptions.require) &&
    !sources.any fun src => src.status = .ok && src.selOptions.require

/-- The sources which pass get a leap vote, only trusted ones if there are any. -/
def voteLeap (w : Sweep) (src : Source) : Source :=
  if src.status = .ok ∧ (w.bestTrustDepth = 0 ∨ src.selOptions.trust) then
    { src with leapVote := true }
  else src

/-- `sel_prefer`. -/
def selPrefer (sources : List Source) : Bool :=
  sources.any fun src => src.status = .ok && src.selOptions.prefer

/-- The reduction to the preferred sources, for one source. -/
def markNonpreferred (prefer : Bool) (src : Source) : Source :=
  if prefer ∧ src.status = .ok ∧ ¬src.selOptions.prefer then { src with status := .nonpreferred }
  else src

/-! ### Scores -/

/-- `min_sel_stratum`. -/
def minSelStratum (sources : List Source) : ℤ :=
  match sources.filter fun src => src.status = .ok with
  | [] => 0
  | src :: rest =>
      rest.foldl (fun stratum src => if stratum > src.stratum then src.stratum else stratum)
        src.stratum

/-- The distance of a source with the weight of its stratum. -/
def stratumDistance (minStratum : ℤ) (src : Source) : ℚ :=
  src.selInfo.rootDistance + (src.stratum - minStratum) * cfg.stratumWeight

/-- `distance` of a source in the update of scores. -/
def scoreDistance (minStratum : ℤ) (src : Source) : ℚ :=
  stratumDistance cfg minStratum src + if src.type = .ntp then cfg.reselectDistance else 0

/-- The source takes part in the scores. -/
def Scored (prefer : Bool) (src : Source) : Prop :=
  ¬(src.status ≠ .ok ∨ (prefer ∧ ¬src.selOptions.prefer))

instance (prefer : Bool) (src : Source) : Decidable (Scored prefer src) :=
  inferInstanceAs (Decidable (¬_))

/-- The update of the score of one source. The selected source comes with its distance. -/
def updateScore (prefer : Bool) (minStratum : ℤ) (selected : Option (ℕ × ℚ))
    (updated : Option ℕ) (i : ℕ) (src : Source) : Source :=
  if Scored prefer src then
    match selected with
    | some (k, selSrcDistance) =>
        if updated = some i ∨ updated = some k then
          let score := src.selScore * (selSrcDistance / scoreDistance cfg minStratum src)
          { src with selScore := if score < 1 then 1 else score }
        else src
    | none => { src with selScore := 1 / scoreDistance cfg minStratum src }
  else { src with selScore := 1, distant := distantPenalty }

/-- `max_score` and `max_score_index`. -/
def maxScore (prefer : Bool) (sources : List Source) : ℚ × Option ℕ :=
  sources.zipIdx.foldl
    (fun best (src, i) =>
      if Scored prefer src ∧ best.1 < src.selScore then (src.selScore, some i) else best)
    (0, none)

/-! ### Combining -/

/-- The sums of `combine_sources`. -/
structure Sums where
  offsetWeight : ℚ
  offset : ℚ
  offsetSd2 : ℚ
  frequencyWeight : ℚ
  frequency : ℚ
  invFrequencySd2 : ℚ
  invSkew2 : ℚ

/-- The terms of one source are added to the sums. -/
def Sums.add (sums : Sums) (sel : TrackingData) (src : TrackingData) (rootDistance : ℚ) : Sums :=
  let elapsed := sel.refTime.diffToDouble src.refTime
  let srcOffset := src.offset + elapsed * src.frequency
  let srcOffsetSd := src.offsetSd + elapsed * src.frequencySd
  let offsetWeight := 1 / rootDistance
  let frequencyWeight := 1 / src.frequencySd ^ 2
  { offsetWeight := sums.offsetWeight + offsetWeight
    offset := sums.offset + offsetWeight * srcOffset
    offsetSd2 := sums.offsetSd2 + offsetWeight * (srcOffsetSd ^ 2 + (srcOffset - sel.offset) ^ 2)
    frequencyWeight := sums.frequencyWeight + frequencyWeight
    frequency := sums.frequency + frequencyWeight * src.frequency
    invFrequencySd2 := sums.invFrequencySd2 + 1 / src.frequencySd ^ 2
    invSkew2 := sums.invSkew2 + 1 / src.skew ^ 2 }

/-- The source at a position is too far from the selected source, or its frequency is not
close. -/
def Far (selSrcDistance : ℚ) (sel : TrackingData) (i : ℕ) (src : Source) : Prop :=
  src.selInfo.rootDistance > cfg.combineLimit * selSrcDistance ∨
    |sel.frequency - (env.tracking i).frequency| >
      cfg.combineLimit * (sel.skew + (env.tracking i).skew + env.maxClockError)

instance (selSrcDistance : ℚ) (sel : TrackingData) (i : ℕ) (src : Source) :
    Decidable (Far cfg env selSrcDistance sel i src) :=
  inferInstanceAs (Decidable (_ ∨ _))

/-- The number of updates for which a source is not combined. -/
def updateDistant (selected : ℕ) (selSrcDistance : ℚ) (sel : TrackingData) (i : ℕ)
    (src : Source) : Source :=
  if i ≠ selected ∧ Far cfg env selSrcDistance sel i src then
    { src with
      distant := if src.reachabilitySize ≥ sourceReachBits then distantPenalty else 1 }
  else if src.distant ≠ 0 then { src with distant := src.distant - 1 }
  else src

/-- The marking of one source in `combine_sources`, and by the selection when the reference
is not updated. -/
def markCombined (src : Source) : Source :=
  if src.distant ≠ 0 then { src with status := .distant }
  else if src.status = .ok then { src with status := .unselected }
  else src

/-- `combine_sources`. It returns the table and the combined sources with the sums; the
sums are not used when there is a single source. -/
def combineSources (sources : List Source) (selected : ℕ) (selSources : List ℕ) :
    Except Assertion (List Source × List ℕ × Option Sums) :=
  if selSources.length = 1 then .ok (sources, selSources, none)
  else
    match sources[selected]? with
    | none => .error .indexInTable
    | some selSrc =>
        let sel := env.tracking selected
        let selSrcDistance :=
          selSrc.selInfo.rootDistance + if selSrc.type = .ntp then cfg.reselectDistance else 0
        let sources := sources.mapIdx fun i src =>
          if i ∈ selSources then
            markCombined (updateDistant cfg env selected selSrcDistance sel i src)
          else src
        let combined := selSources.filter fun i => sources[i]?.any fun src => src.distant = 0
        let sums := combined.foldl
          (fun sums i => sums.add sel (env.tracking i)
            ((sources[i]?.map fun src => src.selInfo.rootDistance).getD 0))
          ⟨0, 0, 0, 0, 0, 0, 0⟩
        if combined = [] then .error .combined else .ok (sources, combined, some sums)

/-- The arguments of `REF_SetReference`. -/
def makeReference (sources : List Source) (selected : ℕ) (src : Source) (combined : List ℕ)
    (sums : Option Sums) : Reference :=
  let sel := env.tracking selected
  let ref : Reference :=
    { stratum := src.stratum
      leap := getLeapStatus sources
      combined
      refId := src.refId
      ipAddr := src.ipAddr
      refTime := sel.refTime
      offset := sel.offset
      offsetSd := .value sel.offsetSd
      frequency := sel.frequency
      frequencySd := .value sel.frequencySd
      skew := .value sel.skew
      rootDelay := sel.rootDelay
      rootDispersion := sel.rootDispersion }
  match sums with
  | none => ref
  | some sums =>
      { ref with
        offset := sums.offset / sums.offsetWeight
        offsetSd := .sqrt (sums.offsetSd2 / sums.offsetWeight)
        frequency := sums.frequency / sums.frequencyWeight
        frequencySd := .invSqrt sums.invFrequencySd2
        skew := .invSqrt sums.invSkew2 }

/-! ### The selection -/

/-- The end of the selection, with a selected source: the reference is updated if the source
has new samples. -/
def updateReference (sources : List Source) (selected : ℕ) :
    Except Assertion (State × Option RefCall) :=
  let selSources := selSources sources
  match sources[selected]? with
  | none => .error .indexInTable
  | some src =>
      let sources := sources.set selected { src with status := .selected }
      if src.updates = 0 then
        let sources := sources.map fun src => if src.status = .ok then markCombined src else src
        .ok (⟨sources, some selected⟩, none)
      else
        let sources := sources.map fun src => { src with updates := 0 }
        match combineSources cfg env sources selected selSources with
        | .error e => .error e
        | .ok (sources', combined, sums) =>
            .ok (⟨sources', some selected⟩,
              some (.setReference (makeReference env sources selected src combined sums)))

/-- The choice between the source with the best score and the selected source. -/
def chooseSource (prefer : Bool) (sources : List Source) (selected : Option ℕ) :
    Except Assertion (State × Option RefCall) :=
  match maxScore prefer sources with
  | (_, none) => .error .maxScoreIndexValid
  | (score, some best) =>
      let kept := selected.filter fun k =>
        sources[k]?.any (fun src => src.status = .ok) && !(best ≠ k && score > scoreLimit)
      match kept with
      | some k => updateReference cfg env sources k
      | none =>
          if sources[best]?.any fun src => src.updates = 0 then
            .ok (⟨markOkSources .waitsUpdate sources, none⟩, none)
          else
            let sources := sources.map fun src => { src with selScore := 1, distant := 0 }
            updateReference cfg env sources best

/-- `sel_src_distance`, with the position of the selected source. -/
def selectedDistance (minStratum : ℤ) (sources : List Source) (selected : Option ℕ) :
    Except Assertion (Option (ℕ × ℚ)) :=
  match selected with
  | none => .ok none
  | some k =>
      match sources[k]? with
      | none => .error .indexInTable
      | some src => .ok (some (k, stratumDistance cfg minStratum src))

/-- The scores are updated for the sources left in the list. -/
def scoreSources (prefer : Bool) (sources : List Source) (selected updated : Option ℕ) :
    Except Assertion (State × Option RefCall) :=
  let minStratum := minSelStratum sources
  match selectedDistance cfg minStratum sources selected with
  | .error e => .error e
  | .ok sel =>
      let sources := sources.mapIdx (updateScore cfg prefer minStratum sel updated)
      chooseSource cfg env prefer sources selected

/-- The selection among the sources which pass the search. -/
def selectPassing (w : Sweep) (sources : List Source) (selected updated : Option ℕ) :
    Except Assertion (State × Option RefCall) :=
  if countOk sources = 0 ∨ selReqSource sources ∨ countOk sources < cfg.minSources then
    .ok (⟨markOkSources .waitsSources sources, none⟩, none)
  else
    let sources := sources.map (voteLeap w)
    let prefer := selPrefer sources
    let sources := sources.map (markNonpreferred prefer)
    if prefer ∧ countOk sources = 0 then .error .preferredFound
    else scoreSources cfg env prefer sources selected updated

/-- Not even a half of the selectable sources agrees, or of the trusted ones if there are
any. -/
def Sweep.NoMajority (w : Sweep) (sources : List Source) (nSelSources : ℕ) : Prop :=
  (if w.bestTrustDepth > 0 then w.bestTrustDepth else w.bestDepth) ≤
    (((if w.bestTrustDepth > 0 then
      sources.countP fun src => src.status = .ok && src.selOptions.trust
      else nSelSources) / 2 : ℕ) : ℤ)

instance (w : Sweep) (sources : List Source) (nSelSources : ℕ) :
    Decidable (w.NoMajority sources nSelSources) :=
  inferInstanceAs (Decidable (_ ≤ _))

/-- The search and what follows, with selectable sources. -/
def selectAgreeing (p : Prepared) (selected updated : Option ℕ) :
    Except Assertion (State × Option RefCall) :=
  match sweep p.sources (env.qsort.sort (endpoints p.sources)) with
  | .error e => .error e
  | .ok w =>
      if ¬(w.depth = 0 ∧ w.trustDepth = 0) then .error .depthZero
      else if ¬2 * p.nSelSources = (endpoints p.sources).length then .error .endpointCount
      else if w.NoMajority p.sources p.nSelSources then
        .ok (⟨markOkSources .falseticker p.sources, none⟩,
          if selected.isSome then some .setUnsynchronised else none)
      else selectPassing cfg env w (p.sources.map (judge w)) selected updated

/-- The source is waited for: it has no valid statistics yet, and its reachability is the
one of the other sources without the last update. -/
def Prepared.waitsStats (p : Prepared) (selected : Option ℕ) : Bool :=
  p.nBadstatsSources ≠ 0 && p.nSelSources ≠ 0 && selected.isNone &&
    p.maxSelReachSize < sourceReachBits && p.maxSelReach / 2 = p.maxBadstatReach

/-- The source with a new sample counts its updates. -/
def countUpdate (sources : List Source) (updated : Option ℕ) : List Source :=
  match updated with
  | none => sources
  | some i => sources.modify i fun src => { src with updates := src.updates + 1 }

/-- `SRC_SelectSource`. -/
def selectSource (s : State) (updated : Option ℕ) : Except Assertion (State × Option RefCall) :=
  let sources := countUpdate s.sources updated
  if sources = [] then .ok (⟨sources, none⟩, none)
  else if sources.any fun src => src.status = .ok then .error .statusNotOk
  else
    let p := prepare cfg env sources
    if p.waitsStats s.selected then .ok (⟨markOkSources .waitsStats p.sources, none⟩, none)
    else if endpoints p.sources = [] then .ok (⟨p.sources, none⟩, none)
    else selectAgreeing cfg env p s.selected updated

end Select

end Chrony.Sources
