import Chrony.Regress.BestRegression
import Chrony.Regress.Median
import Chrony.Timespec

/-!
# The Sample Register of a Source

The data model of `sourcestats.c` and the operations which change it. Real numbers and times
are rational numbers here, with exact arithmetic, and `DBL_MAX` is above all of them. An
array is a function of the slot. The last of the samples are kept in two sets of arrays of
different lengths: the longer ones also keep samples that are not used for the regression
any more, but extend its runs test.

Loading from a file also accepts numbers which are not finite. They are `none` here; only
`orig_offsets` may get them.
-/

namespace Chrony.SourceStats

open Chrony.Regress

/-- `MAX_SAMPLES`, the length of the shorter arrays. -/
def bufSize : ℕ := 64

/-- The length of the longer arrays, `MAX_SAMPLES * REGRESS_RUNS_RATIO`. -/
def runsBufSize : ℕ := bufSize * regressRunsRatio

/-- `WORST_CASE_FREQ_BOUND`. -/
def worstCaseFreqBound : ℚ := 2000 / 10 ^ 6

/-- `MIN_SKEW`. -/
def minSkew : ℚ := 1 / 10 ^ 12

/-- `MAX_SKEW`. -/
def maxSkew : ℚ := 1

/-- `MIN_STDDEV`. -/
def minStddev : ℚ := 1 / 10 ^ 9

/-- `WORST_CASE_STDDEV_BOUND`. -/
def worstCaseStddevBound : ℚ := 4

/-- `MAX_ASYMMETRY`. -/
def maxAsymmetry : ℚ := 1 / 2

/-- `MIN_ASYMMETRY`. -/
def minAsymmetry : ℚ := 45 / 100

/-- `MIN_ASYMMETRY_RUN`. -/
def minAsymmetryRun : ℤ := 10

/-- `MAX_ASYMMETRY_RUN`. -/
def maxAsymmetryRun : ℤ := 1000

/-- `SD_TO_DIST_RATIO`. -/
def sdToDistRatio : ℚ := 7 / 10

/-- `CLAMP`. -/
def clamp {α : Type} [Max α] [Min α] (lo x hi : α) : α :=
  max lo (min x hi)

theorem clamp_mem {α : Type} [LinearOrder α] {lo x hi : α} (h : lo ≤ hi) :
    lo ≤ clamp lo x hi ∧ clamp lo x hi ≤ hi :=
  ⟨le_max_left _ _, max_le h (min_le_right _ _)⟩

/-- `NTP_Sample`. -/
structure NtpSample where
  time : ℚ
  offset : ℚ
  peerDelay : ℚ
  peerDispersion : ℚ
  rootDelay : ℚ
  rootDispersion : ℚ

/-- `struct SST_Stats_Record`, without the identification of the source. -/
structure Stats where
  minSamples : ℕ
  maxSamples : ℕ
  fixedMinDelay : ℚ
  fixedAsymmetry : ℚ
  nSamples : ℕ
  runsSamples : ℕ
  lastSample : ℕ
  regressionOk : Bool
  bestSingleSample : ℕ
  minDelaySample : ℕ
  estimatedOffset : ℚ
  estimatedOffsetSd : ℚ
  offsetTime : ℚ
  nruns : ℕ
  asymmetryRun : ℤ
  asymmetry : ℚ
  estimatedFrequency : ℚ
  estimatedFrequencySd : ℚ
  skew : ℚ
  stdDev : ℚ
  sampleTimes : ℕ → ℚ
  offsets : ℕ → ℚ
  origOffsets : ℕ → Option ℚ
  peerDelays : ℕ → ℚ
  peerDispersions : ℕ → ℚ
  rootDelays : ℕ → ℚ
  rootDispersions : ℕ → ℚ

/-- What the module takes from elsewhere: the square root, the precision of the clock, the
order in which `RGR_FindMedian` makes its calls, and the time range of the system. -/
structure Env where
  sqrt : ℚ → ℚ
  precision : ℚ
  leftFirst : Bool
  longTimeT : Bool
  ntpEraSplit : ℤ

/-- The assertions of the functions which are modelled here, and a median which is not found. -/
inductive Abort
  | newOldest
  | registerSize
  | elapsed
  | bestIndex
  | median
  deriving DecidableEq, Repr

/-! ### Indices -/

/-- `get_runsbuf_index`. -/
def Stats.getRunsbufIndex (s : Stats) (i : ℤ) : ℕ :=
  (((s.lastSample : ℤ) + 2 * runsBufSize - s.nSamples + i + 1) % 2 ^ 32).toNat % runsBufSize

/-- `get_buf_index`. -/
def Stats.getBufIndex (s : Stats) (i : ℤ) : ℕ :=
  (((s.lastSample : ℤ) + runsBufSize - s.nSamples + i + 1) % 2 ^ 32).toNat % bufSize

/-! ### Creation and reset -/

/-- `SST_ResetInstance`. -/
def Stats.resetInstance (s : Stats) : Stats :=
  { s with
    nSamples := 0
    runsSamples := 0
    lastSample := 0
    regressionOk := false
    bestSingleSample := 0
    minDelaySample := 0
    estimatedFrequency := 0
    estimatedFrequencySd := worstCaseFreqBound
    skew := worstCaseFreqBound
    estimatedOffset := 0
    estimatedOffsetSd := worstCaseStddevBound
    offsetTime := 0
    stdDev := worstCaseStddevBound
    nruns := 0
    asymmetryRun := 0
    asymmetry := 0 }

/-- `SST_CreateInstance`, with the contents of the memory that was allocated. -/
def createInstance (memory : Stats) (minSamples maxSamples : ℤ) (minDelay asymmetry : ℚ) : Stats :=
  let max : ℤ := if maxSamples > 0 then clamp 1 maxSamples bufSize else bufSize
  Stats.resetInstance
    { memory with
      maxSamples := max.toNat
      minSamples := (clamp 1 minSamples max).toNat
      fixedMinDelay := minDelay
      fixedAsymmetry := asymmetry }

/-! ### New samples -/

/-- The loop of `find_min_delay_sample`, over the last `k` samples. -/
def Stats.minDelayLoop (s : Stats) : ℕ → ℕ → ℕ
  | 0, best => best
  | k + 1, best =>
      let index := s.getRunsbufIndex (s.nSamples - (k + 1))
      s.minDelayLoop k (if s.peerDelays index < s.peerDelays best then index else best)

/-- `find_min_delay_sample`. -/
def Stats.findMinDelaySample (s : Stats) : Stats :=
  { s with
    minDelaySample :=
      s.minDelayLoop (s.nSamples + s.runsSamples - 1) (s.getRunsbufIndex (-s.runsSamples)) }

/-- `prune_register`. -/
def Stats.pruneRegister (s : Stats) (newOldest : ℕ) : Except Abort Stats :=
  if newOldest = 0 then .ok s
  else if ¬s.nSamples ≥ newOldest then .error .newOldest
  else
    let nSamples := s.nSamples - newOldest
    let runsSamples := s.runsSamples + newOldest
    let runsSamples :=
      if runsSamples > nSamples * (regressRunsRatio - 1) then nSamples * (regressRunsRatio - 1)
      else runsSamples
    if ¬nSamples + runsSamples ≤ runsBufSize then .error .registerSize
    else .ok { s with nSamples, runsSamples }.findMinDelaySample

/-- The part of `SST_AccumulateSample` that makes room for the new sample. -/
def Stats.makeRoom (s : Stats) : Except Abort Stats :=
  if s.nSamples > 0 ∧ (s.nSamples = bufSize ∨ s.nSamples = s.maxSamples) then
    s.pruneRegister 1
  else .ok s

/-- The check of `SST_AccumulateSample` whether the sample is not newer than the last one. -/
def Stats.OutOfOrder (s : Stats) (sample : NtpSample) : Prop :=
  s.nSamples ≠ 0 ∧ s.sampleTimes s.lastSample ≥ sample.time

instance (s : Stats) (sample : NtpSample) : Decidable (s.OutOfOrder sample) :=
  inferInstanceAs (Decidable (_ ∧ _))

/-- The peer delay that is stored. -/
def Stats.storedDelay (s : Stats) (peerDelay : ℚ) : ℚ :=
  if peerDelay < s.fixedMinDelay then 2 * s.fixedMinDelay - peerDelay else peerDelay

/-- The part of `SST_AccumulateSample` that stores the sample. -/
def Stats.storeSample (s : Stats) (sample : NtpSample) : Stats :=
  let n := (s.lastSample + 1) % runsBufSize
  let m := n % bufSize
  let peerDelays := Function.update s.peerDelays n (s.storedDelay sample.peerDelay)
  { s with
    lastSample := n
    sampleTimes := Function.update s.sampleTimes n sample.time
    offsets := Function.update s.offsets n (-sample.offset)
    origOffsets := Function.update s.origOffsets m (some (-sample.offset))
    peerDelays
    peerDispersions := Function.update s.peerDispersions m sample.peerDispersion
    rootDelays := Function.update s.rootDelays m sample.rootDelay
    rootDispersions := Function.update s.rootDispersions m sample.rootDispersion
    minDelaySample :=
      if s.nSamples = 0 ∨ peerDelays n < peerDelays s.minDelaySample then n else s.minDelaySample
    nSamples := s.nSamples + 1 }

/-- `SST_AccumulateSample`. -/
def Stats.accumulateSample (s : Stats) (sample : NtpSample) : Except Abort Stats := do
  let s ← s.makeRoom
  let s := if s.OutOfOrder sample then s.resetInstance else s
  .ok (s.storeSample sample)

/-! ### The regression -/

/-- The array `times_back` of `convert_to_intervals`, from the oldest sample on. -/
def Stats.timesBack (s : Stats) (k : ℕ) : ℚ :=
  s.sampleTimes (s.getRunsbufIndex (k - s.runsSamples)) - s.sampleTimes s.lastSample

/-- The root distance of a sample in `find_best_sample_index`. -/
def Stats.rootDistance (s : Stats) (i : ℕ) (elapsed : ℚ) : ℚ :=
  let j := s.getBufIndex i
  s.rootDispersions j + elapsed * s.skew + 1 / 2 * s.rootDelays j

/-- One turn of the loop of `find_best_sample_index`. The best index comes with its
distance. -/
def Stats.betterSample (s : Stats) (timesBack : ℕ → ℚ) (best : Option (ℕ × ℚ)) (i : ℕ) :
    Except Abort (Option (ℕ × ℚ)) :=
  let elapsed := -timesBack i
  if ¬elapsed ≥ 0 then .error .elapsed
  else
    let distance := s.rootDistance i elapsed
    if best.all fun b => distance < b.2 then .ok (some (i, distance)) else .ok best

/-- `find_best_sample_index`. -/
def Stats.findBestSampleIndex (s : Stats) (timesBack : ℕ → ℚ) : Except Abort Stats :=
  if s.nSamples = 0 then .ok s
  else do
    let best ← (List.range s.nSamples).foldlM (s.betterSample timesBack) none
    match best with
    | none => .error .bestIndex
    | some (i, _) => .ok { s with bestSingleSample := i }

/-- `SST_MinRoundTripDelay`, with samples. -/
def Stats.minRoundTripDelay (s : Stats) : ℚ :=
  if s.fixedMinDelay > 0 then s.fixedMinDelay else s.peerDelays s.minDelaySample

/-- `estimate_asymmetry`. It returns the flag, and the new asymmetry and counter. -/
def estimateAsymmetry (timesBack offsets delays : ℕ → ℚ) (n : ℕ) (asymmetry : ℚ)
    (asymmetryRun : ℤ) : Bool × ℚ × ℤ :=
  match multipleRegress timesBack delays offsets n with
  | none => (false, 0, 0)
  | some a =>
      if a * asymmetryRun < 0 then (false, 0, 0)
      else
        let asymmetryRun :=
          if a ≤ -minAsymmetry ∧ asymmetryRun > -maxAsymmetryRun then asymmetryRun - 1
          else if a ≥ minAsymmetry ∧ asymmetryRun < maxAsymmetryRun then asymmetryRun + 1
          else asymmetryRun
        if |asymmetryRun| < minAsymmetryRun then (false, asymmetry, asymmetryRun)
        else (true, clamp (-maxAsymmetry) a maxAsymmetry, asymmetryRun)

/-- `correct_asymmetry`. It returns the corrected offsets. -/
def Stats.correctAsymmetry (s : Stats) (timesBack offsets : ℕ → ℚ) : Stats × (ℕ → ℚ) :=
  if s.fixedAsymmetry = 0 then (s, offsets)
  else
    let n := s.runsSamples + s.nSamples
    let delays (i : ℕ) : ℚ :=
      s.peerDelays (s.getRunsbufIndex (i - s.runsSamples)) - s.minRoundTripDelay
    let corrected (asymmetry : ℚ) (i : ℕ) : ℚ :=
      if i < n then offsets i - asymmetry * delays i else offsets i
    if |s.fixedAsymmetry| ≤ maxAsymmetry then
      ({ s with asymmetry := s.fixedAsymmetry }, corrected s.fixedAsymmetry)
    else
      let (ok, asymmetry, asymmetryRun) :=
        estimateAsymmetry timesBack offsets delays n s.asymmetry s.asymmetryRun
      let s := { s with asymmetry, asymmetryRun }
      if ok then (s, corrected asymmetry) else (s, offsets)

/-- `peer_distances`. -/
def Stats.peerDistances (s : Stats) (i : ℕ) : ℚ :=
  1 / 2 * s.peerDelays (s.getRunsbufIndex i) + s.peerDispersions (s.getBufIndex i)

/-- `weights`, with the median distance. -/
def Stats.weights (s : Stats) (precision medianDistance : ℚ) (i : ℕ) : ℚ :=
  let minDistance := (List.range s.nSamples).foldl
    (fun d i => min d (s.peerDistances i)) (s.peerDistances 0)
  let sd := clamp precision ((medianDistance - minDistance) / sdToDistRatio) minDistance
  let minDistance := minDistance + precision
  let sdWeight : ℚ :=
    if s.peerDistances i > minDistance then 1 + (s.peerDistances i - minDistance) / sd else 1
  sdWeight ^ 2

/-- The new estimates after a successful regression. -/
def Stats.setEstimates (s : Stats) (env : Env) (r : Regression) : Stats :=
  { s with
    regressionOk := true
    estimatedFrequency := r.b1
    estimatedFrequencySd := clamp minSkew r.sb1 maxSkew
    skew := clamp minSkew (r.sb1 * getTCoef r.dof) maxSkew
    estimatedOffset := r.b0
    offsetTime := s.sampleTimes s.lastSample
    estimatedOffsetSd := r.sb0
    stdDev := max minStddev (env.sqrt r.s2)
    nruns := r.nRuns }

/-- The estimates without a successful regression. -/
def Stats.resetEstimates (s : Stats) : Stats :=
  { s with
    regressionOk := false
    estimatedFrequencySd := worstCaseFreqBound
    skew := worstCaseFreqBound
    estimatedOffsetSd := worstCaseStddevBound
    stdDev := worstCaseStddevBound
    nruns := 0
    estimatedOffset := if s.nSamples > 0 then s.offsets s.lastSample else 0
    offsetTime := if s.nSamples > 0 then s.sampleTimes s.lastSample else 0 }

/-- An array without its first elements. -/
def fromIndex (a : ℕ → ℚ) (start : ℕ) (i : ℤ) : ℚ :=
  a (start + i).toNat

/-- The part of `SST_DoNewRegression` that prepares the data: the weights, and the offsets
with the correction of the asymmetry. -/
def Stats.prepareRegression (s : Stats) (env : Env) : Except Abort (Stats × (ℕ → ℚ) × (ℕ → ℚ)) :=
  let offsets (k : ℕ) : ℚ := s.offsets (s.getRunsbufIndex (k - s.runsSamples))
  if s.nSamples > 0 then
    match rgrFindMedian s.nSamples maxPoints env.leftFirst s.peerDistances with
    | none => .error .median
    | some medianDistance =>
        let (s', offsets) := s.correctAsymmetry s.timesBack offsets
        .ok (s', offsets, s.weights env.precision medianDistance)
  else .ok (s, offsets, fun _ => 0)

/-- `SST_DoNewRegression`. -/
def Stats.doNewRegression (s : Stats) (env : Env) : Except Abort Stats := do
  let timesBack := s.timesBack
  let (s, offsets, weights) ← s.prepareRegression env
  match findBestRegression env.sqrt (fromIndex timesBack s.runsSamples)
      (fromIndex offsets s.runsSamples) (fromIndex weights 0) s.nSamples s.runsSamples
      s.minSamples with
  | some r => do
      let timesBackStart := s.runsSamples + r.newStart
      let s ← (s.setEstimates env r).pruneRegister r.newStart
      s.findBestSampleIndex fun i => timesBack (timesBackStart + i)
  | none => s.resetEstimates.findBestSampleIndex timesBack

/-! ### Corrections of the clock -/

/-- The slots of the longer arrays that are in use, from the oldest sample on. -/
def Stats.runsSlots (s : Stats) : List ℕ :=
  (List.range (s.runsSamples + s.nSamples)).map fun k : ℕ =>
    s.getRunsbufIndex ((k : ℤ) - s.runsSamples)

/-- The correction of a time by `UTI_AdjustTimespec`. -/
def deltaTime (time cooked dfreq doffset : ℚ) : ℚ :=
  (cooked - time) * dfreq - doffset

/-- One turn of the loop of `SST_SlewSamples`, on the times and the offsets. -/
def slewSample (cooked dfreq doffset : ℚ) (arrays : (ℕ → ℚ) × (ℕ → ℚ)) (i : ℕ) :
    (ℕ → ℚ) × (ℕ → ℚ) :=
  let delta := deltaTime (arrays.1 i) cooked dfreq doffset
  (Function.update arrays.1 i (arrays.1 i + delta),
    Function.update arrays.2 i (arrays.2 i + delta))

/-- `SST_SlewSamples`. -/
def Stats.slewSamples (s : Stats) (cooked dfreq doffset : ℚ) : Stats :=
  if s.nSamples = 0 then s
  else
    let (sampleTimes, offsets) :=
      s.runsSlots.foldl (slewSample cooked dfreq doffset) (s.sampleTimes, s.offsets)
    let delta := deltaTime s.offsetTime cooked dfreq doffset
    { s with
      sampleTimes
      offsets
      offsetTime := s.offsetTime + delta
      estimatedOffset := s.estimatedOffset + delta
      estimatedFrequency := (s.estimatedFrequency - dfreq) / (1 - dfreq) }

/-- `SST_CorrectOffset`. -/
def Stats.correctOffset (s : Stats) (doffset : ℚ) : Stats :=
  if s.nSamples = 0 then s
  else
    { s with
      offsets := s.runsSlots.foldl (fun a i => Function.update a i (a i + doffset)) s.offsets
      estimatedOffset := s.estimatedOffset + doffset }

/-- `SST_AddDispersion`. -/
def Stats.addDispersion (s : Stats) (dispersion : ℚ) : Stats :=
  let slots := (List.range s.nSamples).map fun i : ℕ => s.getBufIndex i
  let add (a : ℕ → ℚ) : ℕ → ℚ :=
    slots.foldl (fun a i => Function.update a i (a i + dispersion)) a
  { s with rootDispersions := add s.rootDispersions, peerDispersions := add s.peerDispersions }

/-! ### Files -/

/-- What `sscanf` finds in the lines of a file: the two numbers of the first line, and the
numbers of the other lines, up to seven of them. A number which is not finite is `none`. The
time is that of the clock when the file is loaded. -/
structure File where
  header : Option (ℤ × ℤ)
  lines : ℕ → Option (List (Option ℚ))
  now : ℚ

/-- `UTI_IsTimeOffsetSane`. -/
def isTimeOffsetSane (env : Env) (ts offset : ℚ) : Bool :=
  let t := ts + offset
  offset > -2 ^ 32 ∧ offset < 2 ^ 32 ∧ 0 ≤ t ∧
    if env.longTimeT then env.ntpEraSplit ≤ t ∧ t ≤ env.ntpEraSplit + 2 ^ 32
    else t ≤ 0x7fffffff - 365 * 24 * 3600

/-- `UTI_DoubleToTimespec`. -/
def doubleToTimespec (d : ℚ) : ℚ :=
  let sec := Timespec.trunc d
  sec + Timespec.trunc (10 ^ 9 * (d - sec)) / 10 ^ 9

/-- A number of a line is written to a slot. One that is not finite is refused by a check
that follows, and is not written. -/
def writeNumber (a : ℕ → ℚ) (i : ℕ) (x : Option (Option ℚ)) : ℕ → ℚ :=
  match x with
  | some (some q) => Function.update a i q
  | _ => a

/-- What `sscanf` writes for a line of `SST_LoadFromFile`. -/
def Stats.scanLine (s : Stats) (i : ℕ) (numbers : List (Option ℚ)) : Stats :=
  { s with
    offsets := writeNumber s.offsets i numbers[1]?
    origOffsets :=
      match numbers[2]? with
      | some x => Function.update s.origOffsets i x
      | none => s.origOffsets
    peerDelays := writeNumber s.peerDelays i numbers[3]?
    peerDispersions := writeNumber s.peerDispersions i numbers[4]?
    rootDelays := writeNumber s.rootDelays i numbers[5]?
    rootDispersions := writeNumber s.rootDispersions i numbers[6]? }

/-- The last check of a line of `SST_LoadFromFile`. The offset and the delays of the line are
finite. -/
def Stats.SaneSample (s : Stats) (env : Env) (now : ℚ) (i : ℕ) : Prop :=
  isTimeOffsetSane env (s.sampleTimes i) (-s.offsets i) ∧ s.sampleTimes i ≤ now ∧
    (|s.peerDelays i| < 10 ^ 6 ∧ |s.peerDispersions i| < 10 ^ 6 ∧ |s.rootDelays i| < 10 ^ 6 ∧
      |s.rootDispersions i| < 10 ^ 6) ∧
    (i > 0 → s.sampleTimes i > s.sampleTimes (i - 1))

instance (s : Stats) (env : Env) (now : ℚ) (i : ℕ) : Decidable (s.SaneSample env now i) :=
  inferInstanceAs (Decidable (_ ∧ _))

/-- One turn of the loop of `SST_LoadFromFile`, with the returned flag. -/
def Stats.loadLine (s : Stats) (env : Env) (file : File) (i : ℕ) : Bool × Stats :=
  match file.lines i with
  | none => (false, s)
  | some numbers =>
      let s := s.scanLine i numbers
      match numbers with
      | [some time, some _, _, some _, some _, some _, some _] =>
          if ¬isTimeOffsetSane env file.now (time - file.now) then (false, s)
          else
            let s := { s with
              sampleTimes := Function.update s.sampleTimes i (doubleToTimespec time) }
            if ¬s.SaneSample env file.now i then (false, s) else (true, s)
      | _ => (false, s)

/-- The loop of `SST_LoadFromFile`, over `count` lines. -/
def Stats.loadLines (s : Stats) (env : Env) (file : File) : ℕ → ℕ → Bool × Stats
  | 0, _ => (true, s)
  | count + 1, i =>
      match s.loadLine env file i with
      | (true, s) => s.loadLines env file count (i + 1)
      | (false, s) => (false, s)

/-- `SST_LoadFromFile`. -/
def Stats.loadFromFile (s : Stats) (env : Env) (file : File) : Except Abort (Bool × Stats) :=
  match file.header with
  | none => .ok (false, s)
  | some (nSamples, arun) =>
      if nSamples < 1 ∨ nSamples > bufSize then .ok (false, s)
      else
        match s.resetInstance.loadLines env file nSamples.toNat 0 with
        | (false, s) => .ok (false, s)
        | (true, s) => do
            let s := { s with
              nSamples := nSamples.toNat
              lastSample := nSamples.toNat - 1
              asymmetryRun := clamp (-maxAsymmetryRun) arun maxAsymmetryRun }
            let s ← s.findMinDelaySample.doNewRegression env
            .ok (true, s)

/-- A sample as it is stored, or written to a file. -/
structure Entry where
  time : ℚ
  offset : ℚ
  origOffset : Option ℚ
  peerDelay : ℚ
  peerDispersion : ℚ
  rootDelay : ℚ
  rootDispersion : ℚ

/-- The sample which is in a slot of the longer arrays and one of the shorter arrays. -/
def Stats.entryAt (s : Stats) (i j : ℕ) : Entry where
  time := s.sampleTimes i
  offset := s.offsets i
  origOffset := s.origOffsets j
  peerDelay := s.peerDelays i
  peerDispersion := s.peerDispersions j
  rootDelay := s.rootDelays j
  rootDispersion := s.rootDispersions j

/-- `SST_SaveToFile`: what is written, if there are samples. -/
def Stats.saveToFile (s : Stats) : Option (ℕ × ℤ × List Entry) :=
  if s.nSamples < 1 then none
  else
    some (s.nSamples, s.asymmetryRun, (List.range s.nSamples).map fun m : ℕ =>
      s.entryAt (s.getRunsbufIndex m) (s.getBufIndex m))

end Chrony.SourceStats
