import Chrony.Lib.CyclePlacement
import Chrony.Regress.BestRegression
import Chrony.Timespec
import Mathlib.Data.List.Sort

/-!
# Sample Filter

The functions of `samplefilt.c`. A filter keeps samples in an array, which is used as a ring
buffer when it is full. The samples closest to the median offset are selected and combined into
one sample. The array of the selected indices is ordered by time in place.

An instance is the record of the source without its temporary arrays. What is stored in the
array of the samples before it is written is arbitrary. Real numbers are exact, and the square
root is a parameter. Functions which can abort, or do not end, return an option.
-/

namespace Chrony.SampleFilt

open Lib.CyclePlacement

/-- `NTP_Sample`. -/
structure Sample where
  time : Timespec
  offset : ℚ
  peerDelay : ℚ
  peerDispersion : ℚ
  rootDelay : ℚ
  rootDispersion : ℚ
  deriving DecidableEq, Inhabited

/-- `struct SPF_Instance_Record`. -/
structure Instance where
  minSamples : ℕ
  maxSamples : ℕ
  index : ℤ
  used : ℕ
  last : ℤ
  avgVarN : ℕ
  avgVar : ℚ
  maxVar : ℚ
  combineRatio : ℚ
  samples : ℕ → Sample

/-- `compare_samples`. -/
def compareSamples (samples : ℕ → Sample) (a b : ℕ) : ℤ :=
  if (samples a).offset < (samples b).offset then -1
  else if (samples a).offset > (samples b).offset then 1
  else 0

/-- `qsort` with `compare_samples`: the order of equal elements is not specified. -/
structure Qsort where
  sort : (ℕ → Sample) → List ℕ → List ℕ
  perm : ∀ samples l, (sort samples l).Perm l
  sorted : ∀ samples l, (sort samples l).Pairwise fun a b => compareSamples samples a b ≤ 0

/-- The functions used by a filter, and a bound on the number of turns of its inner loop. -/
structure Env where
  qsort : Qsort
  sqrt : ℚ → ℚ
  fuel : ℕ

/-- `MIN_SAMPLES`. -/
def minSamplesLimit : ℤ := 1

/-- `MAX_SAMPLES`. -/
def maxSamplesLimit : ℤ := 256

/-- `SPF_CreateInstance`, with the result of `LCL_GetSysPrecisionAsQuantum` and what is in the
allocated array. -/
def createInstance (minSamples maxSamples : ℤ) (maxDispersion combineRatio precision : ℚ)
    (samples : ℕ → Sample) : Instance :=
  let minSamples := max minSamplesLimit (min minSamples maxSamplesLimit)
  let maxSamples := max minSamplesLimit (min maxSamples maxSamplesLimit)
  { minSamples := minSamples.toNat
    maxSamples := (max minSamples maxSamples).toNat
    index := -1
    used := 0
    last := -1
    avgVarN := 0
    avgVar := precision * precision
    maxVar := maxDispersion * maxDispersion
    combineRatio := max 0 (min combineRatio 1)
    samples }

/-- `check_sample`. -/
def checkSample (f : Instance) (sample : Sample) : Bool :=
  if f.used ≤ 0 then true
  else decide ((f.samples f.last.toNat).time.compare sample.time < 0)

/-- `SPF_AccumulateSample`. -/
def accumulateSample (f : Instance) (sample : Sample) : Instance × Bool :=
  if checkSample f sample then
    let index := (f.index + 1).tmod f.maxSamples
    ({ f with
        index
        last := index
        used := if f.used < f.maxSamples then f.used + 1 else f.used
        samples := Function.update f.samples index.toNat sample }, true)
  else (f, false)

/-- `drop_samples`. -/
def dropSamples (f : Instance) (keepLast : Bool) : Instance :=
  { f with index := -1, used := 0, last := if keepLast then f.last else -1 }

section Select

/-- The minimum dispersion of the samples. -/
def minDispersion (f : Instance) : ℚ :=
  (List.range' 1 (f.used - 1)).foldl
    (fun d i => if d > (f.samples i).peerDispersion then (f.samples i).peerDispersion else d)
    (f.samples 0).peerDispersion

/-- The first part of `select_samples`: the indices of the samples with a small dispersion, or
of all samples if there are not enough of them. -/
def candidates (f : Instance) : List ℕ :=
  let selected :=
    if f.used > 4 then
      (List.range f.used).filter fun i => (f.samples i).peerDispersion ≤ 3 / 2 * minDispersion f
    else []
  if selected.length < 4 then List.range f.used else selected

/-- `from`: the number of the sorted samples which are discarded at each end. -/
def discarded (combineRatio : ℚ) (j : ℕ) : ℕ :=
  if j > 2 then
    (max 1 (min (Timespec.trunc (j * (1 - combineRatio) / 2)) ((j - 1) / 2 : ℤ))).toNat
  else 0

/-- `o`: the distance of the oldest sample from the end of the used part of the array. -/
def rotation (f : Instance) : ℤ :=
  f.used - f.index - 1

/-- The array with the positions of the selected samples in the order of time, where the other
samples are marked as unused. -/
def markUnused (f : Instance) (sorted : List ℕ) (i : ℕ) : Option ℕ :=
  let first := discarded f.combineRatio sorted.length
  if first ≤ i ∧ i < sorted.length - first then
    sorted[i]?.map fun (s : ℕ) => ((s + rotation f).tmod f.used).toNat
  else none

/-- `select_samples`, which returns the selected indices. -/
def selectSamples (env : Env) (f : Instance) : Option (List ℕ) :=
  if f.used < f.minSamples then some []
  else do
    let sorted := env.qsort.sort f.samples (candidates f)
    let first := discarded f.combineRatio sorted.length
    let placed ← placeFrom f.used env.fuel (sorted.length - first - first) first
      (markUnused f sorted)
    let (selected, j) := compactFrom
      (fun p => ((p + f.used - rotation f).tmod f.used).toNat) f.used 0 0 placed
    if j > 0 ∧ j ≤ f.maxSamples then some ((List.range j).filterMap selected) else none

end Select

section Combine

/-- The statistics of the selected samples: the variance, the dispersion and the degrees of
freedom. -/
structure Spread where
  var : ℚ
  disp : ℚ
  dof : ℕ

/-- The estimate of `combine_selected_samples` for the points `x` and `y` with weights, with the
mean values. -/
def estimateSpread (env : Env) (f : Instance) (n : ℕ) (x y w : ℕ → ℚ) (meanX meanY : ℚ) :
    Option Spread :=
  if n ≥ 4 then do
    let r ← Regress.weightedRegression env.sqrt (fun i => x i.toNat - meanX)
      (fun i => y i.toNat) (fun i => w i.toNat) n
    some ⟨r.s2, r.sb0, n - 2⟩
  else if n ≥ 2 then
    let var := ((List.range n).map fun i => (y i - meanY) * (y i - meanY)).sum / (n - 1 : ℚ)
    some ⟨var, env.sqrt var, n - 1⟩
  else some ⟨f.avgVar, env.sqrt f.avgVar, 1⟩

/-- The update of the moving average of the variance, with the previous value to compare
with. -/
def updateAvgVar (f : Instance) (var : ℚ) (dof : ℕ) : Instance × ℚ :=
  if f.avgVarN > 50 then
    ({ f with avgVar := f.avgVar + dof / (dof + 50) * (var - f.avgVar) }, f.avgVar)
  else
    let avgVar := (f.avgVar * f.avgVarN + var * dof) / (dof + f.avgVarN)
    ({ f with avgVar, avgVarN := f.avgVarN + dof },
      if f.avgVarN = 0 then avgVar else f.avgVar)

/-- `combine_selected_samples`, which returns no sample if the variance is too large. -/
def combineSelectedSamples (env : Env) (f : Instance) (selected : List ℕ) :
    Option (Instance × Option Sample) := do
  let n := selected.length
  let sample (i : ℕ) : Sample := f.samples (selected.getD i 0)
  let lastSample := sample (n - 1)
  let mean (g : Sample → ℚ) : ℚ := ((List.range n).map fun i => g (sample i)).sum / n
  let x (s : Sample) : ℚ := s.time.diffToDouble lastSample.time
  let meanX := mean x
  let meanY := mean Sample.offset
  let spread ← estimateSpread env f n (fun i => x (sample i)) (fun i => (sample i).offset)
    (fun i => (sample i).peerDispersion) meanX meanY
  -- avoid working with zero dispersion
  let spread := if spread.var < 1 / 10 ^ 20 then
      { spread with var := 1 / 10 ^ 20, disp := env.sqrt (1 / 10 ^ 20) }
    else spread
  if f.maxVar > 0 ∧ spread.var > f.maxVar then some (f, none)
  else
    let (f, prevAvgVar) := updateAvgVar f spread.var spread.dof
    let disp :=
      if spread.var * spread.dof / Regress.getChi2Coef spread.dof < prevAvgVar then
        env.sqrt f.avgVar * spread.disp / env.sqrt spread.var
      else spread.disp
    some (f, some {
      time := lastSample.time.addDouble meanX
      offset := meanY
      peerDispersion := max disp (mean Sample.peerDispersion)
      rootDispersion := max disp (mean Sample.rootDispersion)
      peerDelay := mean Sample.peerDelay
      rootDelay := mean Sample.rootDelay })

/-- `SPF_GetFilteredSample`. -/
def getFilteredSample (env : Env) (f : Instance) : Option (Instance × Option Sample) := do
  let selected ← selectSamples env f
  if selected.length < 1 then some (f, none)
  else
    let (f, sample) ← combineSelectedSamples env f selected
    match sample with
    | none => some (f, none)
    | some sample => some (dropSamples f true, some sample)

end Combine

/-- `get_first_last`. -/
def getFirstLast (f : Instance) : Option (ℕ × ℕ) :=
  if f.last < 0 then none
  else if f.used > 0 then some (0, f.used - 1)
  else some (f.last.toNat, f.last.toNat)

/-- The loop of `SPF_SlewSamples` and `SPF_CorrectOffset`. The last sample is always changed as
it may be returned even if no new samples were accumulated. -/
def changeSamples (f : Instance) (change : Sample → Sample) : Instance :=
  match getFirstLast f with
  | none => f
  | some (first, last) =>
      { f with samples := fun i =>
          if first ≤ i ∧ i ≤ last then change (f.samples i) else f.samples i }

/-- One turn of the loop of `SPF_SlewSamples`. -/
def Sample.slew (when : Timespec) (dfreq doffset : ℚ) (sample : Sample) : Sample :=
  { sample with
    time := sample.time.adjust when dfreq doffset
    offset := sample.offset - (when.diffToDouble sample.time * dfreq - doffset) }

/-- `SPF_SlewSamples`. -/
def slewSamples (f : Instance) (when : Timespec) (dfreq doffset : ℚ) : Instance :=
  changeSamples f (Sample.slew when dfreq doffset)

/-- One turn of the loop of `SPF_CorrectOffset`. -/
def Sample.correct (doffset : ℚ) (sample : Sample) : Sample :=
  { sample with offset := sample.offset - doffset }

/-- `SPF_CorrectOffset`. -/
def correctOffset (f : Instance) (doffset : ℚ) : Instance :=
  changeSamples f (Sample.correct doffset)

/-- One turn of the loop of `SPF_AddDispersion`. -/
def Sample.addDispersion (dispersion : ℚ) (sample : Sample) : Sample :=
  { sample with
    peerDispersion := sample.peerDispersion + dispersion
    rootDispersion := sample.rootDispersion + dispersion }

/-- `SPF_AddDispersion`. -/
def addDispersion (f : Instance) (dispersion : ℚ) : Instance :=
  { f with samples := fun i =>
      if i < f.used then (f.samples i).addDispersion dispersion else f.samples i }

/-- The operations which change a filter. -/
inductive Op
  | accumulate (sample : Sample)
  | drop
  | slew (when : Timespec) (dfreq doffset : ℚ)
  | correct (doffset : ℚ)
  | addDispersion (dispersion : ℚ)
  | get

/-- One operation. -/
def step (env : Env) (f : Instance) : Op → Option Instance
  | .accumulate sample => some (accumulateSample f sample).1
  | .drop => some (dropSamples f false)
  | .slew when dfreq doffset => some (slewSamples f when dfreq doffset)
  | .correct doffset => some (correctOffset f doffset)
  | .addDispersion dispersion => some (addDispersion f dispersion)
  | .get => (getFilteredSample env f).map Prod.fst

/-- A sequence of operations. -/
def run (env : Env) (f : Instance) (ops : List Op) : Option Instance :=
  ops.foldlM (step env) f

end Chrony.SampleFilt
