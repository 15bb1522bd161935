import Chrony.SourceStats.Runs

/-!
# Limits of the Number of Samples

The configured maximum number of samples is enforced at one place: a full register is pruned
by one sample before a new one is added. `SST_LoadFromFile` compares the number of samples in
the file only with the length of the arrays.

## Main results

* `run_limits`: the limits hold in every run which loads no file with too many samples.
* `run_exceeds_maxSamples`: they do not hold after such a file.
-/

namespace Chrony.SourceStats

open Chrony.Lib Chrony.Regress

variable {s s' : Stats}

/-- **The register has not grown**, and its limits are the same. -/
structure Shrinks (s s' : Stats) : Prop where
  minSamples : s'.minSamples = s.minSamples
  maxSamples : s'.maxSamples = s.maxSamples
  nSamples : s'.nSamples ≤ s.nSamples

theorem Shrinks.refl (s : Stats) : Shrinks s s :=
  ⟨rfl, rfl, le_rfl⟩

theorem Shrinks.trans {s₁ s₂ s₃ : Stats} (h : Shrinks s₁ s₂) (h' : Shrinks s₂ s₃) :
    Shrinks s₁ s₃ :=
  ⟨h'.minSamples.trans h.minSamples, h'.maxSamples.trans h.maxSamples, h'.nSamples.trans h.nSamples⟩

/-! ### The regression -/

theorem pruneRegister_shrinks {newOldest : ℕ} (h : s.pruneRegister newOldest = .ok s') :
    Shrinks s s' := by
  rw [pruneRegister_eq h]
  exact ⟨rfl, rfl, Nat.sub_le _ _⟩

theorem findBestSampleIndex_shrinks {timesBack : ℕ → ℚ}
    (h : s.findBestSampleIndex timesBack = .ok s') : Shrinks s s' := by
  rw [Stats.findBestSampleIndex] at h
  split at h
  · cases h
    exact .refl s
  · obtain ⟨best, -, h⟩ := bind_eq_ok_iff.mp h
    cases best with
    | none => cases h
    | some best =>
        cases h
        exact ⟨rfl, rfl, le_rfl⟩

theorem correctAsymmetry_shrinks (s : Stats) (timesBack offsets : ℕ → ℚ) :
    Shrinks s (s.correctAsymmetry timesBack offsets).1 := by
  rw [Stats.correctAsymmetry]
  split
  · exact .refl s
  · dsimp only
    split
    · exact ⟨rfl, rfl, le_rfl⟩
    · split
      · exact ⟨rfl, rfl, le_rfl⟩
      · exact ⟨rfl, rfl, le_rfl⟩

theorem prepareRegression_shrinks {env : Env} {r : Stats × (ℕ → ℚ) × (ℕ → ℚ)}
    (h : s.prepareRegression env = .ok r) : Shrinks s r.1 := by
  rw [Stats.prepareRegression] at h
  dsimp only at h
  split at h
  · split at h
    · cases h
    · cases h
      exact correctAsymmetry_shrinks s _ _
  · cases h
    exact .refl s

/-- **The regression** only drops samples. -/
theorem doNewRegression_shrinks {env : Env} (h : s.doNewRegression env = .ok s') :
    Shrinks s s' := by
  rw [Stats.doNewRegression] at h
  obtain ⟨⟨s₁, offsets, weights⟩, hprepare, h⟩ := bind_eq_ok_iff.mp h
  have h₁ : Shrinks s s₁ := prepareRegression_shrinks hprepare
  dsimp only at h
  split at h
  next r _ =>
      obtain ⟨s₂, hprune, h⟩ := bind_eq_ok_iff.mp h
      have h₂ : Shrinks (s₁.setEstimates env r) s₂ := pruneRegister_shrinks hprune
      have hset : Shrinks s₁ (s₁.setEstimates env r) := ⟨rfl, rfl, le_rfl⟩
      exact ((h₁.trans hset).trans h₂).trans (findBestSampleIndex_shrinks h)
  next =>
      have hreset : Shrinks s₁ s₁.resetEstimates := ⟨rfl, rfl, le_rfl⟩
      exact (h₁.trans hreset).trans (findBestSampleIndex_shrinks h)

/-! ### Files -/

theorem loadLine_shrinks {env : Env} {file : File} {i : ℕ} {ok : Bool}
    (h : s.loadLine env file i = (ok, s')) : Shrinks s s' := by
  have hscan : ∀ numbers, Shrinks s (s.scanLine i numbers) := fun numbers => ⟨rfl, rfl, le_rfl⟩
  rw [Stats.loadLine] at h
  split at h
  · cases h
    exact .refl s
  · dsimp only at h
    split at h
    · split at h
      · cases h
        exact hscan _
      · split at h
        · cases h
          exact ⟨rfl, rfl, le_rfl⟩
        · cases h
          exact ⟨rfl, rfl, le_rfl⟩
    · cases h
      exact hscan _

theorem loadLines_shrinks {env : Env} {file : File} {count i : ℕ} {ok : Bool}
    (h : s.loadLines env file count i = (ok, s')) : Shrinks s s' := by
  induction count generalizing s i with
  | zero =>
      cases h
      exact .refl _
  | succ count ih =>
      rw [Stats.loadLines] at h
      split at h
      next s₁ hline => exact (loadLine_shrinks hline).trans (ih h)
      next s₁ hline =>
          cases h
          exact loadLine_shrinks hline

/-- The register after a file was loaded has at most the number of samples of the file. -/
theorem loadFromFile_shrinks {env : Env} {file : File} {ok : Bool}
    (h : s.loadFromFile env file = .ok (ok, s')) :
    Shrinks s s' ∨ ∃ n arun, file.header = some (n, arun) ∧ 1 ≤ n ∧ n ≤ bufSize ∧
      (s.resetInstance.loadLines env file n.toNat 0).1 = true ∧
      s'.minSamples = s.minSamples ∧ s'.maxSamples = s.maxSamples ∧ s'.nSamples ≤ n.toNat := by
  have hreset : Shrinks s s.resetInstance := ⟨rfl, rfl, Nat.zero_le _⟩
  rw [Stats.loadFromFile] at h
  split at h
  next =>
      cases h
      exact .inl (.refl s)
  next n arun hheader =>
      split at h
      next =>
          cases h
          exact .inl (.refl s)
      next hrange =>
          rw [not_or, not_lt, not_lt] at hrange
          split at h
          next s₁ hlines =>
              cases h
              exact .inl (hreset.trans (loadLines_shrinks hlines))
          next s₁ hlines =>
              obtain ⟨s₂, hregress, h⟩ := bind_eq_ok_iff.mp h
              cases h
              have h₁ := hreset.trans (loadLines_shrinks hlines)
              have h₂ := doNewRegression_shrinks hregress
              refine .inr ⟨n, arun, hheader, hrange.1, hrange.2, by rw [hlines], ?_, ?_, ?_⟩
              · exact h₂.minSamples.trans h₁.minSamples
              · exact h₂.maxSamples.trans h₁.maxSamples
              · exact h₂.nSamples

/-! ### Runs -/

/-- **The limits of a register**, and its number of samples. -/
structure Limits (s : Stats) : Prop where
  one_le_minSamples : 1 ≤ s.minSamples
  minSamples_le : s.minSamples ≤ s.maxSamples
  maxSamples_le : s.maxSamples ≤ bufSize
  nSamples_le : s.nSamples ≤ s.maxSamples

theorem Limits.of_eq (h : Limits s) (hmin : s'.minSamples = s.minSamples)
    (hmax : s'.maxSamples = s.maxSamples) (hn : s'.nSamples ≤ s.maxSamples) : Limits s' where
  one_le_minSamples := hmin ▸ h.one_le_minSamples
  minSamples_le := hmin ▸ hmax ▸ h.minSamples_le
  maxSamples_le := hmax ▸ h.maxSamples_le
  nSamples_le := hmax ▸ hn

theorem Limits.shrinks (h : Limits s) (hs : Shrinks s s') : Limits s' :=
  h.of_eq hs.minSamples hs.maxSamples (hs.nSamples.trans h.nSamples_le)

theorem limits_createInstance (memory : Stats) (minSamples maxSamples : ℤ)
    (minDelay asymmetry : ℚ) :
    Limits (createInstance memory minSamples maxSamples minDelay asymmetry) := by
  have hmax : (1 : ℤ) ≤ (if maxSamples > 0 then clamp 1 maxSamples bufSize else bufSize) ∧
      (if maxSamples > 0 then clamp 1 maxSamples bufSize else bufSize) ≤ (bufSize : ℤ) := by
    split
    · exact clamp_mem (by decide)
    · decide
  obtain ⟨hone, hle⟩ := clamp_mem (x := minSamples) hmax.1
  refine ⟨?_, ?_, ?_, Nat.zero_le _⟩
  · change 1 ≤ (clamp 1 minSamples _).toNat
    omega
  · exact Int.toNat_le_toNat hle
  · exact Int.toNat_le.mpr hmax.2

/-- A full register loses a sample before it gets a new one. -/
theorem Limits.accumulateSample (h : Limits s) {sample : NtpSample}
    (hs : s.accumulateSample sample = .ok s') : Limits s' := by
  rw [Stats.accumulateSample] at hs
  obtain ⟨s₁, hroom, hs⟩ := bind_eq_ok_iff.mp hs
  cases hs
  have hpos : 1 ≤ s.maxSamples := h.one_le_minSamples.trans h.minSamples_le
  have h₁ : Shrinks s s₁ ∧ s₁.nSamples + 1 ≤ s.maxSamples := by
    rw [Stats.makeRoom] at hroom
    split at hroom
    next hfull =>
        refine ⟨pruneRegister_shrinks hroom, ?_⟩
        have hn : s₁.nSamples = s.nSamples - 1 := congrArg Stats.nSamples (pruneRegister_eq hroom)
        have := h.nSamples_le
        omega
    next hnot =>
        cases hroom
        refine ⟨.refl s, ?_⟩
        have := h.nSamples_le
        by_contra hgt
        exact hnot ⟨by omega, .inr (by omega)⟩
  obtain ⟨hshrinks, hn⟩ := h₁
  split
  · exact h.of_eq hshrinks.minSamples hshrinks.maxSamples hpos
  · exact h.of_eq hshrinks.minSamples hshrinks.maxSamples hn

/-- **An operation which respects the maximum number of samples.** A file which is accepted has
no more samples than that. -/
def Op.WithinLimit (env : Env) (s : Stats) : Op → Prop
  | .loadFromFile file =>
      ∀ n arun, file.header = some (n, arun) → n ≤ bufSize →
        (s.resetInstance.loadLines env file n.toNat 0).1 = true → n ≤ s.maxSamples
  | _ => True

/-- One operation keeps the limits. -/
theorem Limits.step {env : Env} {log log' : List Entry} {op : Op} (h : Limits s)
    (hop : op.WithinLimit env s) (hs : step env (s, log) op = .ok (s', log')) : Limits s' := by
  cases op with
  | accumulateSample sample =>
      obtain ⟨s₁, hs₁, hs⟩ := bind_eq_ok_iff.mp hs
      cases hs
      exact h.accumulateSample hs₁
  | doNewRegression =>
      obtain ⟨s₁, hs₁, hs⟩ := bind_eq_ok_iff.mp hs
      cases hs
      exact h.shrinks (doNewRegression_shrinks hs₁)
  | slewSamples cooked dfreq doffset hdfreq =>
      cases hs
      rw [Stats.slewSamples]
      split
      · exact h
      · exact h.of_eq rfl rfl h.nSamples_le
  | correctOffset doffset =>
      cases hs
      rw [Stats.correctOffset]
      split
      · exact h
      · exact h.of_eq rfl rfl h.nSamples_le
  | addDispersion dispersion =>
      cases hs
      exact h.of_eq rfl rfl h.nSamples_le
  | resetInstance =>
      cases hs
      exact h.of_eq rfl rfl (Nat.zero_le _)
  | loadFromFile file =>
      obtain ⟨⟨ok, s₁⟩, hs₁, hs⟩ := bind_eq_ok_iff.mp hs
      cases hs
      rcases loadFromFile_shrinks hs₁ with
        hshrinks | ⟨n, arun, hheader, -, hle, hok, hmin, hmax, hn⟩
      · exact h.shrinks hshrinks
      · have hlimit := hop n arun hheader hle hok
        exact h.of_eq hmin hmax (hn.trans (Int.toNat_le.mpr hlimit))
  | saveToFile =>
      cases hs
      exact h

/-- **The limits hold in every run** whose files have no more samples than the configured
maximum. -/
theorem run_limits (env : Env) (memory : Stats) (minSamples maxSamples : ℤ)
    (minDelay asymmetry : ℚ) (ops : List Op)
    (hops : Along (step env) (fun state op => op.WithinLimit env state.1)
      (createInstance memory minSamples maxSamples minDelay asymmetry, []) ops) :
    ∃ s log, run env (createInstance memory minSamples maxSamples minDelay asymmetry, []) ops =
        .ok (s, log) ∧ Limits s := by
  obtain ⟨s, log, hrun, -⟩ := run_inv env (inv_resetInstance _ []) ops
  refine ⟨s, log, hrun, ?_⟩
  refine foldlM_invariant_along (I := fun state => Limits state.1) ?_
    (limits_createInstance memory minSamples maxSamples minDelay asymmetry) hops hrun
  exact fun _ _ _ h hop hs => h.step hop hs

/-! ### A file with too many samples -/

/-- A register in memory which was cleared. -/
def clearedStats : Stats where
  minSamples := 0
  maxSamples := 0
  fixedMinDelay := 0
  fixedAsymmetry := 0
  nSamples := 0
  runsSamples := 0
  lastSample := 0
  regressionOk := false
  bestSingleSample := 0
  minDelaySample := 0
  estimatedOffset := 0
  estimatedOffsetSd := 0
  offsetTime := 0
  nruns := 0
  asymmetryRun := 0
  asymmetry := 0
  estimatedFrequency := 0
  estimatedFrequencySd := 0
  skew := 0
  stdDev := 0
  sampleTimes := fun _ => 0
  offsets := fun _ => 0
  origOffsets := fun _ => none
  peerDelays := fun _ => 0
  peerDispersions := fun _ => 0
  rootDelays := fun _ => 0
  rootDispersions := fun _ => 0

/-- A clock with the precision of a microsecond. The square root is not used without a
regression. -/
def microsecondEnv : Env where
  sqrt := id
  precision := 1 / 10 ^ 6
  leftFirst := true
  longTimeT := true
  ntpEraSplit := 0

/-- A file with a number of samples, one every second. -/
def secondsFile (count : ℕ) : File where
  header := some (count, 0)
  lines := fun i => some [some i, some 0, some 0, some (1 / 100), some 0, some (1 / 100), some 0]
  now := 100

/-- A file with one sample is loaded with a maximum of one sample. -/
theorem run_limits_one_sample :
    ∃ s log, run microsecondEnv (createInstance clearedStats 1 1 0 0, [])
        [.loadFromFile (secondsFile 1), .doNewRegression] = .ok (s, log) ∧ Limits s := by
  refine run_limits microsecondEnv clearedStats 1 1 0 0 _
    ⟨?_, fun _ _ => ⟨trivial, fun _ _ => trivial⟩⟩
  intro n arun hheader _ _
  cases hheader
  decide

/-- **Two samples are loaded with a maximum of one sample.** -/
theorem run_exceeds_maxSamples :
    ∃ s log, run microsecondEnv (createInstance clearedStats 1 1 0 0, [])
        [.loadFromFile (secondsFile 2)] = .ok (s, log) ∧
      s.maxSamples = 1 ∧ s.nSamples = 2 ∧ ¬Limits s := by
  obtain ⟨⟨s, log⟩, hrun, hview⟩ := exists_ok_of_map_toOption
    (x := run microsecondEnv (createInstance clearedStats 1 1 0 0, [])
      [.loadFromFile (secondsFile 2)])
    (f := fun state => (state.1.maxSamples, state.1.nSamples)) (b := (1, 2)) (by decide +kernel)
  obtain ⟨hmax, hn⟩ := Prod.mk.inj hview
  dsimp only at hmax hn
  refine ⟨s, log, hrun, hmax, hn, fun h => ?_⟩
  have hle := h.nSamples_le
  rw [hmax, hn] at hle
  exact absurd hle (by decide)

end Chrony.SourceStats
