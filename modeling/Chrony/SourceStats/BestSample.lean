import Chrony.SourceStats.Limits

/-!
# The Best Single Sample

After every regression, the sample with the tightest bound on the root distance is searched
for. The ages of the samples are in an array which starts with the samples that are kept only
for the runs test. Its start is moved to the first sample of the regression if the regression
was successful. If it was not, the ages are those of the older samples.

A regression is not successful only with less than three samples. With a single sample the
ages do not matter. With two samples the interval between the two oldest samples stands in for
the interval between the two samples.

## Main results

* `run_bestSample_iff`: when the best single sample is the best one.
* `run_bestSample_wrong`: it is not the best one in a run with a maximum of two samples.
-/

namespace Chrony.SourceStats

open Chrony.Lib Chrony.Regress

variable {s s' : Stats} {log : List Entry}

/-- The time from a sample to the newest one. -/
def Stats.age (s : Stats) (i : ℤ) : ℚ :=
  s.sampleTimes s.lastSample - s.sampleTimes (s.getRunsbufIndex i)

/-- The time from a sample to the next one. -/
def Stats.interval (s : Stats) (i : ℤ) : ℚ :=
  s.sampleTimes (s.getRunsbufIndex (i + 1)) - s.sampleTimes (s.getRunsbufIndex i)

/-- **The best single sample** has the least root distance with its own age. -/
def Stats.BestSample (s : Stats) : Prop :=
  s.bestSingleSample < s.nSamples ∧ ∀ j < s.nSamples,
    s.rootDistance s.bestSingleSample (s.age s.bestSingleSample) ≤ s.rootDistance j (s.age j)

instance (s : Stats) : Decidable s.BestSample :=
  inferInstanceAs (Decidable (_ ∧ _))

/-- How much the root distance of the first sample is larger than that of the second one, if the
skew is the maximum one and the second sample is newer by an interval. -/
def Stats.lead (s : Stats) (interval : ℚ) : ℚ :=
  s.rootDistance 0 0 - s.rootDistance 1 0 + worstCaseFreqBound * interval

/-- **The order of two samples** by their root distances does not depend on whether the interval
between them is that of the two oldest samples. -/
def Stats.OrderKept (s : Stats) : Prop :=
  s.nSamples = 2 →
    (0 < s.lead (s.interval (-s.runsSamples)) → 0 ≤ s.lead (s.interval 0)) ∧
      (s.lead (s.interval (-s.runsSamples)) ≤ 0 → s.lead (s.interval 0) ≤ 0)

/-- The regression needs three samples. -/
theorem findBestRegression_eq_none_iff {sqrt : ℚ → ℚ} {x y w : ℤ → ℚ} {n m minSamples : ℕ} :
    findBestRegression sqrt x y w n m minSamples = none ↔ n < minSamplesForRegress := by
  rw [findBestRegression]
  split
  next h => exact ⟨fun _ => h, fun _ => rfl⟩
  next h => exact ⟨fun hnone => absurd hnone (Option.some_ne_none _), fun hlt => absurd hlt h⟩

/-- The ages of the samples which are left are at the moved start of the array. -/
theorem timesBack_of_pruned {newOldest : ℕ} (hle : newOldest ≤ s.nSamples)
    (hn : s'.nSamples = s.nSamples - newOldest) (hlast : s'.lastSample = s.lastSample)
    (htimes : s'.sampleTimes = s.sampleTimes) (i : ℕ) :
    -s.timesBack (s.runsSamples + newOldest + i) = s'.age i := by
  have hindex : s.getRunsbufIndex ((s.runsSamples + newOldest + i : ℕ) - s.runsSamples) =
      s'.getRunsbufIndex i := by
    rw [Stats.getRunsbufIndex, Stats.getRunsbufIndex, hlast, hn]
    congr 3
    omega
  rw [Stats.timesBack, hindex, Stats.age, hlast, htimes, neg_sub]

/-- The best sample by the right ages. -/
theorem bestSample_of_firstLeast {i : ℕ} {elapsed : ℕ → ℚ} (h : ∀ j : ℕ, elapsed j = s.age j)
    (hleast : FirstLeast (fun j => s.rootDistance j (elapsed j)) s.nSamples i) :
    ({ s with bestSingleSample := i } : Stats).BestSample := by
  refine ⟨hleast.lt, fun j hj => ?_⟩
  have hle : s.rootDistance i (elapsed i) ≤ s.rootDistance j (elapsed j) := hleast.le j hj
  rw [h i, h j] at hle
  exact hle

/-- The root distance without the age. -/
theorem rootDistance_eq (s : Stats) (i : ℕ) (elapsed : ℚ) :
    s.rootDistance i elapsed = s.rootDistance i 0 + elapsed * s.skew := by
  rw [Stats.rootDistance, Stats.rootDistance]
  ring

/-- The difference between the root distances of two samples. -/
theorem rootDistance_sub (hskew : s.skew = worstCaseFreqBound) {i : ℤ} {elapsed elapsed' : ℚ}
    (h : elapsed - elapsed' = s.interval i) :
    s.rootDistance 0 elapsed - s.rootDistance 1 elapsed' = s.lead (s.interval i) := by
  rw [rootDistance_eq, rootDistance_eq s 1 elapsed', hskew, Stats.lead, ← h]
  ring

theorem age_sub (s : Stats) (i : ℤ) : s.age i - s.age (i + 1) = s.interval i := by
  rw [Stats.age, Stats.age, Stats.interval]
  ring

theorem timesBack_eq (s : Stats) (k : ℕ) : -s.timesBack k = s.age (k - s.runsSamples) := by
  rw [Stats.timesBack, Stats.age, neg_sub]

/-- **The best of less than three samples** by the ages of the oldest samples. -/
theorem bestSample_of_shifted {i : ℕ} (hn : s.nSamples < minSamplesForRegress)
    (hskew : s.skew = worstCaseFreqBound)
    (hleast : FirstLeast (fun j => s.rootDistance j (-s.timesBack j)) s.nSamples i) :
    ({ s with bestSingleSample := i } : Stats).BestSample ↔ s.OrderKept := by
  have hpos := hleast.lt
  rw [minSamplesForRegress] at hn
  rcases (by omega : s.nSamples = 1 ∨ s.nSamples = 2) with hone | htwo
  · -- There is only one sample to choose.
    refine ⟨fun _ h => by omega, fun _ => ⟨hpos, fun j hj => ?_⟩⟩
    change j < s.nSamples at hj
    obtain rfl : i = j := by omega
    exact le_rfl
  · have hshifted : s.rootDistance 0 (-s.timesBack 0) - s.rootDistance 1 (-s.timesBack 1) =
        s.lead (s.interval (-s.runsSamples)) := by
      refine rootDistance_sub hskew ?_
      rw [timesBack_eq, timesBack_eq, ← age_sub]
      push_cast
      ring_nf
    have hright : s.rootDistance 0 (s.age 0) - s.rootDistance 1 (s.age 1) =
        s.lead (s.interval 0) :=
      rootDistance_sub hskew (age_sub s 0)
    have hbest : ({ s with bestSingleSample := i } : Stats).BestSample ↔
        ∀ j < 2, s.rootDistance i (s.age i) ≤ s.rootDistance j (s.age j) := by
      constructor
      · rintro ⟨-, h⟩ j hj
        exact h j (hj.trans_eq htwo.symm)
      · exact fun h => ⟨hpos, fun j hj => h j (hj.trans_eq htwo)⟩
    have horder : s.OrderKept ↔
        (0 < s.lead (s.interval (-s.runsSamples)) → 0 ≤ s.lead (s.interval 0)) ∧
          (s.lead (s.interval (-s.runsSamples)) ≤ 0 → s.lead (s.interval 0) ≤ 0) :=
      ⟨fun h => h htwo, fun h _ => h⟩
    rw [hbest, horder, ← hshifted, ← hright]
    rcases (by omega : i = 0 ∨ i = 1) with rfl | rfl
    · -- The first sample was chosen.
      have hle : s.rootDistance 0 (-s.timesBack 0) ≤ s.rootDistance 1 (-s.timesBack 1) :=
        hleast.le 1 (by omega)
      constructor
      · intro h
        have hright := h 1 (by omega)
        exact ⟨fun hlt => by linarith, fun _ => sub_nonpos.mpr hright⟩
      · intro h j hj
        have hright := h.2 (sub_nonpos.mpr hle)
        rcases (by omega : j = 0 ∨ j = 1) with rfl | rfl
        · exact le_rfl
        · exact sub_nonpos.mp hright
    · -- The second sample was chosen.
      have hlt : s.rootDistance 1 (-s.timesBack 1) < s.rootDistance 0 (-s.timesBack 0) :=
        hleast.lt_of_lt 0 (by omega)
      constructor
      · intro h
        have hright := h 0 (by omega)
        exact ⟨fun _ => sub_nonneg.mpr hright, fun hle => by linarith⟩
      · intro h j hj
        have hright := h.1 (sub_pos.mpr hlt)
        rcases (by omega : j = 0 ∨ j = 1) with rfl | rfl
        · exact sub_nonneg.mp hright
        · exact le_rfl

/-! ### The regression -/

theorem SameRegister.timesBack (h : SameRegister s s') : s'.timesBack = s.timesBack := by
  funext k
  simp only [Stats.timesBack, Stats.getRunsbufIndex, h.sampleTimes, h.lastSample, h.nSamples,
    h.runsSamples]

theorem SameRegister.orderKept_iff (h : SameRegister s s') : s'.OrderKept ↔ s.OrderKept := by
  simp only [Stats.OrderKept, Stats.lead, Stats.interval, Stats.rootDistance, Stats.getRunsbufIndex,
    Stats.getBufIndex, h.sampleTimes, h.lastSample, h.nSamples, h.runsSamples, h.rootDelays,
    h.rootDispersions, zero_mul]

/-- **`SST_DoNewRegression`** finds the best single sample exactly if the order of two samples
does not depend on the interval between the oldest ones. -/
theorem Inv.doNewRegression_bestSample (h : Inv s log) (env : Env) (hpos : 0 < s.nSamples) :
    ∃ s', s.doNewRegression env = .ok s' ∧ (s'.BestSample ↔ s.OrderKept) := by
  obtain ⟨⟨s₁, offsets, weights⟩, hprepare, hsame⟩ := prepareRegression_spec env h
  dsimp only at hsame
  have h₁ := hsame.inv h
  have hback : ∀ k < s₁.nSamples + s₁.runsSamples, s₁.timesBack k ≤ 0 :=
    fun k hk => h₁.timesBack_nonpos hk
  rw [← hsame.nSamples] at hpos
  rw [Stats.doNewRegression, hprepare, ← hsame.orderKept_iff, ← hsame.timesBack]
  simp only [bind, Except.bind]
  cases hregression : findBestRegression env.sqrt (fromIndex s₁.timesBack s₁.runsSamples)
      (fromIndex offsets s₁.runsSamples) (fromIndex weights 0) s₁.nSamples s₁.runsSamples
      s₁.minSamples with
  | none =>
      have hn := findBestRegression_eq_none_iff.mp hregression
      have hreset : SameRegister s₁ s₁.resetEstimates := resetEstimates_same s₁
      obtain ⟨i, hi, hleast⟩ := findBestSampleIndex_firstLeast s₁.resetEstimates s₁.timesBack
        (fun i hi => hback i (Nat.lt_add_right _ hi)) hpos
      refine ⟨_, hi, ?_⟩
      rw [← hreset.timesBack] at hleast
      rw [← hreset.orderKept_iff]
      exact bestSample_of_shifted hn rfl hleast
  | some r =>
      dsimp only
      have hstart : r.newStart + minSamplesForRegress ≤ s₁.nSamples :=
        findBestRegression_newStart env.sqrt hregression
      have hset : SameRegister s₁ (s₁.setEstimates env r) := setEstimates_same s₁ env r
      obtain ⟨s₂, hs₂, -, hn, -⟩ := (hset.inv h₁).pruneRegister
        (show r.newStart ≤ s₁.nSamples by omega)
      have hlast : s₂.lastSample = s₁.lastSample :=
        (congrArg Stats.lastSample (pruneRegister_eq hs₂) :)
      have htimes : s₂.sampleTimes = s₁.sampleTimes :=
        (congrArg Stats.sampleTimes (pruneRegister_eq hs₂) :)
      have hages : ∀ i : ℕ, -s₁.timesBack (s₁.runsSamples + r.newStart + i) = s₂.age i :=
        timesBack_of_pruned (by omega) hn hlast htimes
      have hthree : minSamplesForRegress ≤ s₂.nSamples := by
        rw [hn]
        change _ ≤ s₁.nSamples - _
        omega
      rw [minSamplesForRegress] at hthree hstart
      have hn₂ : s₂.nSamples = s₁.nSamples - r.newStart := hn
      obtain ⟨i, hi, hleast⟩ := findBestSampleIndex_firstLeast s₂
        (fun i => s₁.timesBack (s₁.runsSamples + r.newStart + i))
        (fun i hi => hback _ (by omega)) (by omega)
      refine ⟨_, by rw [hs₂]; exact hi, fun _ htwo => ?_, fun _ => ?_⟩
      · omega
      · exact bestSample_of_firstLeast hages hleast

/-! ### Runs -/

/-- **The best single sample after a regression** in any state which is reached with samples. -/
theorem run_bestSample_iff (env : Env) (memory : Stats) (minSamples maxSamples : ℤ)
    (minDelay asymmetry : ℚ) (ops : List Op) :
    ∃ s log, run env (createInstance memory minSamples maxSamples minDelay asymmetry, []) ops =
        .ok (s, log) ∧
      (0 < s.nSamples → ∃ s', s.doNewRegression env = .ok s' ∧ (s'.BestSample ↔ s.OrderKept)) := by
  obtain ⟨s, log, hrun, hinv⟩ := run_inv env (inv_resetInstance _ []) ops
  exact ⟨s, log, hrun, hinv.doNewRegression_bestSample env⟩

/-- A sample with a root dispersion. -/
def dispersedSample (time rootDispersion : ℚ) : NtpSample where
  time := time
  offset := 0
  peerDelay := 1 / 100
  peerDispersion := 0
  rootDelay := 1 / 100
  rootDispersion := rootDispersion

/-- **The second sample is chosen, and the first one is better.** The interval of 100 seconds
between the two oldest samples stands in for the one second between the two samples. -/
theorem run_bestSample_wrong :
    ∃ s log, run microsecondEnv (createInstance clearedStats 1 2 0 0, [])
        [.accumulateSample (dispersedSample 0 0), .doNewRegression,
          .accumulateSample (dispersedSample 100 0), .doNewRegression,
          .accumulateSample (dispersedSample 101 (1 / 10)), .doNewRegression] = .ok (s, log) ∧
      s.nSamples = 2 ∧ s.bestSingleSample = 1 ∧ ¬s.BestSample := by
  obtain ⟨⟨s, log⟩, hrun, hview⟩ := exists_ok_of_map_toOption
    (x := run microsecondEnv (createInstance clearedStats 1 2 0 0, [])
      [.accumulateSample (dispersedSample 0 0), .doNewRegression,
        .accumulateSample (dispersedSample 100 0), .doNewRegression,
        .accumulateSample (dispersedSample 101 (1 / 10)), .doNewRegression])
    (f := fun state =>
      (state.1.nSamples, state.1.bestSingleSample, decide state.1.BestSample))
    (b := (2, 1, false)) (by decide +kernel)
  simp only [Prod.mk.injEq, decide_eq_false_iff_not] at hview
  exact ⟨s, log, hrun, hview⟩

end Chrony.SourceStats
