import Chrony.Lib.Run
import Chrony.Regress.BestRegression
import Chrony.Regress.Median

/-!
# The Best Regression on Arrays

`RGR_FindBestRegression` with the arrays it is given and the arrays of its own, every access of
which is checked. The points which extend the runs test have negative indices. The residuals are
in an array on the stack, which has any contents at first.

## Main results

* `rgrFindBestRegression_eq`: no access is outside of its array, and the results are those of
  `findBestRegression`.
-/

namespace Chrony.Regress

/-- What must not happen in `RGR_FindBestRegression`. -/
inductive Abort
  | outOfBounds
  | points
  | criticalRuns
  | fuel
  deriving DecidableEq, Repr

/-- An array which can be accessed at the indices from `first` up to `stop`. -/
structure Span where
  first : ℤ
  stop : ℤ
  entries : ℤ → ℚ

/-- An access of an array. -/
def Span.read (a : Span) (i : ℤ) : Except Abort ℚ :=
  if a.first ≤ i ∧ i < a.stop then .ok (a.entries i) else .error .outOfBounds

/-- An assignment to an element of an array. -/
def Span.write (a : Span) (i : ℤ) (value : ℚ) : Except Abort Span :=
  if a.first ≤ i ∧ i < a.stop then .ok { a with entries := Function.update a.entries i value }
  else .error .outOfBounds

/-- An access of `critical_runs`. -/
def readCriticalRuns (i : ℤ) : Except Abort ℕ :=
  if 0 ≤ i then
    match criticalRuns[i.toNat]? with
    | some runs => .ok runs
    | none => .error .outOfBounds
  else .error .outOfBounds

/-- One turn of the loop of `n_runs_from_residuals`. -/
def Span.countRun (resid : Span) (offset : ℤ) (nruns i : ℕ) : Except Abort ℕ := do
  let previous ← resid.read (offset + i - 1)
  let current ← resid.read (offset + i)
  if (previous < 0 ∧ current < 0) ∨ (previous > 0 ∧ current > 0) then .ok nruns
  else .ok (nruns + 1)

/-- `n_runs_from_residuals`, on the residuals from an index on. -/
def Span.nRunsFromResiduals (resid : Span) (offset : ℤ) (n : ℕ) : Except Abort ℕ :=
  (List.range' 1 (n - 1)).foldlM (resid.countRun offset) 1

section FindBestRegression

variable (x y w : Span) (n m : ℕ) (minSamples : ℤ)

/-- One turn of the loop for the sums `U` and `W`. -/
def addWeights (sums : ℚ × ℚ) (i : ℕ) : Except Abort (ℚ × ℚ) := do
  let xi ← x.read i
  let wi ← w.read i
  .ok (sums.1 + xi / wi, sums.2 + 1 / wi)

/-- One turn of the loop for the sums `P`, `Q` and `V`. -/
def addMoments (u : ℚ) (sums : ℚ × ℚ × ℚ) (i : ℕ) : Except Abort (ℚ × ℚ × ℚ) := do
  let xi ← x.read i
  let yi ← y.read i
  let wi ← w.read i
  let ui := xi - u
  .ok (sums.1 + yi / wi, sums.2.1 + yi * ui / wi, sums.2.2 + ui * ui / wi)

/-- The line of one turn of the loop of `RGR_FindBestRegression`. -/
def fitLine (start : ℕ) : Except Abort Fit := do
  let points := List.range' start (n - start)
  let (sumU, sumW) ← points.foldlM (addWeights x w) (0, 0)
  let u := sumU / sumW
  let (sumP, sumQ, sumV) ← points.foldlM (addMoments x y w u) (0, 0, 0)
  let b := sumQ / sumV
  .ok { a := sumP / sumW - b * u, b, u, sumV, sumW }

/-- One turn of the loop for the residuals. -/
def addResidual (line : Fit) (residStart : ℤ) (resid : Span) (k : ℕ) : Except Abort Span := do
  let i := residStart + k
  let yi ← y.read i
  let xi ← x.read i
  resid.write (i - residStart) (yi - line.a - line.b * xi)

/-- What is known at the end of the loop. -/
structure RunsTest where
  start : ℕ
  line : Fit
  resid : Span
  residStart : ℤ
  nruns : ℕ

/-- The loop of `RGR_FindBestRegression`, from an index on. -/
def dropSamples : ℕ → ℕ → Span → Except Abort RunsTest
  | 0, _, _ => .error .fuel
  | fuel + 1, start, resid => do
      let line ← fitLine x y w n start
      let residStart : ℤ := n - (n - start) * regressRunsRatio
      let residStart := if residStart < -m then -(m : ℤ) else residStart
      let npoints := (n - residStart).toNat
      let resid ← (List.range npoints).foldlM (addResidual x y line residStart) resid
      let nruns ← resid.nRunsFromResiduals 0 npoints
      let critical ← readCriticalRuns (n - residStart)
      if nruns > critical ∨ (n : ℤ) - start ≤ minSamplesForRegress ∨ (n : ℤ) - start ≤ minSamples
      then do
        let nruns ←
          if start ≠ residStart then resid.nRunsFromResiduals (start - residStart) (n - start)
          else .ok nruns
        .ok { start, line, resid, residStart, nruns }
      else dropSamples fuel (start + 1) resid

/-- One turn of the loop for the sum of squares. -/
def addSquare (resid : Span) (residStart : ℤ) (ss : ℚ) (i : ℕ) : Except Abort ℚ := do
  let r ← resid.read (i - residStart)
  let wi ← w.read i
  .ok (ss + r * r / wi)

/-- `RGR_FindBestRegression`, with the contents of the stack. -/
def rgrFindBestRegression (sqrt : ℚ → ℚ) (stack : ℤ → ℚ) : Except Abort (Option Regression) :=
  if ¬n ≤ maxPoints then .error .points
  else if ¬n * regressRunsRatio < criticalRuns.length then .error .criticalRuns
  else if n < minSamplesForRegress then .ok none
  else do
    let found ← dropSamples x y w n m minSamples n 0 ⟨0, maxPoints * regressRunsRatio, stack⟩
    let line := found.line
    let npoints := n - found.start
    let ss ← (List.range' found.start npoints).foldlM (addSquare w found.resid found.residStart) 0
    let ss := ss / (npoints - 2 : ℚ)
    let sb1 := sqrt (ss / line.sumV)
    let aa := line.u * sb1
    .ok <| some
      { b0 := line.a
        b1 := line.b
        s2 := ss * npoints / line.sumW
        sb0 := sqrt (ss / line.sumW + aa * aa)
        sb1
        newStart := found.start
        nRuns := found.nruns
        dof := npoints - 2 }

end FindBestRegression

/-! ### Accesses -/

theorem Span.read_eq {a : Span} {i : ℤ} (h : a.first ≤ i) (h' : i < a.stop) :
    a.read i = .ok (a.entries i) :=
  if_pos ⟨h, h'⟩

/-- A loop of additions. -/
theorem foldl_add_eq {α ι : Type*} [AddMonoid α] (f : ι → α) (l : List ι) (a : α) :
    l.foldl (fun s i => s + f i) a = a + (l.map f).sum := by
  induction l generalizing a with
  | nil => exact (add_zero a).symm
  | cons i l ih => rw [List.foldl_cons, ih, List.map_cons, List.sum_cons, add_assoc]

/-- A loop over pairs whose parts do not depend on each other. -/
theorem foldl_prod_eq {α β ι : Type*} (f : α → ι → α) (g : β → ι → β) (l : List ι) (s : α × β) :
    l.foldl (fun s i => (f s.1 i, g s.2 i)) s = (l.foldl f s.1, l.foldl g s.2) := by
  induction l generalizing s with
  | nil => rfl
  | cons i l ih => exact ih _

/-- A loop which counts the elements without a property. -/
theorem foldl_count_eq {ι : Type*} (p : ι → Prop) [DecidablePred p] (l : List ι) (a : ℕ) :
    l.foldl (fun n i => if p i then n else n + 1) a = a + l.countP (fun i => ¬p i) := by
  induction l generalizing a with
  | nil => rfl
  | cons i l ih =>
      rw [List.foldl_cons, ih, List.countP_cons]
      by_cases h : p i
      · simp [h]
      · simp [h]
        omega

/-- Two residuals of the same run. -/
def SameRun (a b : ℚ) : Prop :=
  (a < 0 ∧ b < 0) ∨ (a > 0 ∧ b > 0)

instance (a b : ℚ) : Decidable (SameRun a b) :=
  inferInstanceAs (Decidable (_ ∨ _))

/-- The number of runs is that of the list of residuals. -/
theorem Span.nRunsFromResiduals_eq {resid : Span} {offset : ℤ} {r : ℕ → ℚ} {n : ℕ}
    (h : ∀ k < n, resid.read (offset + k) = .ok (r k)) :
    resid.nRunsFromResiduals offset n =
      .ok (Regress.nRunsFromResiduals ((List.range n).map r)) := by
  have hzip : ((List.range n).map r).zip ((List.range n).map r).tail =
      (List.range (n - 1)).map fun i => (r i, r (i + 1)) := by
    refine List.ext_getElem (by simp) fun i h₁ h₂ => ?_
    simp
  have hstep : ∀ i ∈ List.range' 1 (n - 1), ∀ nruns : ℕ, resid.countRun offset nruns i =
      .ok (if SameRun (r (i - 1)) (r (i - 1 + 1)) then nruns else nruns + 1) := by
    intro i hi nruns
    obtain ⟨hone, hlt⟩ := List.mem_range'_1.mp hi
    have hprevious : resid.read (offset + i - 1) = .ok (r (i - 1)) := by
      rw [← h (i - 1) (by omega)]
      congr 1
      omega
    have hcurrent : resid.read (offset + i) = .ok (r (i - 1 + 1)) := by
      rw [Nat.sub_add_cancel hone]
      exact h i (by omega)
    rw [Span.countRun, hprevious, hcurrent]
    exact (apply_ite Except.ok _ _ _).symm
  rw [Span.nRunsFromResiduals, Lib.foldlM_eq_ok hstep,
    foldl_count_eq fun i => SameRun (r (i - 1)) (r (i - 1 + 1)), Regress.nRunsFromResiduals, hzip,
    List.countP_map, List.range'_eq_map_range, List.countP_map]
  congr 2
  refine List.countP_congr fun i _ => ?_
  simp only [Function.comp_apply, Nat.add_sub_cancel_left]
  rfl

section

variable {x y w : ℤ → ℚ} {n m : ℕ} {minSamples : ℤ}

/-- The sums in terms of the indices of the points. -/
theorem sumFrom_eq (n start : ℕ) (f : ℤ → ℚ) :
    sumFrom n start f = ((List.range' start (n - start)).map fun i : ℕ => f i).sum := by
  rw [sumFrom]
  congr 1
  exact (congrArg (List.map f) List.map_eq_flatMap.symm).trans List.map_map

/-- The residual of a point. -/
def residual (x y : ℤ → ℚ) (line : Fit) (i : ℤ) : ℚ :=
  y i - line.a - line.b * x i

theorem residuals_eq (x y : ℤ → ℚ) (n : ℕ) (line : Fit) (first : ℤ) :
    residuals x y n line first =
      (List.range (n - first).toNat).map fun k : ℕ => residual x y line (first + k) := by
  rw [residuals]
  exact (congrArg (List.map _) List.map_eq_flatMap.symm).trans List.map_map

/-- **The line of one turn** is found with accesses to the points only. -/
theorem fitLine_eq (x y w : ℤ → ℚ) (n m start : ℕ) :
    fitLine ⟨-m, n, x⟩ ⟨-m, n, y⟩ ⟨0, n, w⟩ n start = .ok (fit x y w n start) := by
  have hbounds : ∀ i ∈ List.range' start (n - start), (0 : ℤ) ≤ i ∧ (i : ℤ) < n := by
    intro i hi
    have := List.mem_range'_1.mp hi
    omega
  have hx : ∀ i ∈ List.range' start (n - start), (⟨-m, n, x⟩ : Span).read i = .ok (x i) :=
    fun i hi => Span.read_eq (by have := hbounds i hi; dsimp only; omega) (hbounds i hi).2
  have hy : ∀ i ∈ List.range' start (n - start), (⟨-m, n, y⟩ : Span).read i = .ok (y i) :=
    fun i hi => Span.read_eq (by have := hbounds i hi; dsimp only; omega) (hbounds i hi).2
  have hw : ∀ i ∈ List.range' start (n - start), (⟨0, n, w⟩ : Span).read i = .ok (w i) :=
    fun i hi => Span.read_eq (hbounds i hi).1 (hbounds i hi).2
  have hweights : (List.range' start (n - start)).foldlM (addWeights ⟨-m, n, x⟩ ⟨0, n, w⟩) (0, 0) =
      .ok (sumFrom n start fun i => x i / w i, sumFrom n start fun i => 1 / w i) := by
    have hturn : ∀ i ∈ List.range' start (n - start), ∀ sums : ℚ × ℚ,
        addWeights ⟨-m, n, x⟩ ⟨0, n, w⟩ sums i = .ok (sums.1 + x i / w i, sums.2 + 1 / w i) := by
      intro i hi sums
      rw [addWeights, hx i hi, hw i hi]
      rfl
    rw [Lib.foldlM_eq_ok hturn, foldl_prod_eq (fun (s : ℚ) (i : ℕ) => s + x i / w i)
      fun (s : ℚ) (i : ℕ) => s + 1 / w i, foldl_add_eq, foldl_add_eq, zero_add, zero_add,
      sumFrom_eq, sumFrom_eq]
  have hmoments : ∀ u, (List.range' start (n - start)).foldlM
      (addMoments ⟨-m, n, x⟩ ⟨-m, n, y⟩ ⟨0, n, w⟩ u) (0, 0, 0) =
      .ok (sumFrom n start fun i => y i / w i, sumFrom n start fun i => y i * (x i - u) / w i,
        sumFrom n start fun i => (x i - u) * (x i - u) / w i) := by
    intro u
    have hturn : ∀ i ∈ List.range' start (n - start), ∀ sums : ℚ × ℚ × ℚ,
        addMoments ⟨-m, n, x⟩ ⟨-m, n, y⟩ ⟨0, n, w⟩ u sums i =
          .ok (sums.1 + y i / w i, sums.2.1 + y i * (x i - u) / w i,
            sums.2.2 + (x i - u) * (x i - u) / w i) := by
      intro i hi sums
      rw [addMoments, hx i hi, hy i hi, hw i hi]
      rfl
    rw [Lib.foldlM_eq_ok hturn, foldl_prod_eq (fun (s : ℚ) (i : ℕ) => s + y i / w i)
        fun (s : ℚ × ℚ) (i : ℕ) =>
          (s.1 + y i * (x i - u) / w i, s.2 + (x i - u) * (x i - u) / w i),
      foldl_prod_eq (fun (s : ℚ) (i : ℕ) => s + y i * (x i - u) / w i)
        fun (s : ℚ) (i : ℕ) => s + (x i - u) * (x i - u) / w i,
      foldl_add_eq, foldl_add_eq, foldl_add_eq, zero_add, zero_add, zero_add, sumFrom_eq,
      sumFrom_eq, sumFrom_eq]
  rw [fitLine]
  dsimp only
  rw [hweights]
  simp only [bind, Except.bind]
  rw [hmoments]
  rfl

/-- **The residuals** fit in the array, and are those of the points. -/
theorem foldlM_addResidual (line : Fit) {first : ℤ} {resid : Span} (hfirst : -m ≤ first)
    (hresid : resid.first = 0) (hsize : n - first ≤ resid.stop) :
    ∃ resid' : Span, (List.range (n - first).toNat).foldlM
        (addResidual ⟨-m, n, x⟩ ⟨-m, n, y⟩ line first) resid = .ok resid' ∧
      resid'.first = 0 ∧ resid'.stop = resid.stop ∧
      ∀ k < (n - first).toNat, resid'.read k = .ok (residual x y line (first + k)) := by
  have hloop : Lib.Returns (fun _ => False) ((List.range (n - first).toNat).foldlM
      (addResidual ⟨-m, n, x⟩ ⟨-m, n, y⟩ line first) resid)
      fun resid' => resid'.first = 0 ∧ resid'.stop = resid.stop ∧
        ∀ k < (n - first).toNat, resid'.entries k = residual x y line (first + k) := by
    refine Lib.Returns.foldlM_range (P := fun count (resid' : Span) => resid'.first = 0 ∧
      resid'.stop = resid.stop ∧ ∀ k < count, resid'.entries k = residual x y line (first + k))
      ?_ ⟨hresid, rfl, fun k hk => absurd hk (Nat.not_lt_zero k)⟩
    rintro k hk resid' ⟨hzero, hstop, hentries⟩
    have hx : (⟨-m, n, x⟩ : Span).read (first + k) = .ok (x (first + k)) :=
      Span.read_eq (by dsimp only; omega) (by dsimp only; omega)
    have hy : (⟨-m, n, y⟩ : Span).read (first + k) = .ok (y (first + k)) :=
      Span.read_eq (by dsimp only; omega) (by dsimp only; omega)
    rw [addResidual, hx, hy, add_sub_cancel_left]
    simp only [bind, Except.bind]
    rw [Span.write, if_pos (by omega)]
    refine ⟨hzero, hstop, fun j hj => ?_⟩
    rcases Nat.lt_succ_iff_lt_or_eq.mp hj with hj | rfl
    · exact (Function.update_of_ne (by omega) _ _).trans (hentries j hj)
    · exact Function.update_self _ _ _
  cases hresult : (List.range (n - first).toNat).foldlM
      (addResidual ⟨-m, n, x⟩ ⟨-m, n, y⟩ line first) resid with
  | error e => exact (hloop.error hresult).elim
  | ok resid' =>
      obtain ⟨hzero, hstop, hentries⟩ := hloop.value hresult
      refine ⟨resid', rfl, hzero, hstop, fun k hk => ?_⟩
      rw [← hentries k hk]
      exact Span.read_eq (by omega) (by omega)

/-- The critical values are known for all numbers of residuals. -/
theorem readCriticalRuns_eq {i : ℤ} (hi : 0 ≤ i) (hlt : i ≤ 128) :
    readCriticalRuns i = .ok (criticalRuns.getD i.toNat 0) := by
  have hlength : i.toNat < criticalRuns.length := by
    rw [show criticalRuns.length = 130 from rfl]
    omega
  rw [readCriticalRuns, if_pos hi, List.getD_eq_getElem?_getD, List.getElem?_eq_getElem hlength]
  rfl

/-- The condition of the loop to end. -/
theorem endsAt_iff {minSamples start : ℕ} :
    endsAt x y w n m minSamples start = true ↔
      nRunsFromResiduals (residuals x y n (fit x y w n start) (residStart n m start)) >
          criticalRuns.getD ((n : ℤ) - residStart n m start).toNat 0 ∨
        n - start ≤ minSamplesForRegress ∨ n - start ≤ minSamples := by
  rw [endsAt]
  exact decide_eq_true_iff

/-- The residuals fit in the array on the stack. -/
theorem residStart_mem (hn : n ≤ maxPoints) {start : ℕ} (hstart : start ≤ n) :
    -(m : ℤ) ≤ residStart n m start ∧ residStart n m start ≤ start ∧
      n - residStart n m start ≤ 128 := by
  rw [maxPoints] at hn
  rw [residStart, regressRunsRatio]
  omega

/-- What the loop finds: the first index at which it ends. -/
structure RunsTest.Valid (found : RunsTest) (x y w : ℤ → ℚ) (n m minSamples left : ℕ) : Prop where
  start : found.start = findStart x y w n m minSamples left
  line : found.line = fit x y w n found.start
  nruns : found.nruns = nRunsFromResiduals (residuals x y n found.line found.start)
  resid : ∀ i, found.start ≤ i → i < n →
    found.resid.read (i - found.residStart) = .ok (residual x y found.line i)

/-- **The loop of `RGR_FindBestRegression`** ends, with all accesses inside of the arrays. -/
theorem dropSamples_spec (hn : n ≤ maxPoints) {fuel start : ℕ} {resid : Span}
    (hstart : start + minSamplesForRegress ≤ n) (hfuel : n - start ≤ fuel)
    (hresid : resid.first = 0) (hsize : resid.stop = 128) :
    ∃ found, dropSamples ⟨-m, n, x⟩ ⟨-m, n, y⟩ ⟨0, n, w⟩ n m minSamples fuel start resid =
        .ok found ∧ found.Valid x y w n m minSamples.toNat (n - start) := by
  rw [minSamplesForRegress] at hstart
  induction fuel generalizing start resid with
  | zero => omega
  | succ fuel ih =>
      obtain ⟨hlow, hup, hlength⟩ := residStart_mem (m := m) hn (show start ≤ n by omega)
      have hfirst : (if (n : ℤ) - (n - start) * regressRunsRatio < -m then -(m : ℤ)
          else n - (n - start) * regressRunsRatio) = residStart n m start := by
        rw [residStart]
        split
        · omega
        · omega
      obtain ⟨resid', hfill, hzero, hstop, hread⟩ := foldlM_addResidual (n := n) (x := x) (y := y)
        (fit x y w n start) hlow hresid (by omega)
      have hall : resid'.nRunsFromResiduals 0 (n - residStart n m start).toNat =
          .ok (nRunsFromResiduals
            (residuals x y n (fit x y w n start) (residStart n m start))) := by
        rw [residuals_eq]
        refine Span.nRunsFromResiduals_eq fun k hk => ?_
        rw [zero_add]
        exact hread k hk
      have hkeep : ∀ j : ℤ, 0 ≤ j → j < n - residStart n m start → resid'.read j =
          .ok (residual x y (fit x y w n start) (residStart n m start + j)) := by
        intro j hj hlt
        have hj' := hread j.toNat (by omega)
        rwa [Int.toNat_of_nonneg hj] at hj'
      have hkept : resid'.nRunsFromResiduals (start - residStart n m start) (n - start) =
          .ok (nRunsFromResiduals (residuals x y n (fit x y w n start) start)) := by
        rw [residuals_eq, show ((n : ℤ) - start).toNat = n - start by omega]
        refine Span.nRunsFromResiduals_eq fun k hk => ?_
        rw [hkeep _ (by omega) (by omega)]
        congr 2
        omega
      rw [dropSamples, fitLine_eq]
      simp only [bind, Except.bind]
      rw [hfirst, hfill]
      dsimp only
      rw [hall]
      dsimp only
      rw [readCriticalRuns_eq (by omega) hlength]
      dsimp only
      have hends : (nRunsFromResiduals
            (residuals x y n (fit x y w n start) (residStart n m start)) >
            criticalRuns.getD ((n : ℤ) - residStart n m start).toNat 0 ∨
          (n : ℤ) - start ≤ minSamplesForRegress ∨ (n : ℤ) - start ≤ minSamples) ↔
          endsAt x y w n m minSamples.toNat start = true := by
        rw [endsAt_iff]
        refine or_congr Iff.rfl (or_congr ?_ ?_)
        · omega
        · omega
      obtain ⟨left, hleft⟩ : ∃ left, n - start = left + 1 := ⟨n - start - 1, by omega⟩
      have hback : n - (left + 1) = start := by omega
      rw [hleft]
      by_cases hend : endsAt x y w n m minSamples.toNat start = true
      · rw [if_pos (hends.mpr hend)]
        have hfound : findStart x y w n m minSamples.toNat (left + 1) = start := by
          rw [findStart, hback, if_pos hend]
        have hvalid : ∀ nruns,
            nruns = nRunsFromResiduals (residuals x y n (fit x y w n start) start) →
            RunsTest.Valid ⟨start, fit x y w n start, resid', residStart n m start, nruns⟩
              x y w n m minSamples.toNat (left + 1) := by
          refine fun nruns hnruns => ⟨hfound.symm, rfl, hnruns, fun i hi hlt => ?_⟩
          dsimp only at hi ⊢
          rw [hkeep _ (by omega) (by omega), add_sub_cancel]
        split
        next =>
            rw [← hleft, hkept]
            exact ⟨_, rfl, hleft ▸ hvalid _ rfl⟩
        next heq =>
            refine ⟨_, rfl, hvalid _ ?_⟩
            rw [← not_not.mp heq]
      · rw [if_neg (mt hends.mp hend)]
        have hmore : ¬n - start ≤ minSamplesForRegress := by
          intro hle
          exact hend (endsAt_iff.mpr (.inr (.inl hle)))
        rw [minSamplesForRegress] at hmore
        obtain ⟨found, hfound, hvalid⟩ := @ih (start + 1) resid' (by omega) (by omega) hzero
          (hstop.trans hsize)
        refine ⟨found, hfound, ?_, hvalid.line, hvalid.nruns, hvalid.resid⟩
        rw [hvalid.start, findStart, hback, if_neg hend]
        congr 1
        omega

/-- **`RGR_FindBestRegression` accesses only the points it is given**: `x` and `y` from `-m` to
`n - 1`, `w` from `0` to `n - 1`, and its own arrays inside of their bounds. The results are
those of `findBestRegression`. -/
theorem rgrFindBestRegression_eq (sqrt : ℚ → ℚ) (stack x y w : ℤ → ℚ) (n m : ℕ) (minSamples : ℤ)
    (hn : n ≤ maxPoints) :
    rgrFindBestRegression ⟨-m, n, x⟩ ⟨-m, n, y⟩ ⟨0, n, w⟩ n m minSamples sqrt stack =
      .ok (findBestRegression sqrt x y w n m minSamples.toNat) := by
  have hcritical : n * regressRunsRatio < criticalRuns.length := by
    rw [maxPoints] at hn
    rw [regressRunsRatio, show criticalRuns.length = 130 from rfl]
    omega
  rw [rgrFindBestRegression, if_neg (not_not.mpr hn), if_neg (not_not.mpr hcritical),
    findBestRegression]
  split
  next => rfl
  next hthree =>
      obtain ⟨found, hfound, hvalid⟩ := dropSamples_spec (m := m) (x := x) (y := y) (w := w) hn
        (show 0 + minSamplesForRegress ≤ n by omega) (Nat.sub_le n 0)
        (show (⟨0, maxPoints * regressRunsRatio, stack⟩ : Span).first = 0 from rfl) rfl
      have hstart : found.start = findStart x y w n m minSamples.toNat n := hvalid.start
      have hturn : ∀ i ∈ List.range' found.start (n - found.start), ∀ ss : ℚ,
          addSquare ⟨0, n, w⟩ found.resid found.residStart ss i =
            .ok (ss + residual x y found.line i * residual x y found.line i / w i) := by
        intro i hi ss
        have hbounds := List.mem_range'_1.mp hi
        have hw : (⟨0, n, w⟩ : Span).read i = .ok (w i) :=
          Span.read_eq (by dsimp only; omega) (by dsimp only; omega)
        rw [addSquare, hvalid.resid i hbounds.1 (by omega), hw]
        rfl
      rw [hfound]
      simp only [bind, Except.bind]
      rw [Lib.foldlM_eq_ok hturn, foldl_add_eq, zero_add, hvalid.nruns, hvalid.line, hstart,
        sumFrom_eq]
      rfl

end

end Chrony.Regress
