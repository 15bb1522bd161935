import Chrony.Quantiles
import Mathlib.Data.List.GetD
import Mathlib.Data.List.Induction
import Mathlib.Tactic.Linarith
import Mathlib.Order.Bounds.Basic

/-!
# Quantiles of Accumulated Values

The estimates of all quantiles stay close to the values which were accumulated since the last
reset, whatever the values and the random numbers are. The first values are sorted into the
estimates, and each following value moves an estimate over it by no more than a quarter of the
minimum step.

## Main results

* `updateEstimate_bounds`: one update of an estimate.
* `Initial.insert`: a value is inserted to the sorted values.
* `run_estimates`: the estimates after any sequence of operations.
-/

namespace Chrony.Quantiles

/-! ### Assignments to groups -/

section Groups

variable {quants : ℕ → Quantile} {r : ℕ}

/-- An index in a group is before a group if its group is. -/
theorem group_lt_iff {i j k : ℕ} (hj : j < r) : i * r + j < k * r ↔ i < k := by
  constructor
  · intro h
    by_contra hle
    have hmul := Nat.mul_le_mul_right r (Nat.not_lt.mp hle)
    omega
  · intro h
    have hmul := Nat.mul_le_mul_right r (Nat.succ_le_of_lt h)
    rw [Nat.succ_mul] at hmul
    omega

theorem setGroup_eq (first : ℕ) (est : ℚ) (n : ℕ) (quants : ℕ → Quantile) (i : ℕ) :
    setGroup first est n quants i =
      if first ≤ i ∧ i < first + n then { quants i with est } else quants i := by
  induction n with
  | zero => rw [setGroup, if_neg (by omega)]
  | succ n ih =>
      rw [setGroup, setEst]
      by_cases hi : i = first + n
      · rw [hi, Function.update_self, if_pos (by omega), ← hi, ih, if_neg (by omega)]
      · rw [Function.update_of_ne hi, ih]
        exact if_congr (by omega) rfl rfl

theorem setGroup_step (first : ℕ) (est : ℚ) (n : ℕ) (quants : ℕ → Quantile) (i : ℕ) :
    (setGroup first est n quants i).step = (quants i).step := by
  rw [setGroup_eq]
  split <;> rfl

/-- The estimates which are set by the last loop are copies of the one before them. -/
theorem duplicateLast_eq (i n : ℕ) (quants : ℕ → Quantile) (k : ℕ) :
    duplicateLast i n quants k =
      if i ≤ k ∧ k < i + n then { quants k with est := (quants (i - 1)).est } else quants k := by
  induction n generalizing i quants with
  | zero => rw [duplicateLast, if_neg (by omega)]
  | succ n ih =>
      rw [duplicateLast, ih, Nat.add_sub_cancel, setEst, Function.update_self]
      by_cases hk : k = i
      · rw [hk, Function.update_self, if_neg (by omega), if_pos (by omega)]
      · rw [Function.update_of_ne hk]
        exact if_congr (by omega) rfl rfl

theorem duplicateLast_step (i n : ℕ) (quants : ℕ → Quantile) (k : ℕ) :
    (duplicateLast i n quants k).step = (quants k).step := by
  rw [duplicateLast_eq]
  split <;> rfl

/-- **Larger values are moved** to the next group, down to the position of the new value. -/
theorem moveLarger_spec (hr : 0 < r) (value : ℚ) (n : ℕ) (quants : ℕ → Quantile) :
    ∃ k quants', moveLarger r value n quants = (k, quants') ∧ k ≤ n ∧
      (∀ i < k * r, quants' i = quants i) ∧
      (∀ i, k ≤ i → i < n → value < (quants (i * r)).est ∧
        ∀ j < r, (quants' ((i + 1) * r + j)).est = (quants (i * r)).est) ∧
      (0 < k → (quants ((k - 1) * r)).est ≤ value) ∧
      (∀ i, (quants' i).step = (quants i).step) ∧
      ∀ i ≥ (n + 1) * r, quants' i = quants i := by
  induction n generalizing quants with
  | zero =>
      exact ⟨0, quants, rfl, le_rfl, fun _ _ => rfl, fun i _ hi => absurd hi (Nat.not_lt_zero i),
        fun h => absurd h (Nat.lt_irrefl 0), fun _ => rfl, fun _ _ => rfl⟩
  | succ n ih =>
      rw [moveLarger]
      split
      next hlarger =>
          obtain ⟨k, quants', hmove, hk, hkept, hmoved, hlast, hstep, hafter⟩ :=
            ih (setGroup ((n + 1) * r) (quants (n * r)).est r quants)
          -- the groups before the one which is overwritten
          have hbefore : ∀ i < (n + 1) * r,
              setGroup ((n + 1) * r) (quants (n * r)).est r quants i = quants i := by
            intro i hi
            rw [setGroup_eq, if_neg (by omega)]
          have hfirst : ∀ i ≤ n, i * r < (n + 1) * r := fun i hi =>
            Nat.mul_lt_mul_of_pos_right (Nat.lt_succ_of_le hi) hr
          have hgroups : (n + 1 + 1) * r = (n + 1) * r + r := Nat.succ_mul _ r
          refine ⟨k, quants', hmove, Nat.le_succ_of_le hk, fun i hi => ?_, fun i hki hi => ?_,
            fun h => ?_, fun i => ?_, fun i hi => ?_⟩
          · have hle : k * r ≤ (n + 1) * r := Nat.mul_le_mul_right r (Nat.le_succ_of_le hk)
            rw [hkept i hi, hbefore i (by omega)]
          · rcases Nat.lt_succ_iff_lt_or_eq.mp hi with hi | rfl
            · have hm := hmoved i hki hi
              rwa [hbefore _ (hfirst i hi.le)] at hm
            · refine ⟨hlarger, fun j hj => ?_⟩
              rw [hafter _ (Nat.le_add_right _ j), setGroup_eq, if_pos (by omega)]
          · have hl := hlast h
            rwa [hbefore _ (hfirst (k - 1) (by omega))] at hl
          · rw [hstep, setGroup_step]
          · rw [hafter i (by omega), setGroup_eq, if_neg (by omega)]
      next hle =>
          exact ⟨n + 1, quants, rfl, le_rfl, fun _ _ => rfl,
            fun i hki hi => absurd hki (Nat.not_le.mpr hi), fun _ => not_lt.mp hle, fun _ => rfl,
            fun _ _ => rfl⟩

end Groups

/-! ### Initial values -/

/-- **The estimates of initial values** in sorted order, with the largest one in those which are
not set yet. -/
structure Initial (config : Config) (quants : ℕ → Quantile) (l : List ℚ) : Prop where
  sorted : l.Pairwise (· ≤ ·)
  groups : ∀ i (h : i < l.length), ∀ j < config.repeats,
    (quants (i * config.repeats + j)).est = l[i]
  rest : ∀ i ≥ l.length * config.repeats, i < config.nQuants →
    (quants i).est = l.getD (l.length - 1) 0

/-- A value is inserted to a sorted list between the smaller and the larger values. -/
theorem pairwise_insertIdx {l : List ℚ} {k : ℕ} {value : ℚ} (hl : l.Pairwise (· ≤ ·))
    (hk : k ≤ l.length) (hsmaller : ∀ i (h : i < l.length), i < k → l[i] ≤ value)
    (hlarger : ∀ i (h : i < l.length), k ≤ i → value ≤ l[i]) :
    (l.insertIdx k value).Pairwise (· ≤ ·) := by
  have hsorted := List.pairwise_iff_getElem.mp hl
  have hlen := List.length_insertIdx_of_le_length hk value
  refine List.pairwise_iff_getElem.mpr fun i j hi hj hij => ?_
  rw [hlen] at hj
  rw [List.getElem_insertIdx, List.getElem_insertIdx]
  rcases lt_trichotomy i k with hik | rfl | hik
  · rw [dif_pos hik]
    rcases lt_trichotomy j k with hjk | rfl | hjk
    · rw [dif_pos hjk]
      exact hsorted i j _ _ hij
    · rw [dif_neg (lt_irrefl j), dif_pos rfl]
      exact hsmaller i _ hik
    · rw [dif_neg hjk.not_gt, dif_neg hjk.ne']
      exact hsorted i (j - 1) _ _ (by omega)
  · rw [dif_neg (lt_irrefl i), dif_pos rfl, dif_neg hij.not_gt, dif_neg hij.ne']
    exact hlarger (j - 1) _ (by omega)
  · rw [dif_neg hik.not_gt, dif_neg hik.ne', dif_neg (hik.trans hij).not_gt,
      dif_neg (hik.trans hij).ne']
    exact hsorted (i - 1) (j - 1) _ _ (by omega)

/-- **A value is inserted** to the initial values. -/
theorem Initial.insert {config : Config} {quants : ℕ → Quantile} {l : List ℚ}
    (h : Initial config quants l) (value : ℚ) {k : ℕ} {quants' : ℕ → Quantile}
    (hmove : moveLarger config.repeats value l.length quants = (k, quants')) :
    Initial config (duplicateLast ((l.length + 1) * config.repeats)
      (config.nQuants - (l.length + 1) * config.repeats)
      (setGroup (k * config.repeats) value config.repeats quants')) (l.insertIdx k value) := by
  have hr : 0 < config.repeats := config.one_le_repeats
  obtain ⟨k', moved, hmove', hk, hkept, hmoved, hlast, -, -⟩ :=
    moveLarger_spec hr value l.length quants
  obtain ⟨rfl, rfl⟩ := Prod.mk.inj (hmove'.symm.trans hmove)
  have hnew : (l.insertIdx k' value).length = l.length + 1 :=
    List.length_insertIdx_of_le_length hk value
  -- the first estimate of a group
  have hgroup : ∀ i (hi : i < l.length), (quants (i * config.repeats)).est = l[i] := fun i hi =>
    h.groups i hi 0 hr
  have hset : ∀ i (hi : i < (l.insertIdx k' value).length), ∀ j < config.repeats,
      (setGroup (k' * config.repeats) value config.repeats moved (i * config.repeats + j)).est =
        (l.insertIdx k' value)[i] := by
    intro i hi j hj
    have hlt := group_lt_iff (i := i) (k := k') hj
    have hle := group_lt_iff (i := i) (k := k' + 1) hj
    rw [Nat.succ_mul] at hle
    rw [setGroup_eq, List.getElem_insertIdx]
    rcases lt_trichotomy i k' with hik | rfl | hik
    · rw [if_neg (by omega), dif_pos hik, hkept _ (hlt.mpr hik)]
      exact h.groups i _ j hj
    · rw [if_pos (by omega), dif_neg (lt_irrefl i), dif_pos rfl]
    · rw [if_neg (by omega), dif_neg hik.not_gt, dif_neg hik.ne']
      obtain ⟨i, rfl⟩ := Nat.exists_eq_add_of_lt hik
      have hil : k' + i < l.length := by omega
      rw [(hmoved (k' + i) (by omega) hil).2 j hj, hgroup _ hil]
      rfl
  refine ⟨?_, fun i hi j hj => ?_, fun i hi hlt => ?_⟩
  · refine pairwise_insertIdx h.sorted hk (fun i hi hik => ?_) fun i hi hki => ?_
    · have hle := hlast (by omega)
      rw [hgroup _ (by omega)] at hle
      rcases Nat.lt_or_ge i (k' - 1) with hlt | hge
      · exact (List.pairwise_iff_getElem.mp h.sorted i (k' - 1) _ _ hlt).trans hle
      · obtain rfl : i = k' - 1 := by omega
        exact hle
    · exact ((hmoved i hki hi).1.trans_eq (hgroup i hi)).le
  · have hbefore := (group_lt_iff (i := i) (k := l.length + 1) hj).mpr (by omega)
    rw [duplicateLast_eq, if_neg (by omega)]
    exact hset i hi j hj
  · have hmul : (l.length + 1) * config.repeats =
        l.length * config.repeats + config.repeats := Nat.succ_mul _ _
    rw [hnew] at hi
    rw [duplicateLast_eq, if_pos (by omega), hnew, Nat.add_sub_cancel,
      List.getD_eq_getElem _ _ (by omega),
      ← hset l.length (by omega) (config.repeats - 1) (by omega), hmul, Nat.add_sub_assoc hr]

namespace Initial

variable {config : Config} {quants : ℕ → Quantile} {l : List ℚ}

/-- Each estimate is the one of its group, or the largest one. -/
theorem est_eq (h : Initial config quants l) {i : ℕ} (hi : i < config.nQuants) :
    (quants i).est = l.getD (min (i / config.repeats) (l.length - 1)) 0 := by
  have hr : 0 < config.repeats := config.one_le_repeats
  rcases Nat.lt_or_ge (i / config.repeats) l.length with hlt | hge
  · rw [Nat.min_eq_left (by omega), List.getD_eq_getElem _ _ hlt,
      ← h.groups _ hlt (i % config.repeats) (Nat.mod_lt i hr), Nat.mul_comm, Nat.div_add_mod]
  · rw [Nat.min_eq_right (by omega)]
    exact h.rest i ((Nat.le_div_iff_mul_le hr).mp hge) hi

theorem est_mem (h : Initial config quants l) (hne : l ≠ []) {i : ℕ} (hi : i < config.nQuants) :
    (quants i).est ∈ l := by
  have hpos := List.length_pos_iff.mpr hne
  rw [h.est_eq hi, List.getD_eq_getElem _ _ (by omega)]
  exact List.getElem_mem _

/-- **The estimates are sorted.** -/
theorem est_le (h : Initial config quants l) {i j : ℕ} (hij : i ≤ j) (hj : j < config.nQuants) :
    (quants i).est ≤ (quants j).est := by
  have hdiv := Nat.div_le_div_right (c := config.repeats) hij
  rw [h.est_eq (by omega), h.est_eq hj]
  rcases List.eq_nil_or_concat' l with rfl | ⟨l', last, rfl⟩
  · exact le_rfl
  · have hpos : 0 < (l' ++ [last]).length := by rw [List.length_append]; exact Nat.succ_pos _
    rw [List.getD_eq_getElem _ _ (by omega), List.getD_eq_getElem _ _ (by omega)]
    rcases Nat.lt_or_eq_of_le (show min (i / config.repeats) ((l' ++ [last]).length - 1) ≤
      min (j / config.repeats) ((l' ++ [last]).length - 1) by omega) with hlt | heq
    · exact List.pairwise_iff_getElem.mp h.sorted _ _ _ _ hlt
    · simp only [heq, le_refl]

end Initial

/-! ### Updates -/

section Updates

variable {quantile : Quantile} {value p rand minStep negStepLimit lo hi : ℚ}

/-- A step is not below its limit. -/
theorem negStepLimit_le_step (h : negStepLimit ≤ quantile.step) : negStepLimit ≤
    (updateEstimate quantile value p rand minStep negStepLimit).step := by
  have hlimit : ∀ q : Quantile, negStepLimit ≤
      (if q.step < negStepLimit then { q with step := negStepLimit } else q).step := by
    intro q
    split
    · exact le_rfl
    next hge => exact not_lt.mp hge
  rw [updateEstimate]
  split
  · split
    · exact h
    · exact hlimit _
  · split
    · exact h
    · exact hlimit _

/-- The estimate is not changed by the limit of the step. -/
theorem limit_est (est step : ℚ) (sign : ℤ) :
    (if step < negStepLimit then Quantile.mk est negStepLimit sign else ⟨est, step, sign⟩).est =
      est := by
  split <;> rfl

/-- **An updated estimate** moves in the direction of the value, over it by no more than a quarter
of the minimum step. -/
theorem updateEstimate_bounds (hstep : 0 < minStep) (hlo : lo ≤ value) (hhi : value ≤ hi)
    (hest : lo - minStep / 4 ≤ quantile.est ∧ quantile.est ≤ hi + minStep / 4) :
    lo - minStep / 4 ≤ (updateEstimate quantile value p rand minStep negStepLimit).est ∧
      (updateEstimate quantile value p rand minStep negStepLimit).est ≤ hi + minStep / 4 := by
  obtain ⟨hmin, hmax⟩ := hest
  have hmove : ∀ step : ℚ, 0 < if step > minStep then step else minStep := by
    intro step
    split
    next hgt => exact hstep.trans hgt
    next => exact hstep
  rw [updateEstimate]
  split
  next hge =>
      split
      · exact ⟨hmin, hmax⟩
      · dsimp only
        rw [limit_est]
        generalize quantile.step + (if quantile.sign > 0 then minStep else -minStep) = step
        have hpos := hmove step
        generalize (if step > minStep then step else minStep) = move at hpos ⊢
        split
        · constructor <;> linarith
        · constructor <;> linarith
  next hlt =>
      split
      · exact ⟨hmin, hmax⟩
      · dsimp only
        rw [limit_est]
        generalize quantile.step + (if quantile.sign < 0 then minStep else -minStep) = step
        have hpos := hmove step
        generalize (if step > minStep then step else minStep) = move at hpos ⊢
        split
        · constructor <;> linarith
        · constructor <;> linarith

end Updates

/-! ### Runs -/

/-- An operation with an instance. -/
inductive Op
  | reset
  | accumulate (value : ℚ) (rand : ℕ → ℚ)

/-- The effect of an operation, if no assertion fails. -/
def step (inst : Instance) : Op → Option Instance
  | .reset => some inst.reset
  | .accumulate value rand => inst.accumulate value rand

/-- A sequence of operations with a new instance. -/
def run (config : Config) (ops : List Op) : Option Instance := ops.foldlM step (.create config)

/-- The values which were accumulated since the last reset. -/
def sinceReset (ops : List Op) : List ℚ :=
  ops.foldl (fun values op =>
    match op with
    | .reset => []
    | .accumulate value _ => values ++ [value]) []

/-- The number of quantiles. -/
def Config.numQuantiles (config : Config) : ℕ := config.maxK - config.minK + 1

/-- **What holds for the values since the last reset.** -/
structure Valid (inst : Instance) (values : List ℚ) : Prop where
  nSet : inst.nSet = min values.length inst.config.numQuantiles
  initial : values.length ≤ inst.config.numQuantiles →
    ∃ l, l.Perm values ∧ Initial inst.config inst.quants l
  bounds : values ≠ [] → ∀ lo hi, (∀ v ∈ values, lo ≤ v ∧ v ≤ hi) → ∀ i < inst.config.nQuants,
    lo - inst.config.minStep / 4 ≤ (inst.quants i).est ∧
      (inst.quants i).est ≤ hi + inst.config.minStep / 4
  steps : ∀ i < inst.config.nQuants, inst.config.negStepLimit ≤ (inst.quants i).step

theorem Config.negStepLimit_le (config : Config) : config.negStepLimit ≤ config.minStep := by
  have hpos := config.minStep_pos
  have hmul := mul_nonneg (Nat.cast_nonneg (α := ℚ) config.largeStepDelay) hpos.le
  rw [negStepLimit, neg_mul]
  linarith

theorem valid_reset (inst : Instance) : Valid inst.reset [] where
  nSet := (Nat.zero_min _).symm
  initial _ := by
    refine ⟨[], .nil, .nil, fun i hi => absurd hi (Nat.not_lt_zero i), fun i _ hi => ?_⟩
    exact congrArg Quantile.est (if_pos hi)
  bounds h := absurd rfl h
  steps i hi := (congrArg Quantile.step (if_pos hi)).symm ▸ inst.config.negStepLimit_le

theorem Config.nQuants_eq (config : Config) :
    config.nQuants = config.numQuantiles * config.repeats := rfl

/-- There are values to be set as long as there are fewer values than quantiles. -/
theorem Valid.lt_iff {inst : Instance} {values : List ℚ} (h : Valid inst values) :
    inst.nSet * inst.config.repeats < inst.config.nQuants ↔
      values.length < inst.config.numQuantiles := by
  rw [Config.nQuants_eq, Nat.mul_lt_mul_right inst.config.one_le_repeats, h.nSet]
  omega

/-- **An initial value is accumulated.** -/
theorem Valid.insertInitialValue {inst inst' : Instance} {values : List ℚ} {value : ℚ}
    (h : Valid inst values) (hlt : values.length < inst.config.numQuantiles)
    (hset : inst.insertInitialValue value = some inst') : Valid inst' (values ++ [value]) := by
  obtain ⟨l, hperm, hl⟩ := h.initial hlt.le
  have hn : inst.nSet = l.length := by rw [h.nSet, Nat.min_eq_left hlt.le, hperm.length_eq]
  rw [Instance.insertInitialValue, if_pos (h.lt_iff.mpr hlt), hn] at hset
  obtain ⟨k, quants', hmove, hk, -, -, -, hstep, -⟩ :=
    moveLarger_spec inst.config.one_le_repeats value l.length inst.quants
  simp only [hmove] at hset
  obtain rfl := Option.some.inj hset
  have hnew := hl.insert value hmove
  have hperm' : (l.insertIdx k value).Perm (values ++ [value]) :=
    (List.perm_insertIdx value l hk).trans
      ((hperm.cons value).trans (List.perm_append_singleton value values).symm)
  refine ⟨?_, fun _ => ⟨_, hperm', hnew⟩, fun hne lo hi hvalues i hi' => ?_, fun i hi => ?_⟩
  · rw [List.length_append, List.length_singleton, ← hperm.length_eq, Nat.min_eq_left]
    exact hperm.length_eq ▸ hlt
  · have hpos := inst.config.minStep_pos
    have hmem := hperm'.mem_iff.mp (hnew.est_mem (fun hnil => hne ?_) hi')
    · obtain ⟨hlo, hhi⟩ := hvalues _ hmem
      constructor <;> linarith
    · exact (hnil ▸ hperm').nil_eq.symm
  · dsimp only
    rw [duplicateLast_step, setGroup_step, hstep]
    exact h.steps i hi

/-- **A value is accumulated.** -/
theorem Valid.accumulate {inst inst' : Instance} {values : List ℚ} {value : ℚ} {rand : ℕ → ℚ}
    (h : Valid inst values) (hacc : inst.accumulate value rand = some inst') :
    Valid inst' (values ++ [value]) := by
  rw [Instance.accumulate] at hacc
  split at hacc
  next hset => exact h.insertInitialValue (h.lt_iff.mp hset) hacc
  next hset =>
      obtain rfl := Option.some.inj hacc
      have hlen := mt h.lt_iff.mpr hset
      have hne : values ≠ [] := by
        rintro rfl
        exact hlen (Nat.succ_pos _)
      refine ⟨?_, fun hle => ?_, fun _ lo hi hvalues i hi' => ?_, fun i hi => ?_⟩
      · have hn := h.nSet
        dsimp only
        rw [List.length_append, List.length_singleton]
        omega
      · rw [List.length_append, List.length_singleton] at hle
        exact absurd (Nat.lt_of_succ_le hle) hlen
      · dsimp only at hi' ⊢
        obtain ⟨hold, hnew⟩ := List.forall_mem_append.mp hvalues
        obtain ⟨hlo, hhi⟩ := hnew value (List.mem_singleton_self value)
        rw [if_pos hi']
        exact updateEstimate_bounds inst.config.minStep_pos hlo hhi (h.bounds hne lo hi hold i hi')
      · dsimp only at hi ⊢
        rw [if_pos hi]
        exact negStepLimit_le_step (h.steps i hi)

/-- **The estimates after any operations.** No assertion fails. The estimates are not further
than a quarter of the minimum step from the values which were accumulated since the last reset, and
the steps are not below their limit. As long as there are no more values than quantiles, the
estimates are sorted and the values are repeated in the groups which were set. -/
theorem run_estimates (config : Config) (ops : List Op) :
    ∃ inst, run config ops = some inst ∧ inst.config = config ∧
      (∀ lo hi, IsLeast {v | v ∈ sinceReset ops} lo → IsGreatest {v | v ∈ sinceReset ops} hi →
        ∀ i < config.nQuants, lo - config.minStep / 4 ≤ (inst.quants i).est ∧
          (inst.quants i).est ≤ hi + config.minStep / 4) ∧
      (∀ i < config.nQuants, config.negStepLimit ≤ (inst.quants i).step) ∧
      ((sinceReset ops).length ≤ config.numQuantiles →
        inst.nSet = (sinceReset ops).length ∧
        (∀ i j, i ≤ j → j < config.nQuants → (inst.quants i).est ≤ (inst.quants j).est) ∧
        ∃ l : List ℚ, l.Perm (sinceReset ops) ∧ ∀ i (h : i < l.length), ∀ j < config.repeats,
          (inst.quants (i * config.repeats + j)).est = l[i]) ∧
      ∀ leftFirst k, inst.getMinK ≤ k → k ≤ inst.getMaxK →
        ∃ est, inst.getQuantile leftFirst k = some est := by
  have hrun : ∃ inst, run config ops = some inst ∧ inst.config = config ∧
      Valid inst (sinceReset ops) := by
    induction ops using List.reverseRecOn with
    | nil => exact ⟨_, rfl, rfl, valid_reset _⟩
    | append_singleton ops op ih =>
        obtain ⟨inst, hinst, hconfig, hvalid⟩ := ih
        rw [run, List.foldlM_append, ← run, hinst, sinceReset, List.foldl_append, ← sinceReset]
        cases op with
        | reset => exact ⟨inst.reset, rfl, hconfig, valid_reset inst⟩
        | accumulate value rand =>
            obtain ⟨inst', hacc, hconfig'⟩ := inst.accumulate_isSome value rand
            refine ⟨inst', ?_, hconfig'.trans hconfig, hvalid.accumulate hacc⟩
            rw [Option.bind_eq_bind, Option.bind_some, List.foldlM_cons, step, hacc]
            rfl
  obtain ⟨inst, hinst, rfl, hvalid⟩ := hrun
  refine ⟨inst, hinst, rfl, fun lo hi hlo hhi => ?_, hvalid.steps, fun hlen => ?_,
    fun leftFirst k hmin hmax => ?_⟩
  · exact hvalid.bounds (List.ne_nil_of_mem hlo.1) lo hi fun v hv => ⟨hlo.2 hv, hhi.2 hv⟩
  · obtain ⟨l, hperm, hl⟩ := hvalid.initial hlen
    refine ⟨?_, fun i j => hl.est_le, l, hperm, hl.groups⟩
    rw [hvalid.nSet, Nat.min_eq_left hlen]
  · exact inst.getQuantile_isSome leftFirst hmin (inst.getMaxK_eq ▸ hmax)

end Chrony.Quantiles
