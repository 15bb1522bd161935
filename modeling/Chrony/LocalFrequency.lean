import Chrony.Local

/-!
# The Frequency of the Local Clock

What the callers of `local.c` know about the frequency of the clock. They set a frequency, change
it by a fraction, or set a compensation of the temperature. The compensation is a part of the
frequency of the driver, but not of the frequency which `LCL_ReadAbsoluteFrequency` returns.

The requests which a run makes decide what is read at its end, whatever else happens in it. The
limit on the frequency applies to the frequency of the driver when it is changed by a fraction, so
the compensation has an effect there.

## Main results

* `World.run_frequency`: the frequency after a run is that after its requests.
* `run_readAbsoluteFrequency`: the frequency which was set last is read, for any compensation.
-/

namespace Chrony.Local

open SourceStats (clamp)
open SysGeneric (Config million)

/-- **A request** to change the frequency. -/
inductive Request
  | set (afreqPpm : ℚ)
  | add (dfreq : ℚ)
  | compensate (comp : ℚ)

/-- **The frequency for the callers**, which does not have the compensation in it. -/
structure Frequency where
  uncompPpm : ℚ
  compPpm : ℚ
  maxPpm : ℚ

/-- The frequency of the driver. -/
def Frequency.driverPpm (f : Frequency) : ℚ :=
  f.uncompPpm * (1 - 1 / 10 ^ 6 * f.compPpm) - f.compPpm

/-- What a request is for. -/
def Frequency.apply (f : Frequency) : Request → Frequency
  | .set afreqPpm => { f with uncompPpm := clampFreq f.maxPpm afreqPpm }
  | .add dfreq =>
      { f with
        uncompPpm :=
          (clampFreq f.maxPpm (f.driverPpm + dfreq * (million - f.driverPpm)) + f.compPpm) /
            (1 - 1 / 10 ^ 6 * f.compPpm) }
  | .compensate comp => { f with compPpm := comp }

@[simp] theorem Frequency.apply_maxPpm (f : Frequency) (request : Request) :
    (f.apply request).maxPpm = f.maxPpm := by
  cases request <;> rfl

theorem Frequency.foldl_apply_maxPpm (f : Frequency) (requests : List Request) :
    (requests.foldl Frequency.apply f).maxPpm = f.maxPpm := by
  induction requests generalizing f with
  | nil => rfl
  | cons request requests ih => rw [List.foldl_cons, ih, f.apply_maxPpm]

/-- Compensations do not change the frequency without them. -/
theorem Frequency.foldl_compensate {requests : List Request} (f : Frequency)
    (h : ∀ request ∈ requests, ∃ comp, request = .compensate comp) :
    (requests.foldl Frequency.apply f).uncompPpm = f.uncompPpm := by
  induction requests generalizing f with
  | nil => rfl
  | cons request requests ih =>
      obtain ⟨comp, rfl⟩ := h request List.mem_cons_self
      rw [List.foldl_cons, ih _ fun r hr => h r (List.mem_cons_of_mem _ hr)]
      rfl

variable {H A : Type} {config : Config} {env : SourceStats.Env}

/-- The frequency in the state of the clock. -/
def State.frequency (s : State H A) : Frequency :=
  ⟨s.readAbsoluteFrequency, s.tempCompPpm, s.maxFreqPpm⟩

variable {s s' : State H A}

/-- The frequency of the clock is that of the driver. -/
theorem State.Sound.driverPpm (h : s.Sound config) : s.currentFreqPpm = s.frequency.driverPpm :=
  currentFreqPpm_eq h.comp

/-- A new frequency of the driver. -/
theorem addFrequency_frequency (h : s.Sound config) (d : Drivers) (dfreq : ℚ) :
    (s.addFrequency config d dfreq).1.frequency = s.frequency.apply (.add dfreq) := by
  have hbase := (setFrequency_spec h.valid
    (clampFreq s.maxFreqPpm (s.currentFreqPpm + dfreq * (million - s.currentFreqPpm)))
    d.setFreq).2.1
  rw [Frequency.apply, ← h.driverPpm, State.frequency, readAbsoluteFrequency_eq, State.addFrequency]
  dsimp only [State.drvSetFreq]
  rw [hbase]
  rfl

/-! ### The functions -/

variable [DecidableEq H] [DecidableEq A]

@[simp] theorem invokeParameterChangeHandlers_frequency (change : Change) (s : State H A) :
    (s.invokeParameterChangeHandlers change).frequency = s.frequency := by
  rw [State.invokeParameterChangeHandlers, foldl_call]
  rfl

theorem setAbsoluteFrequency_frequency (h : s.Inv config) (d : Drivers) (afreqPpm : ℚ) :
    (s.setAbsoluteFrequency config d afreqPpm).frequency = s.frequency.apply (.set afreqPpm) := by
  have htemp : (s.setAbsoluteFrequency config d afreqPpm).tempCompPpm = s.tempCompPpm ∧
      (s.setAbsoluteFrequency config d afreqPpm).maxFreqPpm = s.maxFreqPpm := by
    rw [State.setAbsoluteFrequency]
    dsimp only [State.invokeParameterChangeHandlers]
    rw [foldl_call]
    exact ⟨rfl, rfl⟩
  rw [State.frequency, (setAbsoluteFrequency_spec h d afreqPpm).2, htemp.1, htemp.2]
  rfl

theorem accumulateDeltaFrequency_frequency (h : s.Sound config) (d : Drivers) (dfreq : ℚ) :
    (s.accumulateDeltaFrequency config d dfreq).frequency = s.frequency.apply (.add dfreq) := by
  rw [State.accumulateDeltaFrequency, invokeParameterChangeHandlers_frequency]
  exact addFrequency_frequency h d dfreq

theorem accumulateOffset_frequency (d : Drivers) (offset corrRate : ℚ) (s : State H A) :
    (s.accumulateOffset config env d offset corrRate).2.frequency = s.frequency := by
  rw [State.accumulateOffset]
  dsimp only
  split
  · rfl
  · rw [invokeParameterChangeHandlers_frequency]
    rfl

theorem applyStepOffset_frequency (d : Drivers) (offset : ℚ) (s : State H A) :
    (s.applyStepOffset config env d offset).2.frequency = s.frequency := by
  rw [State.applyStepOffset]
  dsimp only
  split
  · rfl
  · split
    · rfl
    · rw [invokeParameterChangeHandlers_frequency]
      rfl

/-- The frequency is changed only if the offset is sane. -/
theorem accumulateFrequencyAndOffset_frequency (h : s.Sound config) (d : Drivers)
    (dfreq doffset corrRate : ℚ) :
    (s.accumulateFrequencyAndOffset config env d dfreq doffset corrRate).2.frequency =
      if checkOffset env (s.clock.cooked config) doffset = true then
        s.frequency.apply (.add dfreq)
      else s.frequency := by
  have hnow : (s.cookTime config d.driverErr).2 = s.clock.cooked config := rfl
  have hsound : (s.cookTime config d.driverErr).1.Sound config :=
    { h with valid := (SysGeneric.offsetConvert_cooked h.valid s.clock.raw d.driverErr).1 }
  rw [State.accumulateFrequencyAndOffset]
  dsimp only
  rw [hnow]
  cases checkOffset env (s.clock.cooked config) doffset with
  | false => rfl
  | true =>
      rw [if_neg Bool.true_eq_false.mp, if_pos rfl, invokeParameterChangeHandlers_frequency]
      exact addFrequency_frequency hsound d dfreq

theorem cancelOffsetCorrection_frequency (d : Drivers) (s : State H A) :
    (s.cancelOffsetCorrection config env d).frequency = s.frequency :=
  accumulateOffset_frequency d _ 0 _

theorem makeStep_frequency (d revert : Drivers) (s : State H A) :
    (s.makeStep config env d revert).2.frequency = s.frequency := by
  rw [State.makeStep]
  dsimp only
  split
  · rfl
  · split
    · exact (accumulateOffset_frequency revert _ 0 _).trans
        ((applyStepOffset_frequency d _ _).trans (accumulateOffset_frequency d _ 0 _))
    · exact (applyStepOffset_frequency d _ _).trans (accumulateOffset_frequency d _ 0 _)

omit [DecidableEq H] [DecidableEq A] in
theorem setTempComp_frequency (h : s.Inv config) (d : Drivers) {comp : ℚ}
    (hcomp : |comp| ≤ maxComp) :
    (s.setTempComp config d comp).frequency = s.frequency.apply (.compensate comp) := by
  obtain ⟨-, htemp, hread, -⟩ := setTempComp_spec h d hcomp
  have hmax : (s.setTempComp config d comp).maxFreqPpm = s.maxFreqPpm := by
    rw [State.setTempComp]
    split <;> rfl
  rw [State.frequency, htemp, hread, hmax]
  rfl

/-! ### Runs -/

/-- The requests of a step. An update of the frequency and the offset is refused if the time would
not be sane. -/
def Op.requests (config : Config) (env : SourceStats.Env) (s : State H A) : Op H A → List Request
  | .setAbsoluteFrequency _ afreqPpm => [.set afreqPpm]
  | .accumulateDeltaFrequency _ dfreq => [.add dfreq]
  | .accumulateFrequencyAndOffset _ dfreq doffset _
  | .accumulateFrequencyAndOffsetNoHandlers _ dfreq doffset _ =>
      if checkOffset env (s.clock.cooked config) doffset = true then [.add dfreq] else []
  | .setTempComp _ comp => [.compensate comp]
  | _ => []

/-- **The requests of a run**, as far as it gets. -/
def World.requests (config : Config) (env : SourceStats.Env) (w : World H A) :
    List (Op H A) → List Request
  | [] => []
  | op :: ops =>
      op.requests config env w.state ++
        match w.step config env op with
        | .ok w' => w'.requests config env ops
        | .error _ => []

/-- The steps which do not change the frequency without the compensation. -/
def Op.KeepsFrequency : Op H A → Prop
  | .setAbsoluteFrequency .. | .accumulateDeltaFrequency .. | .accumulateFrequencyAndOffset ..
  | .accumulateFrequencyAndOffsetNoHandlers .. => False
  | _ => True

variable {w w' : World H A}

/-- **One step**: the frequency is changed by the requests. -/
theorem World.step_frequency (h : w.state.Inv config) {op : Op H A} (hpossible : w.Possible op)
    (hstep : w.step config env op = .ok w') :
    w'.state.frequency =
      (op.requests config env w.state).foldl Frequency.apply w.state.frequency := by
  obtain ⟨happly, -⟩ := step_eq_ok hstep
  generalize w'.state = s' at happly
  cases op with
  | setAbsoluteFrequency d afreqPpm =>
      obtain rfl := Except.ok.inj happly
      exact setAbsoluteFrequency_frequency h d afreqPpm
  | accumulateDeltaFrequency d dfreq =>
      obtain rfl := Except.ok.inj happly
      exact accumulateDeltaFrequency_frequency h.toSound d dfreq
  | accumulateOffset d offset corrRate =>
      obtain rfl := Except.ok.inj happly
      exact accumulateOffset_frequency d offset corrRate _
  | applyStepOffset d offset =>
      obtain rfl := Except.ok.inj happly
      exact applyStepOffset_frequency d offset _
  | accumulateFrequencyAndOffset d dfreq doffset corrRate =>
      obtain rfl := Except.ok.inj happly
      rw [accumulateFrequencyAndOffset_frequency h.toSound, Op.requests]
      split <;> rfl
  | accumulateFrequencyAndOffsetNoHandlers d dfreq doffset corrRate =>
      obtain rfl := Except.ok.inj happly
      have hsound : ({ w.state with changeList := [] } : State H A).Sound config :=
        { h.toSound with }
      refine (accumulateFrequencyAndOffset_frequency hsound d dfreq doffset corrRate).trans ?_
      rw [Op.requests]
      change (if checkOffset env (w.state.clock.cooked config) doffset = true then _ else _) = _
      split <;> rfl
  | makeStep d revert =>
      obtain rfl := Except.ok.inj happly
      exact makeStep_frequency d revert _
  | cancelOffsetCorrection d =>
      obtain rfl := Except.ok.inj happly
      exact cancelOffsetCorrection_frequency d _
  | notifyExternalTimeStep d raw cooked offset =>
      obtain rfl := Except.ok.inj happly
      exact (invokeParameterChangeHandlers_frequency _ _).trans
        (cancelOffsetCorrection_frequency d _)
  | notifyLeap d leap =>
      obtain rfl := Except.ok.inj happly
      exact invokeParameterChangeHandlers_frequency _ _
  | setTempComp d comp =>
      obtain rfl := Except.ok.inj happly
      exact setTempComp_frequency h d hpossible
  | addHandler handler anything =>
      obtain ⟨-, rfl⟩ := addParameterChangeHandler_spec h happly
      rfl
  | removeHandler handler anything =>
      obtain ⟨-, rfl⟩ := removeParameterChangeHandler_spec h happly
      rfl
  | endOfSlew | cookTime | elapse | jump =>
      obtain rfl := Except.ok.inj happly
      rfl

/-- **A run** changes the frequency by its requests. -/
theorem World.run_frequency (h : w.state.Inv config) {ops : List (Op H A)}
    (hops : Lib.Along (World.step config env) World.Possible w ops)
    (hrun : ops.foldlM (World.step config env) w = .ok w') :
    w'.state.Inv config ∧
      w'.state.frequency = (w.requests config env ops).foldl Frequency.apply w.state.frequency := by
  induction ops generalizing w with
  | nil =>
      obtain rfl := Except.ok.inj hrun
      exact ⟨h, rfl⟩
  | cons op ops ih =>
      rw [List.foldlM_cons] at hrun
      obtain ⟨w₁, hstep, hrun⟩ := Lib.bind_eq_ok_iff.mp hrun
      obtain ⟨hinv, hfrequency⟩ := ih (step_inv h hops.1 hstep) (hops.2 w₁ hstep) hrun
      refine ⟨hinv, ?_⟩
      rw [hfrequency, step_frequency h hops.1 hstep, requests, List.foldl_append, hstep]

omit [DecidableEq H] [DecidableEq A] in
/-- The requests of such a step are compensations. -/
theorem Op.KeepsFrequency.compensate {op : Op H A} (h : op.KeepsFrequency) {request : Request}
    (hmem : request ∈ op.requests config env s) : ∃ comp, request = .compensate comp := by
  cases op with
  | setAbsoluteFrequency | accumulateDeltaFrequency | accumulateFrequencyAndOffset
  | accumulateFrequencyAndOffsetNoHandlers => exact h.elim
  | setTempComp d comp => exact ⟨comp, List.mem_singleton.mp hmem⟩
  | accumulateOffset | applyStepOffset | makeStep | cancelOffsetCorrection
  | notifyExternalTimeStep | notifyLeap | addHandler | removeHandler | endOfSlew | cookTime
  | elapse | jump => exact absurd hmem List.not_mem_nil

theorem World.requests_compensate {ops : List (Op H A)} (h : ∀ op ∈ ops, op.KeepsFrequency)
    {request : Request} (hmem : request ∈ w.requests config env ops) :
    ∃ comp, request = .compensate comp := by
  induction ops generalizing w with
  | nil => exact absurd hmem List.not_mem_nil
  | cons op ops ih =>
      rw [requests, List.mem_append] at hmem
      rcases hmem with hmem | hmem
      · exact (h op List.mem_cons_self).compensate hmem
      · cases hstep : w.step config env op with
        | error e =>
            rw [hstep] at hmem
            exact absurd hmem List.not_mem_nil
        | ok w₁ =>
            rw [hstep] at hmem
            exact ih (fun op' hop' => h op' (List.mem_cons_of_mem _ hop')) hmem

/-- What happens after the frequency was set does not change what is read. -/
theorem World.run_keeps (h : w.state.Inv config) {d : Drivers} {afreqPpm : ℚ}
    {before after : List (Op H A)} (hafter : ∀ op ∈ after, op.KeepsFrequency)
    (hops : Lib.Along (World.step config env) World.Possible w
      (before ++ .setAbsoluteFrequency d afreqPpm :: after))
    (hrun : (before ++ .setAbsoluteFrequency d afreqPpm :: after).foldlM (World.step config env) w =
      .ok w') :
    w'.state.readAbsoluteFrequency = clampFreq w.state.maxFreqPpm afreqPpm := by
  induction before generalizing w with
  | nil =>
      have hread := congrArg Frequency.uncompPpm (run_frequency h hops hrun).2
      rw [List.nil_append, requests, List.foldl_append] at hread
      refine hread.trans ?_
      exact Frequency.foldl_compensate _ fun request hmem => requests_compensate hafter hmem
  | cons op before ih =>
      rw [List.cons_append, List.foldlM_cons] at hrun
      obtain ⟨w₁, hstep, hrun⟩ := Lib.bind_eq_ok_iff.mp hrun
      have hmax := congrArg Frequency.maxPpm (step_frequency h hops.1 hstep)
      rw [Frequency.foldl_apply_maxPpm] at hmax
      rw [ih (step_inv h hops.1 hstep) (hops.2 w₁ hstep) hrun]
      exact congrArg (clampFreq · afreqPpm) hmax

/-- **The compensation of the temperature is hidden**: the frequency which was set last is read,
for any compensation, and a new compensation changes neither this nor the time. -/
theorem run_readAbsoluteFrequency {maxDrift freq raw : ℚ} (hfreq : |freq| ≤ maxUncompFreq)
    {ops : List (Op H A)}
    (hops : Lib.Along (World.step config env) World.Possible (.init maxDrift freq raw) ops)
    (hrun : ops.foldlM (World.step config env) (.init maxDrift freq raw) = .ok w) :
    w.state.frequency = (World.requests config env (.init maxDrift freq raw) ops).foldl
      Frequency.apply ⟨freq, 0, clamp 0 maxDrift (10 ^ 5)⟩ ∧
    w.state.clock.baseFreq = w.state.frequency.driverPpm ∧ |w.state.clock.baseFreq| < million ∧
    (∀ before d afreqPpm after, ops = before ++ .setAbsoluteFrequency d afreqPpm :: after →
      (∀ op ∈ after, op.KeepsFrequency) →
      w.state.readAbsoluteFrequency = clampFreq (clamp 0 maxDrift (10 ^ 5)) afreqPpm) ∧
    ∀ d comp, |comp| ≤ maxComp →
      (w.state.setTempComp config d comp).tempCompPpm = comp ∧
      (w.state.setTempComp config d comp).readAbsoluteFrequency =
        w.state.readAbsoluteFrequency ∧
      (w.state.setTempComp config d comp).clock.cooked config = w.state.clock.cooked config := by
  have hinit : (World.init maxDrift freq raw : World H A).state.Inv config := init_inv hfreq raw
  obtain ⟨hinv, hfrequency⟩ := World.run_frequency hinit hops hrun
  refine ⟨hfrequency, hinv.freq.symm.trans hinv.driverPpm, hinv.abs_lt, ?_, ?_⟩
  · rintro before d afreqPpm after rfl hafter
    exact World.run_keeps hinit hafter hops hrun
  · exact fun d comp hcomp => (setTempComp_spec hinv d hcomp).2

/-- The frequency is corrected and set, and the compensation and the offset are changed
after that. -/
def compensatedOps : List (Op Unit Unit) :=
  [.setTempComp sampleDrivers 2, .accumulateDeltaFrequency sampleDrivers (1 / 10 ^ 6)] ++
    .setAbsoluteFrequency sampleDrivers 20 ::
    [.setTempComp sampleDrivers 5, .elapse 1 0, .accumulateOffset sampleDrivers (1 / 100) 1,
      .elapse 1 0, .setTempComp sampleDrivers (-3)]

/-- The frequency which was set is read, and the driver has another one. -/
theorem run_readAbsoluteFrequency_sample :
    ∃ w : World Unit Unit,
      compensatedOps.foldlM (World.step SysGeneric.sampleConfig sampleEnv) (.init 500 10 0) =
        .ok w ∧
      w.state.readAbsoluteFrequency = 20 ∧ w.state.tempCompPpm = -3 ∧
      w.state.clock.baseFreq = 20 * (1 + 3 / 10 ^ 6) + 3 := by
  obtain ⟨w, hw, htemp, hbase⟩ : ∃ w : World Unit Unit,
      compensatedOps.foldlM (World.step SysGeneric.sampleConfig sampleEnv) (.init 500 10 0) =
        .ok w ∧ w.state.tempCompPpm = -3 ∧
      w.state.clock.baseFreq = 20 * (1 + 3 / 10 ^ 6) + 3 :=
    ⟨_, rfl, by decide +kernel, by decide +kernel⟩
  have helapse : ∀ w : World Unit Unit, w.Possible (.elapse 1 0) := fun _ _ => rfl
  have hcomp : ∀ comp : ℚ, |comp| ≤ 5 → |comp| ≤ maxComp := fun comp h =>
    h.trans (by decide +kernel)
  have hpossible : Lib.Along (World.step SysGeneric.sampleConfig sampleEnv) World.Possible
      (.init 500 10 0 : World Unit Unit) compensatedOps :=
    ⟨hcomp 2 (by decide +kernel), fun _ _ => ⟨trivial, fun _ _ => ⟨trivial, fun _ _ =>
      ⟨hcomp 5 (by decide +kernel), fun _ _ => ⟨helapse _, fun _ _ => ⟨trivial, fun _ _ =>
        ⟨helapse _, fun _ _ => ⟨hcomp (-3) (by decide +kernel), fun _ _ => trivial⟩⟩⟩⟩⟩⟩⟩⟩
  have hafter : ∀ op ∈ ([.setTempComp sampleDrivers 5, .elapse 1 0,
      .accumulateOffset sampleDrivers (1 / 100) 1, .elapse 1 0, .setTempComp sampleDrivers (-3)] :
      List (Op Unit Unit)), op.KeepsFrequency := by
    simp [Op.KeepsFrequency]
  have hread := (run_readAbsoluteFrequency sampleFreq_le hpossible hw).2.2.2.1 _ _ _ _ rfl hafter
  exact ⟨w, hw, hread.trans (by decide +kernel), htemp, hbase⟩

end Chrony.Local
