import Chrony.Local
import Chrony.SourceStats.Limits

/-!
# Samples on the Time Scale of the Clock

The registers of the sources together with the local clock. The handler `slew_sources` of
`sources.c` corrects all samples when the clock is corrected, and it drops them when the clock was
set by another program.

A *reading* is what a sample measured: the count of the oscillator at the measurement, and the
reference time. It never changes. The samples are the readings as the clock of the present would
have made them, however the clock was corrected since the measurements.

## Main results

* `run_readings`: the samples of all sources are their readings on the scale of the clock.
-/

namespace Chrony.SourceStats

open Local (Change World)

/-! ### The sources -/

/-- **A measurement.** The count and the reference time belong to the other data of the sample. -/
structure Reading where
  count : ℚ
  reference : ℚ
  rest : Entry

/-- The sample of a reading on a scale of time. -/
def Reading.entry (scale : ℚ → ℚ) (r : Reading) : Entry :=
  { r.rest with time := scale r.count, offset := scale r.count - r.reference }

/-- A source: its register, the log of its samples, and what was measured. -/
structure Source where
  stats : Stats
  log : List Entry
  readings : List Reading

/-- `slew_sources` for one source. -/
def Source.slew (change : Change) (source : Source) : Source :=
  if change.changeType = .unknownStep then ⟨source.stats.resetInstance, [], []⟩
  else
    { source with
      stats := source.stats.slewSamples change.cooked change.dfreq change.doffset
      log := source.log.map fun e => e.slew change.cooked change.dfreq change.doffset }

/-- `slew_sources`, without the selection of a source which follows an unknown step. -/
def slewSources (sources : List Source) (change : Change) : List Source :=
  sources.map (Source.slew change)

variable {H A : Type}

/-- The count at which the clock as it is now would have shown a time. -/
def countOf (config : SysGeneric.Config) (w : World H A) (time : ℚ) : ℚ :=
  let rate := 1 - w.state.clock.baseFreq / SysGeneric.million
  w.counter - (w.state.clock.cooked config - time) / rate

/-- The reading of a sample at the present. -/
def Reading.ofEntry (config : SysGeneric.Config) (w : World H A) (e : Entry) : Reading :=
  ⟨countOf config w e.time, e.time - e.offset, e⟩

/-- The readings after an operation on the register, which has got the samples of the log. -/
def Source.readingsAfter (config : SysGeneric.Config) (w : World H A) (source : Source)
    (log : List Entry) : Op → List Reading
  | .accumulateSample _ | .loadFromFile _ =>
      (log.take (log.length - source.log.length)).map (.ofEntry config w) ++ source.readings
  | .correctOffset doffset =>
      source.readings.map fun r => { r with reference := r.reference - doffset }
  | .addDispersion dispersion =>
      source.readings.map fun r => { r with rest := r.rest.addDispersion dispersion }
  | _ => source.readings

/-! ### The system -/

/-- **The clock and the sources.** -/
structure System (H A : Type) where
  world : World H A
  sources : List Source
  /-- The clock was set by another program, and this was not noticed yet. -/
  jumped : Bool

/-- What happens to the clock and the sources. -/
inductive Action (H A : Type)
  | clock (op : Local.Op H A)
  | create (memory : Stats) (minSamples maxSamples : ℤ) (minDelay asymmetry : ℚ)
  | destroy (i : ℕ)
  | source (i : ℕ) (op : Op)

/-- Whether the clock is set by another program without notice. -/
def jumpedAfter (jumped : Bool) : Local.Op H A → Bool
  | .jump _ => true
  | .notifyExternalTimeStep .. => false
  | _ => jumped

section System

variable [DecidableEq H] [DecidableEq A] (config : SysGeneric.Config) (env : Env) (handler : H)
  (anything : A)

/-- **One step.** The sources get the corrections which the clock announces to their handler. -/
def System.step (sys : System H A) : Action H A → Except (Local.Abort ⊕ Abort) (System H A)
  | .clock op => do
      let world ← (sys.world.step config env op).mapError .inl
      let changes := (world.state.changesFor (.module handler anything)).drop
        (sys.world.state.changesFor (.module handler anything)).length
      .ok ⟨world, changes.foldl slewSources sys.sources, jumpedAfter sys.jumped op⟩
  | .create memory minSamples maxSamples minDelay asymmetry =>
      let stats := createInstance memory minSamples maxSamples minDelay asymmetry
      .ok { sys with sources := sys.sources ++ [⟨stats, [], []⟩] }
  | .destroy i => .ok { sys with sources := sys.sources.eraseIdx i }
  | .source i op =>
      match sys.sources[i]? with
      | none => .ok sys
      | some source => do
          let r ← (SourceStats.step env (source.stats, source.log) op).mapError .inr
          let source := ⟨r.1, r.2, source.readingsAfter config sys.world r.2 op⟩
          .ok { sys with sources := sys.sources.set i source }

/-- The steps which are announced to the sources, the clock which is set by another program, and
everything which the sources do on their own. -/
def System.Steady (sys : System H A) : Action H A → Prop
  | .clock (.jump _) => True
  | .clock (.notifyExternalTimeStep ..) => True
  | .clock op => sys.world.Steady handler anything op
  | .source _ (.slewSamples ..) => False
  | _ => True

/-- The system at the start, with the handler. -/
def System.init (maxDrift freq raw : ℚ) : System H A where
  world :=
    ⟨{ Local.State.init maxDrift freq raw with
      changeList := [.handleStep, .module handler anything] }, 0⟩
  sources := []
  jumped := false

/-- **The invariant.** -/
structure System.Inv (sys : System H A) : Prop where
  clock : sys.world.state.Inv config
  mem : .module handler anything ∈ sys.world.state.changeList
  registers : ∀ source ∈ sys.sources, SourceStats.Inv source.stats source.log
  readings : sys.jumped = false → ∀ source ∈ sys.sources,
    source.log = source.readings.map (Reading.entry (sys.world.scale config))

end System

/-! ### Readings -/

variable {config : SysGeneric.Config} {env : Env} {handler : H} {anything : A} {scale : ℚ → ℚ}

/-- **A corrected sample is the same reading on the corrected scale.** -/
theorem Reading.entry_slew (r : Reading) (change : Change) :
    (r.entry scale).slew change.cooked change.dfreq change.doffset =
      r.entry fun count => Change.adjust (scale count) change := by
  rw [Entry.slew, Reading.entry, Reading.entry, deltaTime, Change.adjust, Local.adjustTimespec]
  dsimp only
  congr 1
  ring

theorem scale_countOf {w : World H A} (h : w.state.Inv config) (time : ℚ) :
    w.scale config (countOf config w time) = time := by
  have hlt := (abs_lt.mp h.abs_lt).2
  have hne : 1 - w.state.clock.baseFreq / SysGeneric.million ≠ 0 := by
    have hpos : (0 : ℚ) < SysGeneric.million := by norm_num [SysGeneric.million]
    have := (div_lt_one hpos).mpr hlt
    linarith
  rw [World.scale, Local.scale, countOf, sub_sub_cancel, mul_div_cancel₀ _ hne, sub_sub_cancel]

theorem Reading.entry_ofEntry {w : World H A} (h : w.state.Inv config) (e : Entry) :
    (Reading.ofEntry config w e).entry (w.scale config) = e := by
  rw [Reading.ofEntry, Reading.entry]
  dsimp only
  rw [scale_countOf h, sub_sub_cancel]

theorem Source.slew_inv {source : Source} (h : SourceStats.Inv source.stats source.log)
    {change : Change} (hdfreq : change.dfreq < 1) :
    SourceStats.Inv (source.slew change).stats (source.slew change).log := by
  rw [Source.slew]
  split
  · exact inv_resetInstance _ _
  · exact h.slewSamples change.cooked hdfreq change.doffset

theorem Source.slew_readings {source : Source}
    (h : source.log = source.readings.map (Reading.entry scale)) {change : Change}
    (hknown : change.changeType ≠ .unknownStep) :
    (source.slew change).log =
      (source.slew change).readings.map
        (Reading.entry fun count => Change.adjust (scale count) change) := by
  rw [Source.slew, if_neg hknown]
  dsimp only
  rw [h, List.map_map]
  exact List.map_congr_left fun r _ => r.entry_slew change

theorem foldl_slewSources_registers {changes : List Change} {sources : List Source}
    (h : ∀ source ∈ sources, SourceStats.Inv source.stats source.log)
    (hdfreq : ∀ change ∈ changes, change.dfreq < 1) :
    ∀ source ∈ changes.foldl slewSources sources, SourceStats.Inv source.stats source.log := by
  induction changes generalizing sources with
  | nil => exact h
  | cons change changes ih =>
      refine ih ?_ fun c hc => hdfreq c (List.mem_cons_of_mem _ hc)
      rw [slewSources, List.forall_mem_map]
      intro source hsource
      exact Source.slew_inv (h source hsource) (hdfreq change (List.mem_cons_self ..))

theorem foldl_slewSources_readings {changes : List Change} {sources : List Source}
    (h : ∀ source ∈ sources, source.log = source.readings.map (Reading.entry scale))
    (hknown : ∀ change ∈ changes, change.changeType ≠ .unknownStep) :
    ∀ source ∈ changes.foldl slewSources sources, source.log =
      source.readings.map (Reading.entry fun count =>
        changes.foldl Change.adjust (scale count)) := by
  induction changes generalizing sources scale with
  | nil => exact h
  | cons change changes ih =>
      refine ih ?_ fun c hc => hknown c (List.mem_cons_of_mem _ hc)
      rw [slewSources, List.forall_mem_map]
      intro source hsource
      exact Source.slew_readings (h source hsource) (hknown change (List.mem_cons_self ..))

theorem Reading.map_entry_ofEntry {w : World H A} (h : w.state.Inv config) (log : List Entry) :
    (log.map (Reading.ofEntry config w)).map (Reading.entry (w.scale config)) = log := by
  rw [List.map_map]
  exact (List.map_congr_left fun e _ => Reading.entry_ofEntry h e).trans log.map_id

/-- **An operation on a register** gets new readings, and it keeps the others but for what it
corrects. -/
theorem Source.readingsAfter_spec {w : World H A} (hw : w.state.Inv config) {source : Source}
    (h : source.log = source.readings.map (Reading.entry (w.scale config))) {op : Op}
    (hop : ∀ cooked dfreq doffset hdfreq, op ≠ .slewSamples cooked dfreq doffset hdfreq)
    {stats : Stats} {log : List Entry}
    (hstep : SourceStats.step env (source.stats, source.log) op = .ok (stats, log)) :
    log = (source.readingsAfter config w log op).map (Reading.entry (w.scale config)) := by
  have hnew : ∀ new : List Entry, new ++ source.log =
      (((new ++ source.log).take ((new ++ source.log).length - source.log.length)).map
        (Reading.ofEntry config w) ++ source.readings).map (Reading.entry (w.scale config)) :=
    fun new => by
      rw [List.length_append, Nat.add_sub_cancel, List.take_left, List.map_append,
        Reading.map_entry_ofEntry hw, ← h]
  cases op with
  | accumulateSample sample =>
      obtain ⟨s', -, hs'⟩ := Lib.bind_eq_ok_iff.mp hstep
      obtain ⟨-, rfl⟩ := Prod.mk.inj (Except.ok.inj hs')
      exact hnew [source.stats.newEntry sample]
  | doNewRegression =>
      obtain ⟨s', -, hs'⟩ := Lib.bind_eq_ok_iff.mp hstep
      obtain ⟨-, rfl⟩ := Prod.mk.inj (Except.ok.inj hs')
      exact h
  | slewSamples cooked dfreq doffset hdfreq => exact absurd rfl (hop cooked dfreq doffset hdfreq)
  | correctOffset doffset =>
      obtain ⟨-, rfl⟩ := Prod.mk.inj (Except.ok.inj hstep)
      rw [Source.readingsAfter, h, List.map_map, List.map_map]
      refine List.map_congr_left fun r _ => ?_
      rw [Function.comp_apply, Function.comp_apply, Entry.correctOffset, Reading.entry,
        Reading.entry]
      dsimp only
      congr 1
      ring
  | addDispersion dispersion =>
      obtain ⟨-, rfl⟩ := Prod.mk.inj (Except.ok.inj hstep)
      rw [Source.readingsAfter, h, List.map_map, List.map_map]
      exact List.map_congr_left fun r _ => rfl
  | resetInstance =>
      obtain ⟨-, rfl⟩ := Prod.mk.inj (Except.ok.inj hstep)
      exact h
  | loadFromFile file =>
      obtain ⟨⟨ok, s'⟩, -, hs'⟩ := Lib.bind_eq_ok_iff.mp hstep
      obtain ⟨-, rfl⟩ := Prod.mk.inj (Except.ok.inj hs')
      cases ok with
      | false => exact hnew []
      | true => exact hnew file.samples
  | saveToFile =>
      obtain ⟨-, rfl⟩ := Prod.mk.inj (Except.ok.inj hstep)
      exact h

/-! ### Runs -/

variable [DecidableEq H] [DecidableEq A] {sys sys' : System H A}

omit [DecidableEq H] [DecidableEq A] in
theorem System.init_inv {maxDrift freq raw : ℚ} (hfreq : |freq| ≤ Local.maxUncompFreq) :
    (System.init handler anything maxDrift freq raw).Inv config handler anything where
  clock :=
    { (Local.init_inv hfreq raw : (Local.State.init maxDrift freq raw : Local.State H A).Inv
        config) with
      nodup := by simp [System.init]
      handleStep := List.mem_cons_self .. }
  mem := List.mem_cons_of_mem _ (List.mem_cons_self ..)
  registers source hsource := absurd hsource List.not_mem_nil
  readings _ source hsource := absurd hsource List.not_mem_nil

theorem mapError_eq_ok {ε ε' α : Type} {f : ε → ε'} {x : Except ε α} {a : α} :
    x.mapError f = .ok a ↔ x = .ok a := by
  cases x with
  | error e => simp [Except.mapError]
  | ok b => simp [Except.mapError]

/-- The clock was corrected with changes which were announced to the sources. -/
theorem System.Inv.follows (h : sys.Inv config handler anything) {world : World H A}
    {changes : List Change} {jumped : Bool}
    (hfollows : World.Follows config (.module handler anything) sys.world world changes)
    (hjumped : jumped = sys.jumped) :
    (⟨world, changes.foldl slewSources sys.sources, jumped⟩ : System H A).Inv config handler
      anything where
  clock := hfollows.inv
  mem := hfollows.mem
  registers := foldl_slewSources_registers h.registers hfollows.dfreq_lt
  readings hnot source hsource := by
    have hread := foldl_slewSources_readings (h.readings (hjumped ▸ hnot)) hfollows.known source
      hsource
    rwa [← funext hfollows.scale] at hread

omit [DecidableEq H] [DecidableEq A] in
/-- All samples are dropped when the clock was set. -/
theorem System.inv_unknownStep {world : World H A} (hclock : world.state.Inv config)
    (hmem : .module handler anything ∈ world.state.changeList) (sources : List Source)
    {change : Change} (hunknown : change.changeType = .unknownStep) (jumped : Bool) :
    (⟨world, slewSources sources change, jumped⟩ : System H A).Inv config handler anything := by
  have hreset : ∀ source ∈ slewSources sources change,
      SourceStats.Inv source.stats source.log ∧ source.log = [] ∧ source.readings = [] := by
    rw [slewSources, List.forall_mem_map]
    intro source _
    rw [Source.slew, if_pos hunknown]
    exact ⟨inv_resetInstance _ _, rfl, rfl⟩
  refine ⟨hclock, hmem, fun source hsource => (hreset source hsource).1,
    fun _ source hsource => ?_⟩
  obtain ⟨-, hlog, hreadings⟩ := hreset source hsource
  rw [hlog, hreadings]
  rfl

theorem System.clock_inv (h : sys.Inv config handler anything) {op : Local.Op H A}
    (hsteady : sys.Steady handler anything (.clock op))
    (hstep : sys.step config env handler anything (.clock op) = .ok sys') :
    sys'.Inv config handler anything := by
  obtain ⟨world, hworld, hsys'⟩ := Lib.bind_eq_ok_iff.mp hstep
  obtain rfl := Except.ok.inj hsys'
  rw [mapError_eq_ok] at hworld
  by_cases hjump : ∃ offset, op = .jump offset
  · obtain ⟨offset, rfl⟩ := hjump
    have hpossible : sys.world.Possible (.jump offset) := trivial
    have hinv := World.step_inv h.clock hpossible hworld
    obtain rfl := Except.ok.inj hworld
    have hnone : ∀ s : Local.State H A, (s.changesFor (.module handler anything)).drop
        (s.changesFor (.module handler anything)).length = [] := fun s => List.drop_length
    exact
      { clock := hinv
        mem := h.mem
        registers := (hnone sys.world.state).symm ▸ h.registers
        readings := fun hfalse => absurd hfalse Bool.true_eq_false.mp }
  by_cases hexternal : ∃ d raw cooked offset, op = .notifyExternalTimeStep d raw cooked offset
  · obtain ⟨d, raw, cooked, offset, rfl⟩ := hexternal
    have hpossible : sys.world.Possible (.notifyExternalTimeStep d raw cooked offset) := trivial
    have hinv := World.step_inv h.clock hpossible hworld
    obtain ⟨hmem, changes, hchanges⟩ :=
      Local.notifyExternalTimeStep_changesFor env h.clock d raw cooked offset h.mem
    obtain rfl := Except.ok.inj hworld
    rw [hchanges, List.drop_left, List.foldl_append]
    exact inv_unknownStep hinv hmem _ rfl _
  have hworldSteady : sys.world.Steady handler anything op := by
    cases op with
    | jump offset => exact absurd ⟨offset, rfl⟩ hjump
    | notifyExternalTimeStep d raw cooked offset =>
        exact absurd ⟨d, raw, cooked, offset, rfl⟩ hexternal
    | _ => exact hsteady
  have hjumped : jumpedAfter sys.jumped op = sys.jumped := by
    cases op with
    | jump offset => exact absurd ⟨offset, rfl⟩ hjump
    | notifyExternalTimeStep d raw cooked offset =>
        exact absurd ⟨d, raw, cooked, offset, rfl⟩ hexternal
    | _ => rfl
  obtain ⟨changes, hfollows⟩ := World.step_follows h.clock h.mem hworldSteady hworld
  rw [hfollows.changesFor, List.drop_left]
  exact h.follows hfollows hjumped

/-- **An operation on a source succeeds.** -/
theorem System.source_step (h : sys.Inv config handler anything) (env : Env) (i : ℕ) (op : Op) :
    ∃ sys', sys.step config env handler anything (.source i op) = .ok sys' ∧
      (sys.Steady handler anything (.source i op) → sys'.Inv config handler anything) := by
  rw [System.step]
  cases hi : sys.sources[i]? with
  | none => exact ⟨sys, rfl, fun _ => h⟩
  | some source =>
      have hmem := List.mem_of_getElem? hi
      obtain ⟨stats, log, hstep, hinv⟩ := step_inv env (h.registers source hmem) op
      refine ⟨_, by dsimp only; rw [hstep]; rfl, fun hsteady => ?_⟩
      refine { h with
        registers := fun source' hsource' => ?_
        readings := fun hnot source' hsource' => ?_ }
      · rcases List.mem_or_eq_of_mem_set hsource' with hold | rfl
        · exact h.registers source' hold
        · exact hinv
      · rcases List.mem_or_eq_of_mem_set hsource' with hold | rfl
        · exact h.readings hnot source' hold
        · refine Source.readingsAfter_spec h.clock (h.readings hnot source hmem) ?_ hstep
          rintro cooked dfreq doffset hdfreq rfl
          exact hsteady

/-- **Every step keeps the invariant.** -/
theorem System.step_inv (h : sys.Inv config handler anything) {action : Action H A}
    (hsteady : sys.Steady handler anything action)
    (hstep : sys.step config env handler anything action = .ok sys') :
    sys'.Inv config handler anything := by
  cases action with
  | clock op => exact clock_inv h hsteady hstep
  | create memory minSamples maxSamples minDelay asymmetry =>
      obtain rfl := Except.ok.inj hstep
      refine { h with
        registers := fun source hsource => ?_
        readings := fun hnot source hsource => ?_ }
      · rcases List.mem_append.mp hsource with hold | hnew
        · exact h.registers source hold
        · rw [List.mem_singleton.mp hnew]
          exact inv_resetInstance _ _
      · rcases List.mem_append.mp hsource with hold | hnew
        · exact h.readings hnot source hold
        · rw [List.mem_singleton.mp hnew]
          rfl
  | destroy i =>
      obtain rfl := Except.ok.inj hstep
      exact { h with
        registers := fun source hsource => h.registers source (List.mem_of_mem_eraseIdx hsource)
        readings := fun hnot source hsource =>
          h.readings hnot source (List.mem_of_mem_eraseIdx hsource) }
  | source i op =>
      obtain ⟨sys₁, hsys₁, hinv⟩ := source_step h env i op
      obtain rfl := Except.ok.inj (hsys₁.symm.trans hstep)
      exact hinv hsteady

/-- **The samples of all sources are their readings on the scale of the clock**, unless the clock
was set by another program and this was not noticed yet. No assertion fails. -/
theorem run_readings {maxDrift freq raw : ℚ} (hfreq : |freq| ≤ Local.maxUncompFreq)
    {actions : List (Action H A)}
    (hactions : Lib.Along (System.step config env handler anything)
      (System.Steady handler anything) (.init handler anything maxDrift freq raw) actions)
    (h : actions.foldlM (System.step config env handler anything)
      (.init handler anything maxDrift freq raw) = .ok sys) :
    (∀ i op, ∃ sys', sys.step config env handler anything (.source i op) = .ok sys') ∧
    ∀ source ∈ sys.sources, InOrder source.stats source.log ∧
      (sys.jumped = false →
        source.log = source.readings.map (Reading.entry (sys.world.scale config))) := by
  have hinv : sys.Inv config handler anything :=
    Lib.foldlM_invariant_along (fun _ _ _ hs hsteady hstep => System.step_inv hs hsteady hstep)
      (System.init_inv hfreq) hactions h
  refine ⟨fun i op => ?_, fun source hsource => ⟨(hinv.registers source hsource).inOrder,
    fun hnot => hinv.readings hnot source hsource⟩⟩
  obtain ⟨sys', hsys', -⟩ := System.source_step hinv env i op
  exact ⟨sys', hsys'⟩

/-- A sample which was measured when the clock showed 100 seconds. -/
def sampleAt100 : NtpSample := ⟨100, 1 / 1000, 1 / 100, 0, 0, 0⟩

/-- A source gets a sample, and the clock is corrected. -/
def sampleActions : List (Action Unit Unit) :=
  [.create clearedStats 6 64 0 0, .clock (.elapse 100 0), .source 0 (.accumulateSample sampleAt100),
    .clock (.accumulateFrequencyAndOffset Local.sampleDrivers (1 / 10 ^ 6) (1 / 1000) 1),
    .clock (.elapse 1 0)]

theorem run_readings_sample :
    ∃ sys : System Unit Unit,
      sampleActions.foldlM (System.step SysGeneric.sampleConfig Local.sampleEnv () ())
        (.init () () 500 0 0) = .ok sys ∧
      (∀ i op, ∃ sys',
        sys.step SysGeneric.sampleConfig Local.sampleEnv () () (.source i op) = .ok sys') ∧
      ∀ source ∈ sys.sources, InOrder source.stats source.log ∧
        (sys.jumped = false → source.log = source.readings.map
          (Reading.entry (sys.world.scale SysGeneric.sampleConfig))) := by
  obtain ⟨sys, hsys⟩ : ∃ sys : System Unit Unit,
      sampleActions.foldlM (System.step SysGeneric.sampleConfig Local.sampleEnv () ())
        (.init () () 500 0 0) = .ok sys := ⟨_, rfl⟩
  have helapse : ∀ (sys : System Unit Unit) (time : ℚ),
      sys.Steady () () (.clock (.elapse time 0)) := fun _ _ => ⟨fun _ => rfl, .inl rfl⟩
  have hsteady : Lib.Along (System.step SysGeneric.sampleConfig Local.sampleEnv () ())
      (System.Steady () ()) (.init () () 500 0 0) sampleActions :=
    ⟨trivial, fun _ _ => ⟨helapse _ _, fun _ _ => ⟨trivial, fun _ _ => ⟨trivial, fun _ _ =>
      ⟨helapse _ _, fun _ _ => trivial⟩⟩⟩⟩⟩
  exact ⟨sys, hsys, run_readings (by norm_num [Local.maxUncompFreq]) hsteady hsys⟩

end Chrony.SourceStats
