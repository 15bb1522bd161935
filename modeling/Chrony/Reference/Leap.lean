import Mathlib.Data.Rat.Floor
import Chrony.Lib.Civil
import Chrony.Sched.Queue

/-!
# Leap Seconds of the Reference

The part of `reference.c` that decides about a leap second and corrects the clock for it, on
the timer queue of the scheduler. The handlers of the queue are the two handlers of this
module and those of the other modules. What `LDB_GetLeap` finds, what the clock reads and
whether it could be stepped are inputs of the calls.

The state also has what no function reads: the raw time at the last reading or change of the
clock, the raw time at which the timeout was set, and the leap seconds that were started.
-/

namespace Chrony.Reference

open Chrony.Lib Chrony.Sched

/-- `NTP_Leap`. -/
inductive Leap
  | normal
  | insertSecond
  | deleteSecond
  | unsynchronised
  deriving DecidableEq, Repr

/-- `REF_LeapMode`. -/
inductive LeapMode
  | system
  | slew
  | step
  | ignore
  deriving DecidableEq, Repr

/-- The handlers of the timeouts. -/
inductive Handler
  | leapStartTimeout
  | leapEndTimeout
  | other
  deriving DecidableEq, Repr

/-- A call of `leap_start_timeout` at the raw time `time`, for a timeout which was set for
`leapWhen` at the raw time `armedAt`. -/
structure LeapStart where
  leapSec : ℤ
  leapWhen : ℤ
  armedAt : ℚ
  time : ℚ
  deriving DecidableEq, Repr

/-- The static variables of `reference.c` that are used here. The mode of the reference is
normal or special, and `systemLeap` is the last setting of `LCL_SetSystemLeap`. -/
structure State where
  sched : Sched.State Handler Unit
  normalMode : Bool
  leapMode : LeapMode
  areWeSynchronised : Bool
  ourLeapStatus : Leap
  ourLeapSec : ℤ
  ourTaiOffset : ℤ
  leapWhen : ℤ
  leapInProgress : Bool
  leapTimeoutId : ℕ
  systemLeap : Option (ℤ × ℤ)
  rawTime : ℚ
  armedAt : ℚ
  started : List LeapStart

/-- `LDB_GetLeap`: the leap status and the TAI offset for a time. -/
abbrev LeapDb := ℤ → Leap × ℤ

/-- `gmtime`, for the year, the month and the day. The year has to fit in `int`. -/
def gmtime (t : ℤ) : Option Civil.Date :=
  let date := Civil.ofDays (t / 86400)
  if -2 ^ 31 ≤ date.year - 1900 ∧ date.year - 1900 < 2 ^ 31 then some date else none

/-- `is_leap_second_day`. -/
def isLeapSecondDay (t : ℤ) : Bool :=
  (gmtime t).any fun stm => (stm.month = 6 ∧ stm.day = 30) ∨ (stm.month = 12 ∧ stm.day = 31)

/-- `is_leap_close`. -/
def State.isLeapClose (s : State) (t : ℚ) : Bool :=
  s.leapWhen ≠ 0 ∧ t ≥ s.leapWhen - 5 ∧ t < s.leapWhen + 5

/-- `REF_IsLeapSecondClose`. -/
def State.isLeapSecondClose (s : State) (ts : Option ℚ) (offset : ℚ) : Bool :=
  s.isLeapClose ⌊s.sched.lastSelectTs⌋ || s.isLeapClose ⌊s.sched.lastSelectTsRaw⌋ ||
    ts.any fun ts => s.isLeapClose ⌊ts⌋ || s.isLeapClose (⌊ts⌋ + offset)

/-- The midnight of `set_leap_timeout`. The division is that of C. -/
def leapMidnight (now : ℤ) : ℤ :=
  (now.tdiv (24 * 3600) + 1) * (24 * 3600)

/-- The time of the timeout in `set_leap_timeout`. -/
def leapStartTime (leapMode : LeapMode) (ourLeapSec leapWhen : ℤ) : ℚ :=
  let time : ℚ := if ourLeapSec < 0 then leapWhen - 1 else leapWhen
  if leapMode = .system then time - 1 + 1 / 2 else time

/-- `set_leap_timeout`. -/
def State.setLeapTimeout (s : State) (now : ℤ) : Except Abort State := do
  let sched ← removeTimeout s.sched s.leapTimeoutId
  let s := { s with sched, leapTimeoutId := 0, leapInProgress := false }
  if s.ourLeapSec = 0 then .ok s
  else
    let leapWhen := leapMidnight now
    let (sched, entry) ← addTimeout s.sched (leapStartTime s.leapMode s.ourLeapSec leapWhen)
      .leapStartTimeout ()
    .ok { s with sched, leapWhen, leapTimeoutId := entry.id, armedAt := s.rawTime }

/-- The first part of `update_leap_status`: the status, the leap second and the TAI offset
for the time. -/
def leapAt (ldb : LeapDb) (leap : Leap) (now : ℤ) : Leap × ℤ × ℤ :=
  let (ldbLeap, taiOffset) := if now ≠ 0 then ldb now else (leap, 0)
  let leap := if leap = .normal then ldbLeap else leap
  if leap = .insertSecond ∨ leap = .deleteSecond then
    if isLeapSecondDay now then (leap, if leap = .insertSecond then 1 else -1, taiOffset)
    else (.normal, 0, taiOffset)
  else (leap, 0, taiOffset)

/-- `update_leap_status`. -/
def State.updateLeapStatus (s : State) (ldb : LeapDb) (leap : Leap) (now : ℤ) (reset : Bool) :
    Except Abort State := do
  let (leap, leapSec, taiOffset) := leapAt ldb leap now
  let s ←
    if (leapSec ≠ s.ourLeapSec ∨ taiOffset ≠ s.ourTaiOffset) ∧ ¬s.isLeapSecondClose none 0 then
      let systemLeap := if s.leapMode = .system then some (leapSec, taiOffset) else s.systemLeap
      State.setLeapTimeout
        { s with ourLeapSec := leapSec, ourTaiOffset := taiOffset, systemLeap } now
    else if reset then s.setLeapTimeout now
    else .ok s
  .ok { s with ourLeapStatus := leap }

/-- `leap_end_timeout`. -/
def State.leapEndTimeout (s : State) : State :=
  let taiOffset := if s.ourTaiOffset ≠ 0 then s.ourTaiOffset + s.ourLeapSec else s.ourTaiOffset
  { s with
    leapTimeoutId := 0
    leapInProgress := false
    ourTaiOffset := taiOffset
    ourLeapSec := 0
    systemLeap := if s.leapMode = .system then some (0, taiOffset) else s.systemLeap
    ourLeapStatus :=
      if s.ourLeapStatus = .insertSecond ∨ s.ourLeapStatus = .deleteSecond then .normal
      else s.ourLeapStatus }

/-- `REF_SetUnsynchronised`. -/
def State.setUnsynchronised (s : State) (ldb : LeapDb) : Except Abort State :=
  if ¬s.normalMode then .ok s
  else do
    let s ← s.updateLeapStatus ldb .unsynchronised 0 false
    .ok { s with areWeSynchronised := false }

/-- A change of the clock, as it is passed to the handlers. The last number is the raw time
that is read after it. -/
structure Change where
  cooked : ℚ
  dfreq : ℚ
  doffset : ℚ
  changeType : ChangeType
  now : ℤ

/-- `handle_slew`. -/
def State.handleSlew (s : State) (ldb : LeapDb) (change : Change) : Except Abort State := do
  let s ← if change.changeType = .unknownStep then s.setUnsynchronised ldb else .ok s
  if change.changeType ≠ .adjust ∧ s.ourLeapSec ≠ 0 ∧ ¬s.leapInProgress then
    s.updateLeapStatus ldb s.ourLeapStatus change.now true
  else .ok s

/-- The handler of the scheduler is the first one that is called for a change of the clock. -/
def State.shift (s : State) (change : Change) : State :=
  { s with
    sched := Sched.handleSlew s.sched change.cooked change.dfreq change.doffset change.changeType
    rawTime := change.now }

/-- `invoke_parameter_change_handlers`, with the handlers of the scheduler and the
reference. -/
def State.invokeHandlers (s : State) (ldb : LeapDb) (change : Change) : Except Abort State :=
  (s.shift change).handleSlew ldb change

/-- What `leap_start_timeout` meets: the cooked times that are read, the raw times after the
changes, whether the step succeeded, and the raw time for the next timeout. -/
structure StartInput where
  cookedNotify : ℚ
  nowNotify : ℤ
  cooked : ℚ
  now : ℤ
  applied : Bool
  nowEnd : ℚ

/-- The correction of the clock in `leap_start_timeout`. -/
def State.correctLeap (s : State) (ldb : LeapDb) (input : StartInput) : Except Abort State :=
  let notify : Change := ⟨input.cookedNotify, 0, -s.ourLeapSec, .step, input.nowNotify⟩
  match s.leapMode with
  | .system => .ok s
  | .slew => do
      let s ← s.invokeHandlers ldb notify
      if input.applied then
        s.invokeHandlers ldb ⟨input.cooked, 0, s.ourLeapSec, .adjust, input.now⟩
      else .ok s
  | .step => do
      let s ← s.invokeHandlers ldb notify
      if input.applied then
        s.invokeHandlers ldb ⟨input.cooked, 0, s.ourLeapSec, .step, input.now⟩
      else .ok s
  | .ignore => .ok s

/-- `leap_start_timeout`. -/
def State.leapStartTimeout (s : State) (ldb : LeapDb) (input : StartInput) :
    Except Abort State := do
  let start : LeapStart := ⟨s.ourLeapSec, s.leapWhen, s.armedAt, s.rawTime⟩
  let s ← State.correctLeap
    { s with leapInProgress := true, started := start :: s.started } ldb input
  let (sched, entry) ← addTimeoutByDelay s.sched input.nowEnd 2 .leapEndTimeout ()
  .ok { s with sched, leapTimeoutId := entry.id }

/-- What follows the adjustment in `REF_SetReference`: nothing, a step of the clock, or one
more adjustment in place of a step that failed. -/
inductive StepResult
  | none
  | stepped (cooked doffset : ℚ) (now : ℤ)
  | accumulated (cooked doffset : ℚ) (now : ℤ)

/-- The change of the clock for the handlers. -/
def StepResult.change : StepResult → Option Change
  | .none => Option.none
  | .stepped cooked doffset now => some ⟨cooked, 0, doffset, .step, now⟩
  | .accumulated cooked doffset now => some ⟨cooked, 0, doffset, .adjust, now⟩

/-- The step of the clock in `REF_SetReference`. -/
def State.applyStep (s : State) (ldb : LeapDb) (step : StepResult) : Except Abort State :=
  match step.change with
  | none => .ok s
  | some change => s.invokeHandlers ldb change

/-- What `REF_SetReference` meets: whether the offset is accepted, the raw time that is read
first, the adjustment, and what follows it. -/
structure UpdateInput where
  leap : Leap
  offsetOk : Bool
  rawNow : ℤ
  cooked : ℚ
  frequency : ℚ
  accumulateOffset : ℚ
  step : StepResult

/-- The adjustment of the clock in `REF_SetReference`. -/
def UpdateInput.adjustment (input : UpdateInput) : Change :=
  ⟨input.cooked, input.frequency, input.accumulateOffset, .adjust, input.rawNow⟩

/-- `REF_SetReference`. In a special mode only the clock may be changed. -/
def State.setReference (s : State) (ldb : LeapDb) (input : UpdateInput) : Except Abort State :=
  if ¬s.normalMode then .ok s
  else if ¬input.offsetOk then .ok s
  else do
    let s := { s with areWeSynchronised := decide (input.leap ≠ Leap.unsynchronised) }
    let s ← s.invokeHandlers ldb input.adjustment
    let s ← s.applyStep ldb input.step
    s.updateLeapStatus ldb input.leap input.rawNow false

/-- `REF_UpdateLeapStatus`. -/
def State.refUpdateLeapStatus (s : State) (ldb : LeapDb) (leap : Leap) : Except Abort State :=
  if ¬s.areWeSynchronised then .ok s
  else s.updateLeapStatus ldb leap ⌊s.sched.lastSelectTsRaw⌋ false

/-- `REF_Initialise`, at the raw time `now` and with a mode that the system supports. -/
def initialise (now : ℚ) (leapMode : LeapMode) : State where
  sched := Sched.initialise now
  normalMode := true
  leapMode := leapMode
  areWeSynchronised := false
  ourLeapStatus := .unsynchronised
  ourLeapSec := 0
  ourTaiOffset := 0
  leapWhen := 0
  leapInProgress := false
  leapTimeoutId := 0
  systemLeap := none
  rawTime := now
  armedAt := now
  started := []

/-! ### Runs -/

/-- What can happen: calls of the module, changes of the clock, new times of the last event,
the dispatch of a timeout which is due, and timeouts of other modules. -/
inductive Op
  | setReference (input : UpdateInput)
  | setUnsynchronised
  | updateLeapStatus (leap : Leap)
  | setMode (normal : Bool)
  | clockChange (change : Change)
  | select (cooked raw : ℚ)
  | dispatch (now : ℚ) (input : StartInput)
  | addTimeout (ts : ℚ)
  | removeTimeout (id : ℕ)

/-- The turn of `dispatch_timeouts` for the first entry of the queue. What the handler of
another module does is in the operations that follow. -/
def State.dispatch (s : State) (ldb : LeapDb) (now : ℚ) (input : StartInput) :
    Except Abort State :=
  match s.sched.timerQueue with
  | [] => .ok s
  | ptr :: _ =>
      if now ≥ ptr.ts then do
        let sched ← removeTimeout
          { s.sched with
            lastClassDispatch := Function.update s.sched.lastClassDispatch ptr.cls now } ptr.id
        let s := { s with sched, rawTime := now }
        match ptr.handler with
        | .leapStartTimeout => s.leapStartTimeout ldb input
        | .leapEndTimeout => .ok s.leapEndTimeout
        | .other => .ok s
      else .ok s

/-- One operation. Other modules remove only their own timeouts. -/
def State.step (s : State) (ldb : LeapDb) : Op → Except Abort State
  | .setReference input => s.setReference ldb input
  | .setUnsynchronised => s.setUnsynchronised ldb
  | .updateLeapStatus leap => s.refUpdateLeapStatus ldb leap
  | .setMode normal => .ok { s with normalMode := normal }
  | .clockChange change => s.invokeHandlers ldb change
  | .select cooked raw =>
      .ok { s with
        sched := { s.sched with lastSelectTs := cooked, lastSelectTsRaw := raw }
        rawTime := raw }
  | .dispatch now input => s.dispatch ldb now input
  | .addTimeout ts => do
      let (sched, _) ← Sched.addTimeout s.sched ts .other ()
      .ok { s with sched }
  | .removeTimeout id =>
      if s.sched.timerQueue.any fun ptr => ptr.id = id ∧ ptr.handler = .other then do
        let sched ← Sched.removeTimeout s.sched id
        .ok { s with sched }
      else .ok s

/-- A run of operations, each with what `LDB_GetLeap` finds during it. -/
def run (s : State) (ops : List (LeapDb × Op)) : Except Abort State :=
  ops.foldlM (fun s op => s.step op.1 op.2) s

end Chrony.Reference
