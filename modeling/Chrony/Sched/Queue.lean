import Mathlib.Algebra.Order.Ring.Rat
import Mathlib.Data.List.Perm.Basic
import Mathlib.Tactic.Linarith
import Chrony.Lib.Run

/-!
# The Timer Queue of the Scheduler

This module models the timeout queue of `sched.c`: `SCH_AddTimeout`,
`SCH_AddTimeoutByDelay`, `SCH_AddTimeoutInClass`, `SCH_RemoveTimeout`, the dispatching
loop `dispatch_timeouts` and the clock-step handler `handle_slew`.

The doubly linked list is a `List`, times are exact rationals (seconds of raw time),
and an identifier is a natural number below `2 ^ 32` that the counter reaches modulo
`2 ^ 32`. Handlers and their arguments are the type parameters `H` and `A`. What a
handler does while it is dispatched is a list of operations on the queue, so that the
loop is modelled with its re-entrancy.

A `TimerQueueEntry` has one field that the source does not have: `tqe`, the number of
the `allocate_tqe` call that returned it. It stands for the identity of the entry (the
free list reuses the memory of a released entry, and an identifier comes back after
the counter wraps), and no operation reads it.
-/

namespace Chrony.Sched

/-- `SCH_TimeoutClass`. -/
inductive TimeoutClass
  | reservedTimeoutValue
  | ntpClientClass
  | ntpPeerClass
  | ntpBroadcastClass
  | phcPollClass
  deriving DecidableEq, Repr

/-- `LCL_ChangeType`. -/
inductive ChangeType
  | adjust
  | step
  | unknownStep
  deriving DecidableEq, Repr

/-- The ways a call into the scheduler ends without returning. -/
inductive Abort
  /-- `assert(0)` at the end of `SCH_RemoveTimeout`. -/
  | timeoutNotFound
  /-- `assert(delay >= 0.0)` and `assert(min_delay >= 0.0)`. -/
  | negativeDelay
  /-- `LOG_FATAL("Timeout overflow")`. -/
  | timeoutOverflow
  /-- `get_new_tqe_id` tries identifiers forever, as all of them are used. -/
  | noFreeId
  /-- `LOG_FATAL("Possible infinite loop in scheduling")`. -/
  | infiniteLoop
  /-- The head of an empty queue is read as if it was an entry. -/
  | emptyQueue
  deriving DecidableEq, Repr

/-- `TimerQueueEntry`, with the number of its allocation. -/
structure TimerQueueEntry (H A : Type) where
  tqe : ℕ
  ts : ℚ
  id : ℕ
  cls : TimeoutClass
  handler : H
  arg : A
  deriving DecidableEq, Repr

/-- The static variables of `sched.c` that the timeouts use, and the number of entries
allocated so far. -/
structure State (H A : Type) where
  timerQueue : List (TimerQueueEntry H A)
  nTimerQueueEntries : ℕ
  nextTqeId : ℕ
  lastClassDispatch : TimeoutClass → ℚ
  lastSelectTs : ℚ
  lastSelectTsRaw : ℚ
  allocated : ℕ

variable {H A : Type}

/-- `SCH_Initialise`, at the raw time `now`. -/
def initialise (now : ℚ) : State H A where
  timerQueue := []
  nTimerQueueEntries := 0
  nextTqeId := 0
  lastClassDispatch := fun _ => 0
  lastSelectTs := now
  lastSelectTsRaw := now
  allocated := 0

/-- The search of `get_new_tqe_id` with `tries` attempts left. -/
def tryTqeId (queue : List (TimerQueueEntry H A)) : ℕ → ℕ → Option ℕ
  | 0, _ => none
  | tries + 1, nextTqeId =>
      let nextTqeId := (nextTqeId + 1) % 2 ^ 32
      if nextTqeId = 0 then tryTqeId queue tries nextTqeId
      else if queue.any (·.id == nextTqeId) then tryTqeId queue tries nextTqeId
      else some nextTqeId

/-- `get_new_tqe_id`. One attempt for zero and one for each entry are enough to meet a
free identifier, unless all of them are used (`tryTqeId_isSome`). -/
def getNewTqeId (s : State H A) : Except Abort ℕ :=
  match tryTqeId s.timerQueue (s.timerQueue.length + 2) s.nextTqeId with
  | some id => .ok id
  | none => .error .noFreeId

/-- Link `e` immediately before the first entry of the queue that satisfies `p`, or at
the end of the queue if there is none. -/
def insertBefore (p : TimerQueueEntry H A → Bool) (e : TimerQueueEntry H A) :
    List (TimerQueueEntry H A) → List (TimerQueueEntry H A)
  | [] => [e]
  | x :: q => if p x then e :: x :: q else x :: insertBefore p e q

/-- `allocate_tqe`, `get_new_tqe_id` and the setting of the fields of the new entry,
followed by linking it before the first entry that satisfies `p`. -/
def link (s : State H A) (p : TimerQueueEntry H A → Bool) (ts : ℚ) (cls : TimeoutClass)
    (handler : H) (arg : A) : Except Abort (State H A × TimerQueueEntry H A) := do
  let id ← getNewTqeId s
  let e : TimerQueueEntry H A := ⟨s.allocated, ts, id, cls, handler, arg⟩
  pure ({ s with
    timerQueue := insertBefore p e s.timerQueue
    nTimerQueueEntries := s.nTimerQueueEntries + 1
    nextTqeId := id
    allocated := s.allocated + 1 }, e)

/-- `SCH_AddTimeout`. The caller gets the identifier of the new entry. -/
def addTimeout (s : State H A) (ts : ℚ) (handler : H) (arg : A) :
    Except Abort (State H A × TimerQueueEntry H A) :=
  link s (fun ptr => ts < ptr.ts) ts .reservedTimeoutValue handler arg

/-- `SCH_AddTimeoutByDelay`, where the raw clock reads `now`. -/
def addTimeoutByDelay (s : State H A) (now delay : ℚ) (handler : H) (arg : A) :
    Except Abort (State H A × TimerQueueEntry H A) :=
  if delay < 0 then .error .negativeDelay
  else if now > now + delay then .error .timeoutOverflow
  else addTimeout s (now + delay) handler arg

/-- One turn of the loop of `SCH_AddTimeoutInClass` that keeps the new delay away from
the entries of the class. -/
def separateFrom (now separation : ℚ) (cls : TimeoutClass) (newMinDelay : ℚ)
    (ptr : TimerQueueEntry H A) : ℚ :=
  if ptr.cls = cls then
    let diff := ptr.ts - now
    if newMinDelay > diff then
      if newMinDelay - diff < separation then diff + separation else newMinDelay
    else
      if diff - newMinDelay < separation then diff + separation else newMinDelay
  else newMinDelay

/-- The factor by which `SCH_AddTimeoutInClass` stretches the delay and the separation,
for the random 32-bit number `rnd`. -/
def stretch (randomness : ℚ) (rnd : ℕ) : ℚ :=
  if randomness > 0 then rnd * (randomness / (2 ^ 32 - 1)) + 1 else 1

/-- The delay that `SCH_AddTimeoutInClass` gives to the new entry: away from the last
dispatched timeout of the class, and from all queued ones. -/
def delayInClass (s : State H A) (now minDelay separation : ℚ) (cls : TimeoutClass) : ℚ :=
  let diff := now - s.lastClassDispatch cls
  let newMinDelay :=
    if diff < separation ∧ diff ≥ 0 ∧ diff + minDelay < separation then separation - diff
    else minDelay
  s.timerQueue.foldl (separateFrom now separation cls) newMinDelay

/-- `SCH_AddTimeoutInClass`, where the raw clock reads `now` and the random number is
`rnd`. -/
def addTimeoutInClass (s : State H A) (now : ℚ) (rnd : ℕ)
    (minDelay separation randomness : ℚ) (cls : TimeoutClass) (handler : H) (arg : A) :
    Except Abort (State H A × TimerQueueEntry H A) :=
  if minDelay < 0 then .error .negativeDelay
  else
    let r := stretch randomness rnd
    let newMinDelay := delayInClass s now (minDelay * r) (separation * r) cls
    link s (fun ptr => ptr.ts - now > newMinDelay) (now + newMinDelay) cls handler arg

/-- `SCH_RemoveTimeout`. -/
def removeTimeout (s : State H A) (id : ℕ) : Except Abort (State H A) :=
  if id = 0 then .ok s
  else if s.timerQueue.any (·.id == id) then
    .ok { s with
      timerQueue := s.timerQueue.eraseP (·.id == id)
      nTimerQueueEntries := s.nTimerQueueEntries - 1 }
  else .error .timeoutNotFound

/-- `handle_slew`. A step shifts all raw times; the cooked time of the last event is
adjusted on any change. -/
def handleSlew (s : State H A) (cooked dfreq doffset : ℚ) (changeType : ChangeType) :
    State H A :=
  let s := if changeType ≠ .adjust then
    { s with
      timerQueue := s.timerQueue.map fun ptr => { ptr with ts := ptr.ts - doffset }
      lastClassDispatch := fun i => s.lastClassDispatch i - doffset
      lastSelectTsRaw := s.lastSelectTsRaw - doffset }
  else s
  { s with lastSelectTs := s.lastSelectTs + ((cooked - s.lastSelectTs) * dfreq - doffset) }

/-! ### Operations, handlers and runs -/

/-- The operations on the timer queue that any code outside of the dispatching loop can
make, with the clock readings and random numbers they meet. -/
inductive Op (H A : Type)
  | addTimeout (ts : ℚ) (handler : H) (arg : A)
  | addTimeoutByDelay (now delay : ℚ) (handler : H) (arg : A)
  | addTimeoutInClass (now : ℚ) (rnd : ℕ) (minDelay separation randomness : ℚ)
      (cls : TimeoutClass) (handler : H) (arg : A)
  | removeTimeout (id : ℕ)
  | handleSlew (cooked dfreq doffset : ℚ) (changeType : ChangeType)

/-- What happened to an entry of the queue. -/
inductive Event (H A : Type)
  | added (e : TimerQueueEntry H A)
  | removed (e : TimerQueueEntry H A)
  | dispatched (e : TimerQueueEntry H A)

/-- The entry that `SCH_RemoveTimeout` finds for `id`, as a history. -/
def removedEvents (s : State H A) (id : ℕ) : List (Event H A) :=
  if id = 0 then [] else ((s.timerQueue.find? (·.id == id)).map Event.removed).toList

/-- One operation, with its history appended. -/
def stepOp (st : State H A × List (Event H A)) (op : Op H A) :
    Except Abort (State H A × List (Event H A)) :=
  let (s, log) := st
  match op with
  | .addTimeout ts handler arg => do
      let (s', e) ← addTimeout s ts handler arg
      pure (s', log ++ [.added e])
  | .addTimeoutByDelay now delay handler arg => do
      let (s', e) ← addTimeoutByDelay s now delay handler arg
      pure (s', log ++ [.added e])
  | .addTimeoutInClass now rnd minDelay separation randomness cls handler arg => do
      let (s', e) ← addTimeoutInClass s now rnd minDelay separation randomness cls handler arg
      pure (s', log ++ [.added e])
  | .removeTimeout id => do
      let s' ← removeTimeout s id
      pure (s', log ++ removedEvents s id)
  | .handleSlew cooked dfreq doffset changeType =>
      pure (handleSlew s cooked dfreq doffset changeType, log)

/-- One turn of the loop of `dispatch_timeouts`: the raw time it reads, what the called
handler does with the queue, and whether a quit is requested at the end of the turn. -/
structure Turn (H A : Type) where
  now : ℚ
  handlerOps : List (Op H A)
  needToExit : Bool

/-- The loop of `dispatch_timeouts` after `nDone` turns, started with `nEntriesOnStart`
entries. It goes on as long as turns are given, so that every state inside the loop is
the end of some run. -/
def dispatchLoop (nEntriesOnStart : ℕ) :
    ℕ → State H A × List (Event H A) → List (Turn H A) →
      Except Abort (State H A × List (Event H A))
  | _, st, [] => .ok st
  | nDone, (s, log), turn :: turns =>
      if s.nTimerQueueEntries > 0 then
        match s.timerQueue with
        | [] => .error .emptyQueue
        | ptr :: _ =>
            if turn.now ≥ ptr.ts then do
              let s₁ := { s with
                lastClassDispatch := Function.update s.lastClassDispatch ptr.cls turn.now }
              let s₂ ← removeTimeout s₁ ptr.id
              let (s₃, log) ← turn.handlerOps.foldlM stepOp (s₂, log ++ [.dispatched ptr])
              let nDone := nDone + 1
              if nDone > 20 ∧ nDone > 4 * max s₃.nTimerQueueEntries nEntriesOnStart ∧
                  |turn.now - s₃.lastSelectTsRaw| / nDone < 1 / 100 then .error .infiniteLoop
              else if turn.needToExit then .ok (s₃, log)
              else dispatchLoop nEntriesOnStart nDone (s₃, log) turns
            else .ok (s, log)
      else .ok (s, log)

/-- `dispatch_timeouts`. -/
def dispatchTimeouts (st : State H A × List (Event H A)) (turns : List (Turn H A)) :
    Except Abort (State H A × List (Event H A)) :=
  dispatchLoop st.1.nTimerQueueEntries 0 st turns

/-- What the rest of the daemon can do to the queue. -/
inductive Call (H A : Type)
  | op (op : Op H A)
  | dispatchTimeouts (turns : List (Turn H A))

/-- One call. -/
def call (st : State H A × List (Event H A)) :
    Call H A → Except Abort (State H A × List (Event H A))
  | .op op => stepOp st op
  | .dispatchTimeouts turns => dispatchTimeouts st turns

/-- A run of calls from the initialised scheduler, with its history. -/
def run (now : ℚ) (calls : List (Call H A)) : Except Abort (State H A × List (Event H A)) :=
  calls.foldlM call (initialise now, [])

end Chrony.Sched
