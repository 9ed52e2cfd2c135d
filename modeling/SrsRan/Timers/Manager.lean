import SrsRan.Lib.Run
import SrsRan.Lib.TripleBuffer
import SrsRan.Support.Window

/-!
# The timer service

`timer_manager` and its `unique_timer`s.  The frontend of a timer belongs to one execution context, which numbers its
commands (`cmd_id`) and puts them into the three buffers of a channel; the backend belongs to the thread that calls `tick`.

An action is one atomic operation of `push`, one iteration of a loop of `tick`, or one timeout task.  `commands`, `nofTicks`
and `log` are histories.  A callback is the event that a timeout task gets to call it; command identifiers do not wrap.
-/

namespace SrsRan.Timers

open Support Lib.Run Lib
open Function (update)

inductive TimerState where
  | stopped
  | running
  | expired
deriving DecidableEq

/-- The action of a command; a duration is a number of milliseconds with a sign. -/
inductive CmdAction where
  | start (duration : ℤ)
  | stop
  | create
  | destroy
deriving DecidableEq

/-- `cmd_t`; an empty buffer of the channel is a command with an invalid timer id. -/
structure Cmd where
  cmdId : ℕ
  action : CmdAction
deriving DecidableEq

/-- The back end of a timer. -/
structure Backend where
  cmdId : ℕ
  state : TimerState
  timeout : ℕ
deriving DecidableEq

/-- `timer_handle`: `created` says that the backend is connected, `holder` who has it. -/
structure Timer where
  state : TimerState
  duration : Option ℤ
  exec : Option ℕ
  cmdId : ℕ
  channel : TripleBuffer Cmd
  backend : Backend
  created : Bool
  holder : Option ℕ
  commands : List CmdAction

def Timer.init : Timer where
  state := .stopped
  duration := none
  exec := none
  cmdId := 0
  channel := .init
  backend := ⟨0, .stopped, 0⟩
  created := false
  holder := none
  commands := []

/-- The command is in the write buffer; or the exchange is done. -/
inductive PushStage where
  | written
  | exchanged (buffer : Fin 3)
deriving DecidableEq

inductive TickPhase where
  | idle
  /-- In `handle_timer_commands`, with the signals to be handled. -/
  | commands (updatedTimers : List ℕ)
  | postponed
  | ready
  /-- In the loop over the bucket, with the timers to be visited. -/
  | expiring (rest : List ℕ)
deriving DecidableEq

/-- What happened to a timer. -/
inductive Event where
  | started (timer cmdId : ℕ) (duration : ℤ) (tick : ℕ)
  | expired (timer cmdId tick : ℕ)
  | callback (timer epoch : ℕ)
deriving DecidableEq

/-- `manager_impl`, and where the threads are -/
structure TimerManager where
  curTime : ℕ
  nofTicks : ℕ
  timers : ℕ → Timer
  nextTimerId : ℕ
  timerFreeList : List ℕ
  pendingTimersToCreate : List ℕ
  timersWithPendingEvents : List ℕ
  timeWheel : ℕ → List ℕ
  failedToTriggerTimers : List (ℕ × ℕ)
  phase : TickPhase
  pushes : ℕ → Option (ℕ × PushStage)
  /-- The timeout tasks that have been dispatched, with their epochs. -/
  tasks : List (ℕ × ℕ)
  log : List Event

def wheelSize : ℕ := 2 ^ 16

def maxTimerDuration : ℤ := (2 ^ 32 - 1) / 2

def notEnabled : Abort := .assertion "not enabled"

namespace TimerManager

variable (s : TimerManager)

def init (capacity : ℕ) : TimerManager where
  curTime := 0
  nofTicks := 0
  timers i := { Timer.init with created := i < capacity }
  nextTimerId := capacity
  timerFreeList := List.range capacity
  pendingTimersToCreate := []
  timersWithPendingEvents := []
  timeWheel _ := []
  failedToTriggerTimers := []
  phase := .idle
  pushes _ := none
  tasks := []
  log := []

variable (i : ℕ)

def setTimer (t : Timer) : TimerManager := { s with timers := update s.timers i t }

/-! ### The frontend -/

/-- `push`, up to the exchange -/
def push (c i : ℕ) (a : CmdAction) : TimerManager :=
  let t := s.timers i
  { s with
    timers := update s.timers i
      { t with
        cmdId := t.cmdId + 1
        channel := t.channel.fill ⟨t.cmdId + 1, a⟩
        commands := t.commands ++ [a] }
    pushes := update s.pushes c (some (i, .written)) }

/-- `push`: the write buffer goes to the middle. -/
def exchange (c : ℕ) : Except Abort TimerManager :=
  match s.pushes c with
  | some (i, .written) =>
    let t := s.timers i
    .ok { s with
      timers := update s.timers i { t with channel := t.channel.exchange }
      pushes := update s.pushes c (some (i, .exchanged t.channel.middle)) }
  | _ => .error notEnabled

/-- `push`: the other buffer is stored, and the backend is notified if it is empty. -/
def finish (c : ℕ) : Except Abort TimerManager :=
  match s.pushes c with
  | some (i, .exchanged w) =>
    let t := s.timers i
    .ok { s with
      timers := update s.timers i { t with channel := t.channel.adopt w }
      timersWithPendingEvents :=
        if (t.channel.buffers w).isNone then s.timersWithPendingEvents ++ [i] else s.timersWithPendingEvents
      pushes := update s.pushes c none }
  | _ => .error notEnabled

/-- The context is not in the middle of a call and has the `unique_timer`. -/
def withTimer (c i : ℕ) (x : Except Abort TimerManager) : Except Abort TimerManager :=
  if s.pushes c = none ∧ (s.timers i).holder = some c then x else .error notEnabled

/-- `create_frontend_timer`, with a timer of the free list or with a new one -/
def createFrontendTimer (c : ℕ) : Option ℕ → Except Abort TimerManager
  | some i =>
    if ¬ (s.pushes c = none ∧ i ∈ s.timerFreeList) then .error notEnabled
    else if (s.timers i).exec ≠ none then .error (.assertion "Reassignment of timer detected")
    else
      .ok { s with
        timerFreeList := s.timerFreeList.erase i
        timers := update s.timers i { s.timers i with exec := some c, holder := some c } }
  | none =>
    if s.pushes c ≠ none then .error notEnabled
    else
      let i := s.nextTimerId
      let s := { s with
        nextTimerId := i + 1
        timers := update s.timers i { s.timers i with exec := some c, holder := some c }
        pendingTimersToCreate := s.pendingTimersToCreate ++ [i] }
      .ok (s.push c i .create)

def set (c i : ℕ) (dur : ℤ) : Except Abort TimerManager :=
  if ¬ dur ≤ maxTimerDuration then .error (.assertion "Invalid timer duration")
  else
    let s := s.setTimer i { s.timers i with duration := some dur }
    .ok (if (s.timers i).state = .running then s.push c i (.start dur) else s)

def run (c i : ℕ) : Except Abort TimerManager :=
  match (s.timers i).duration with
  | none => .error (.assertion "Calling timer::run with invalid duration")
  | some d => .ok ((s.setTimer i { s.timers i with state := .running }).push c i (.start d))

def stop (c i : ℕ) : Except Abort TimerManager :=
  if (s.timers i).state = .running then
    .ok ((s.setTimer i { s.timers i with state := .stopped }).push c i .stop)
  else .ok s

def destroy (c i : ℕ) : Except Abort TimerManager :=
  .ok ((s.setTimer i { s.timers i with state := .stopped, holder := none }).push c i .destroy)

/-! ### The backend -/

def handlePendingTimerCreations : List ℕ → TimerManager → Except Abort TimerManager
  | [], s => .ok { s with pendingTimersToCreate := [] }
  | i :: l, s =>
    if (s.timers i).created then .error (.assertion "Duplicate timer id detection")
    else handlePendingTimerCreations l (s.setTimer i { s.timers i with created := true })

/-- `try_stop_timer_backend`, for another reason than expiry -/
def tryStopTimerBackend : TimerManager :=
  let t := s.timers i
  if t.backend.state = .running then
    let b := t.backend.timeout % wheelSize
    { s with
      timeWheel := update s.timeWheel b ((s.timeWheel b).erase i)
      timers := update s.timers i { t with backend := { t.backend with state := .stopped } } }
  else s

def startTimerBackend (duration : ℤ) : Except Abort TimerManager :=
  let t := s.timers i
  if t.backend.state = .running then .error (.assertion "Invalid timer state")
  else
    let timeout := (s.curTime + max (duration % 2 ^ 32).toNat 1) % 2 ^ 32
    let b := timeout % wheelSize
    .ok { s with
      timers := update s.timers i
        { t with backend := { t.backend with state := .running, timeout := timeout } }
      timeWheel := update s.timeWheel b (i :: s.timeWheel b)
      log := .started i t.backend.cmdId duration s.nofTicks :: s.log }

def destroyTimerBackend : Except Abort TimerManager :=
  let t := s.timers i
  if t.backend.state = .running then .error (.assertion "Destroying timer that is running not allowed")
  else
    .ok { s with
      timers := update s.timers i
        { t with
          state := .stopped
          duration := none
          exec := none
          backend := { t.backend with state := .stopped, timeout := 0 } }
      timerFreeList := s.timerFreeList ++ [i] }

def applyCommand : CmdAction → Except Abort TimerManager
  | .create => .ok s
  | .stop => .ok (s.tryStopTimerBackend i)
  | .start duration => (s.tryStopTimerBackend i).startTimerBackend i duration
  | .destroy => (s.tryStopTimerBackend i).destroyTimerBackend i

def handleTimerUpdates : Except Abort TimerManager :=
  let t := s.timers i
  match t.channel.pending with
  | none => .ok (s.setTimer i { t with channel := t.channel.pop })
  | some cmd =>
    (s.setTimer i { t with channel := t.channel.pop, backend := { t.backend with cmdId := cmd.cmdId } }).applyCommand i
      cmd.action

def connect : Except Abort TimerManager :=
  if (s.timers i).created then .ok s else handlePendingTimerCreations s.pendingTimersToCreate s

def handleSignal : Except Abort TimerManager := do
  let s ← s.connect i
  if (s.timers i).created then s.handleTimerUpdates i else .ok s

def triggerTimeoutHandling (success : Bool) : Except Abort TimerManager :=
  match (s.timers i).exec with
  | none => .error (.assertion "null executor")
  | some _ => .ok (if success then { s with tasks := s.tasks ++ [(i, (s.timers i).backend.cmdId)] } else s)

def handlePostponedTimeout (success : Bool) : Except Abort TimerManager :=
  match s.failedToTriggerTimers with
  | [] => .ok { s with phase := .ready }
  | (i, prevCmdId) :: l =>
    let t := s.timers i
    if t.backend.cmdId = prevCmdId ∧ t.backend.cmdId = t.cmdId then do
      let s ← s.triggerTimeoutHandling i success
      .ok (if success then { s with failedToTriggerTimers := l } else { s with phase := .ready })
    else .ok { s with failedToTriggerTimers := l }

/-- `stop_timer_backend` for a run that expires: dispatched if the epochs match, or postponed. -/
def expireTimerBackend (success : Bool) : Except Abort TimerManager :=
  let t := s.timers i
  if t.backend.state ≠ .running then .error (.assertion "Stopping timer that was not running")
  else
    let b := t.backend.timeout % wheelSize
    let s := { s with
      timeWheel := update s.timeWheel b ((s.timeWheel b).erase i)
      timers := update s.timers i { t with backend := { t.backend with state := .expired } }
      log := .expired i t.backend.cmdId s.nofTicks :: s.log }
    if t.backend.cmdId = t.cmdId then do
      let s ← s.triggerTimeoutHandling i success
      .ok (if success then s
        else { s with failedToTriggerTimers := s.failedToTriggerTimers ++ [(i, t.backend.cmdId)] })
    else .ok s

/-- The next operation of `tick`. -/
def tick (success : Bool) : Except Abort TimerManager :=
  match s.phase with
  | .idle => .ok { s with phase := .commands s.timersWithPendingEvents, timersWithPendingEvents := [] }
  | .commands [] => .ok { s with phase := .postponed }
  | .commands (i :: l) => ({ s with phase := .commands l } : TimerManager).handleSignal i
  | .postponed => s.handlePostponedTimeout success
  | .ready =>
    let curTime := (s.curTime + 1) % 2 ^ 32
    .ok { s with
      curTime := curTime
      nofTicks := s.nofTicks + 1
      phase := .expiring (s.timeWheel (curTime % wheelSize)) }
  | .expiring [] => .ok { s with phase := .idle }
  | .expiring (i :: l) =>
    let s := { s with phase := .expiring l }
    if s.curTime ≠ (s.timers i).backend.timeout then .ok s else s.expireTimerBackend i success

def runTask (i epoch : ℕ) : Except Abort TimerManager :=
  if !s.tasks.contains (i, epoch) then .error notEnabled
  else
    let t := s.timers i
    let s := { s with tasks := s.tasks.erase (i, epoch) }
    if t.cmdId = epoch then
      if t.state ≠ .running then .error (.assertion "The timer can only expire if it was already running")
      else
        .ok { s with
          timers := update s.timers i { t with state := .expired }
          log := .callback i epoch :: s.log }
    else .ok s

end TimerManager

/-- What a thread does next. -/
inductive TimerAction where
  | create (context : ℕ) (cached : Option ℕ)
  | set (context timer : ℕ) (duration : ℤ)
  | run (context timer : ℕ)
  | stop (context timer : ℕ)
  | destroy (context timer : ℕ)
  | exchange (context : ℕ)
  | finish (context : ℕ)
  | tick (success : Bool)
  | runTask (timer epoch : ℕ)
deriving DecidableEq

namespace TimerManager

/-- The calls of front ends, and the parts of a tick. -/
def step (s : TimerManager) : TimerAction → Except Abort TimerManager
  | .create c cached => s.createFrontendTimer c cached
  | .set c i dur => s.withTimer c i (s.set c i dur)
  | .run c i => s.withTimer c i (s.run c i)
  | .stop c i => s.withTimer c i (s.stop c i)
  | .destroy c i => s.withTimer c i (s.destroy c i)
  | .exchange c => s.exchange c
  | .finish c => s.finish c
  | .tick success => s.tick success
  | .runTask i epoch => s.runTask i epoch

end TimerManager

end SrsRan.Timers
