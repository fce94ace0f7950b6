import Chip8.Binary64
import Chip8.Fault
import Chip8.Signal

/-!
# Schedulers

A scheduler runs a machine against a clock. Inputs are polled and the picture
is refreshed sixty times a second, the timers count sixty times a second, and
instructions are executed at a chosen speed. It is stopped, running, paused,
or about to execute a single instruction while paused.

Moments are the seconds that a clock shows. A scheduler remembers when each
of its duties is due next, and counts what a report is about.
-/

set_option autoImplicit false

namespace Chip8

inductive RunState where
  | stopped
  | running
  | paused
  | stepping
  deriving DecidableEq, Repr

namespace RunState

def name : RunState → String
  | stopped => "stopped"
  | running => "running"
  | paused => "paused"
  | stepping => "stepping"

def isAmong (state : RunState) (names : List String) : Bool := names.contains state.name

end RunState

def tickInterval : Float := 1.0 / Signal.timerFrequency

def frameInterval : Float := 1.0 / 60.0

def reportInterval : Float := 1.0

/-- Timers that have fallen behind count at most this often in a row. -/
def catchUpLimit : Nat := 6

def usualSpeed : Int := 1000

structure Scheduler where
  state : RunState := .stopped
  /-- Stop after so many instructions in a row that jump to themselves; zero
  never stops. -/
  idleLimit : Int := 0
  /-- Stop after so many instructions; zero never stops. -/
  cycleLimit : Int := 0
  /-- The seconds between two instructions, unless they follow at once. -/
  interval : Option Float
  cycles : Nat := 0
  idleCycles : Nat := 0
  frame : Nat := 0
  /-- The machine is to be reset when the run ends. -/
  discard : Bool := false
  pausedAt : Float := 0.0
  nextTick : Float := 0.0
  nextFrame : Float := 0.0
  nextInstruction : Float := 0.0
  nextReport : Float := 0.0
  /-- Pictures that changed, since the last report. -/
  pictures : Nat := 0
  /-- Instructions completed, since the last report. -/
  completed : Nat := 0

namespace Scheduler

def intervalAt (rate : Float) : Option Float :=
  if rate ≤ 0.0 then none else some (1.0 / rate)

/-- The seconds between two instructions at a speed. A speed of zero or less
leaves no time between them, however far below it is. -/
def intervalOf (speed : Option Int) : Except Fault (Option Float) :=
  let chosen := speed.getD usualSpeed
  if chosen ≤ 0 then .ok none
  else
    let rate := Binary64.ofInt chosen
    if rate.isInf then .error .beyondFloat else .ok (intervalAt rate)

def create (speed : Option Int) (idleLimit cycleLimit : Int) : Except Fault Scheduler :=
  (intervalOf speed).map fun interval =>
    { interval := interval, idleLimit := idleLimit, cycleLimit := cycleLimit }

end Scheduler

end Chip8
