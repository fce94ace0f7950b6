import Chip8.Scheduler.Request

/-!
# Slices

A slice is one pass of a run. It reads the clock once, and then does what is
due: it reports the rates, polls the inputs and refreshes the picture, lets
the timers count, and executes at most one instruction. Requests are heeded
only in its poll, so they act between two instructions.

While the machine is paused its timers stand still. A machine that executes a
single instruction while paused does not count its timers either.
-/

set_option autoImplicit false

namespace Chip8.World

variable {η : Type}

def report (host : Host η) (now : Float) (world : World η) : World η :=
  if world.scheduler.nextReport ≤ now then
    let rates := world.machine.screen.report world.scheduler.pictures world.scheduler.completed
    (world.tellAll host rates).modifyScheduler fun scheduler =>
      { scheduler with nextReport := now + reportInterval, pictures := 0, completed := 0 }
  else world

/-- Refresh the picture, and count it if it changed. -/
def refresh (host : Host η) (world : World η) : World η :=
  let (screen, signals, changed) := world.machine.screen.refresh
  ({ world with machine.screen := screen }.tellAll host signals).modifyScheduler
    fun scheduler =>
      if changed then { scheduler with pictures := scheduler.pictures + 1 } else scheduler

/-- Poll the inputs and refresh the picture, if a frame is due. The answer says
whether the inputs asked to quit; the picture is not refreshed then. -/
def attend (host : Host η) (run : Bool → World η → Turn η Nat) (now : Float)
    (world : World η) : Turn η Bool :=
  if world.scheduler.nextFrame ≤ now then
    let frame := world.scheduler.frame
    let begun := (world.modifyScheduler fun scheduler =>
      { scheduler with nextFrame := now + frameInterval }).tell host (.poll frame)
    let turn := begun.converse host run (host.poll frame)
    match turn.answer with
    | .ok false =>
        ⟨(turn.world.modifyScheduler fun scheduler =>
          { scheduler with frame := scheduler.frame + 1 }).refresh host, .ok false⟩
    | .ok true | .error _ => turn
  else ⟨world, .ok false⟩

/-- How often timers count that are due at a time, and when they are due next.
Timers that are still behind after the last count start afresh from now. -/
def catchUp (now : Float) : Nat → Float → Nat × Float
  | 0, due => if due ≤ now then (0, now + tickInterval) else (0, due)
  | counts + 1, due =>
      if due ≤ now then
        let (more, next) := catchUp now counts (due + tickInterval)
        (more + 1, next)
      else (0, due)

def tick (host : Host η) (world : World η) : World η :=
  let (machine, signals, _) := world.machine.tick
  { world.tell host .tick with machine := machine }.tellAll host signals

def countTimers (host : Host η) (now : Float) (world : World η) : World η :=
  let (counts, next) := catchUp now catchUpLimit world.scheduler.nextTick
  (Nat.repeat (tick host) counts world).modifyScheduler fun scheduler =>
    { scheduler with nextTick := next }

/-- The last instruction left the counter at its own address, and not because
it waits for a key. -/
def idled (machine : Machine) : Bool :=
  machine.processor.counter == machine.processor.origin && !machine.processor.awaitingKey

def countCycle (scheduler : Scheduler) : Scheduler :=
  { scheduler with cycles := scheduler.cycles + 1, completed := scheduler.completed + 1 }

/-- Keep count of the instructions in a row that idled, and stop at the limit.
Nothing is counted without a limit. -/
def countIdle (idled : Bool) (scheduler : Scheduler) : Scheduler :=
  if scheduler.idleLimit = 0 then scheduler
  else if idled then
    { scheduler with
      idleCycles := scheduler.idleCycles + 1
      state :=
        if scheduler.idleLimit ≤ scheduler.idleCycles + 1 then .stopped else scheduler.state }
  else { scheduler with idleCycles := 0 }

def limitCycles (scheduler : Scheduler) : Scheduler :=
  if scheduler.cycleLimit ≠ 0 ∧ scheduler.cycleLimit ≤ scheduler.cycles then
    { scheduler with state := .stopped }
  else scheduler

def count (world : World η) : World η :=
  world.modifyScheduler fun scheduler =>
    limitCycles (countIdle (idled world.machine) (countCycle scheduler))

def execute (host : Host η) (world : World η) : Turn η Unit :=
  let turn := (world.tell host .cycle).adopt host world.machine.cycle
  match turn.answer with
  | .ok () => ⟨turn.world.count, .ok ()⟩
  | .error _ => turn

def nextDue (scheduler : Scheduler) : Float :=
  let earlier (a b : Float) : Float := if b < a then b else a
  earlier (earlier scheduler.nextInstruction scheduler.nextTick) scheduler.nextFrame

/-- Sleep until something is due, counting in the time that has passed. -/
def sleepUntilDue (host : Host η) (world : World η) : World η :=
  if world.scheduler.state = .running then
    let (now, seen) := world.readClock host
    let seconds := nextDue world.scheduler - now
    if 0.0 < seconds then seen.sleep host seconds else seen
  else world

def throttle (host : Host η) (now interval : Float) (world : World η) : Turn η Unit :=
  if world.scheduler.nextInstruction ≤ now then
    let turn := world.execute host
    match turn.answer with
    | .error _ => turn
    | .ok () =>
        ⟨(turn.world.modifyScheduler fun scheduler =>
          { scheduler with nextInstruction := now + interval }).sleepUntilDue host, .ok ()⟩
  else ⟨world.sleepUntilDue host, .ok ()⟩

def proceed (host : Host η) (now : Float) (world : World η) : Turn η Unit :=
  let counted := world.countTimers host now
  match counted.scheduler.interval with
  | none => counted.execute host
  | some interval => counted.throttle host now interval

/-- Execute a single instruction, and pause again unless a limit was reached. -/
def stepOnce (host : Host η) (world : World η) : Turn η Unit :=
  let turn := world.execute host
  match turn.answer with
  | .error _ => turn
  | .ok () =>
      ⟨turn.world.modifyScheduler fun scheduler =>
        if scheduler.state = .stepping then { scheduler with state := .paused } else scheduler,
        .ok ()⟩

def rest (host : Host η) (now : Float) (world : World η) : World η :=
  let seconds := world.scheduler.nextFrame - now
  world.sleep host (if 0.0 < seconds then seconds else 0.0)

/-- The part of a slice behind its poll. The answer says whether the run goes
on, which it does for one more pass after a limit was reached. -/
def move (host : Host η) (now : Float) (world : World η) : Turn η Bool :=
  let onward (turn : Turn η Unit) : Turn η Bool :=
    { turn with answer := turn.answer.map fun _ => true }
  match world.scheduler.state with
  | .stopped => ⟨world, .ok false⟩
  | .stepping => onward (world.stepOnce host)
  | .paused => ⟨world.rest host now, .ok true⟩
  | .running => onward (world.proceed host now)

def slice (host : Host η) (run : Bool → World η → Turn η Nat) (world : World η) :
    Turn η Bool :=
  let (now, seen) := world.readClock host
  if seen.scheduler.state = .stopped then ⟨seen, .ok false⟩
  else
    let turn := (seen.report host now).attend host run now
    match turn.answer with
    | .error _ => turn
    | .ok true => ⟨turn.world.stop, .ok false⟩
    | .ok false => turn.world.move host now

end Chip8.World
