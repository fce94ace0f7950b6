import Chip8.Scheduler.Slice

/-!
# Runs

A run repeats slices until one of them finds the machine stopped. It ends with
one more refresh, so the display has the last picture, and only then is the
machine reset if the run was ended on request. A run that fails ends stopped
and leaves the machine as the failure left it.

A run need not end, so it is given a bound on its passes, which also bounds
the runs that its polls ask for. Reaching the bound is an outcome of its own.
-/

set_option autoImplicit false

namespace Chip8.World

variable {η : Type}

def begin (host : Host η) (paused : Bool) (world : World η) : Turn η Unit :=
  if world.scheduler.state = .stopped then
    let (now, seen) := world.readClock host
    ⟨seen.modifyScheduler fun scheduler =>
      { scheduler with
        state := if paused then .paused else .running
        pausedAt := now
        cycles := 0
        idleCycles := 0
        frame := 0
        discard := false
        nextTick := now + tickInterval
        nextFrame := now
        nextInstruction := now
        nextReport := now + reportInterval }, .ok ()⟩
  else world.refused .alreadyRunning

/-- Repeat slices, at most so many, until one says that the run is over. -/
def loop (host : Host η) (run : Bool → World η → Turn η Nat) : Nat → World η → Turn η Unit
  | 0, world => ⟨world, .error .exhausted⟩
  | passes + 1, world =>
      let turn := world.slice host run
      match turn.answer with
      | .error cause => ⟨turn.world, .error cause⟩
      | .ok false => ⟨turn.world, .ok ()⟩
      | .ok true => loop host run passes turn.world

def discardRun (host : Host η) (world : World η) : World η :=
  if world.scheduler.discard then
    let (machine, signals) := world.machine.reset
    { world.tell host .reset with machine := machine }.tellAll host signals
  else world

def finish (host : Host η) (turn : Turn η Unit) : Turn η Nat :=
  match turn.answer with
  | .ok () =>
      let ended := (turn.world.refresh host).discardRun host
      ⟨ended, .ok ended.scheduler.cycles⟩
  | .error (.fault cause) => turn.world.halt.refused cause
  | .error .exhausted => ⟨turn.world, .error .exhausted⟩

/-- Run the machine, in at most so many passes. The answer is the number of
instructions completed. -/
def run (host : Host η) : Nat → Bool → World η → Turn η Nat
  | 0, paused, world =>
      let turn := world.begin host paused
      { turn with answer := turn.answer.bind fun _ => .error .exhausted }
  | passes + 1, paused, world =>
      let turn := world.begin host paused
      match turn.answer with
      | .error cause => ⟨turn.world, .error cause⟩
      | .ok () => finish host (turn.world.loop host (run host passes) passes)

end Chip8.World
