import Chip8.Scheduler.World

/-!
# Requests

How a scheduler carries out what its host asks for. A request that is refused
changes nothing but the time on the clock. Running is left to a parameter,
since a run polls inputs which may ask for a run in their turn.
-/

set_option autoImplicit false

namespace Chip8.World

variable {η : Type}

def done (world : World η) : Turn η Answer := ⟨world, .ok .done⟩

def refused {α : Type} (world : World η) (cause : Fault) : Turn η α :=
  ⟨world, .error (.fault cause)⟩

def pause (host : Host η) (world : World η) : Turn η Answer :=
  match world.scheduler.state with
  | .stopped => world.refused .pausedWhileStopped
  | .running =>
      let (now, seen) := world.readClock host
      (seen.modifyScheduler fun scheduler =>
        { scheduler with pausedAt := now, state := .paused }).done
  | .paused | .stepping => world.done

/-- Let a paused machine run. What was due is put off by the length of the
pause, so the machine does not notice it. -/
def resume (host : Host η) (world : World η) : Turn η Answer :=
  match world.scheduler.state with
  | .stopped => world.refused .resumedWhileStopped
  | .running => world.done
  | .paused | .stepping =>
      let (now, seen) := world.readClock host
      (seen.modifyScheduler fun scheduler =>
        let pause := now - scheduler.pausedAt
        { scheduler with
          nextTick := scheduler.nextTick + pause
          nextInstruction := scheduler.nextInstruction + pause
          nextReport := scheduler.nextReport + pause
          state := .running }).done

def step (world : World η) : Turn η Answer :=
  match world.scheduler.state with
  | .stopped | .running => world.refused .steppedWhileNotPaused
  | .paused | .stepping =>
      (world.modifyScheduler fun scheduler => { scheduler with state := .stepping }).done

/-- Stop, and have the machine reset when the run ends. -/
def stop (world : World η) : World η :=
  world.modifyScheduler fun scheduler => { scheduler with discard := true, state := .stopped }

/-- Stop, and leave the machine as it is. -/
def halt (world : World η) : World η :=
  world.modifyScheduler fun scheduler => { scheduler with state := .stopped }

def setSpeed (speed : Option Int) (world : World η) : Turn η Answer :=
  match Scheduler.intervalOf speed with
  | .error cause => world.refused cause
  | .ok interval =>
      (world.modifyScheduler fun scheduler => { scheduler with interval := interval }).done

def setKey (number : Int) (pressed : Bool) (world : World η) : Turn η Answer :=
  match world.machine.setKey number pressed with
  | .error cause => world.refused cause
  | .ok machine => { world with machine := machine }.done

def loadRom (host : Host η) (rom : List UInt8) (world : World η) : Turn η Answer :=
  let turn := (world.tell host .reset).adopt host (world.machine.loadRom rom)
  { turn with answer := turn.answer.map fun _ => .done }

def perform (host : Host η) (run : Bool → World η → Turn η Nat) (request : Request)
    (world : World η) : Turn η Answer :=
  match request with
  | .run paused =>
      let turn := run paused world
      { turn with answer := turn.answer.map .ran }
  | .pause => world.pause host
  | .resume => world.resume host
  | .step => world.step
  | .stop => world.stop.done
  | .setSpeed speed => world.setSpeed speed
  | .setDialect dialect => { world with machine.dialect := dialect }.done
  | .setKey number pressed => world.setKey number pressed
  | .loadRom rom => world.loadRom host rom

/-- Hold the dialogue of a poll. The answer says whether it asked to quit. A
refused request does not end the dialogue. -/
def converse (host : Host η) (run : Bool → World η → Turn η Nat) :
    Visit η → World η → Turn η Bool
  | .leave quit, world => ⟨world, .ok quit⟩
  | .fail cause, world => world.refused cause
  | .ask request next, world =>
      let turn := world.perform host run request
      match turn.answer with
      | .ok answer => converse host run (next (.ok answer)) turn.world
      | .error (.fault cause) => converse host run (next (.error cause)) turn.world
      | .error .exhausted => ⟨turn.world, .error .exhausted⟩
  | .consult next, world => converse host run (next world) world
  | .update change next, world =>
      converse host run next { world with host := change world.host }

end Chip8.World
