import Chip8.Machine.Cycle
import Chip8.Scheduler

/-!
# Hosts and worlds

A scheduler works in a world with a machine and a host. The clock, the inputs
and whoever watches belong to the host, whose state is of any type `η`. At
each poll the inputs hold a dialogue with the scheduler. A dialogue is finite;
each of its steps may depend on everything that can be seen at that moment.
-/

set_option autoImplicit false

namespace Chip8

/-- What a scheduler tells its host. A poll, a cycle, a tick and a reset are told just before they
happen. -/
inductive Activity where
  | signal (signal : Signal)
  | poll (frame : Nat)
  | cycle
  | tick
  | reset
  deriving DecidableEq, Repr

structure World (η : Type) where
  scheduler : Scheduler
  machine : Machine
  host : η

/-- What a host may ask for, also in the middle of a poll. -/
inductive Request where
  | run (paused : Bool)
  | pause
  | resume
  | step
  | stop
  | setSpeed (speed : Option Int)
  | setDialect (dialect : Dialect)
  | setKey (number : Int) (pressed : Bool)
  | loadRom (rom : List UInt8)
  deriving DecidableEq, Repr

inductive Answer where
  | done
  | ran (cycles : Nat)
  deriving DecidableEq, Repr

inductive Visit (η : Type) where
  /-- The poll ends; the flag asks the scheduler to quit. -/
  | leave (quit : Bool)
  | fail (cause : Fault)
  | ask (request : Request) (next : Except Fault Answer → Visit η)
  /-- What follows depends on what can be seen. -/
  | consult (next : World η → Visit η)
  | update (change : η → η) (next : Visit η)

/-- How a host keeps time, takes in what it is told, and polls its inputs. Requests come from the
dialogues of polls alone: reading the clock and waiting ask for nothing, so what other threads may
ask of a scheduler at any moment is left out. -/
structure Host (η : Type) where
  readClock : η → Float × η
  /-- Sleep for some seconds, or less if something is asked for. -/
  wait : Float → η → η
  receive : Activity → η → η
  poll : Nat → Visit η

inductive Halt where
  | fault (cause : Fault)
  /-- The bound on the passes of a run was too low. -/
  | exhausted
  deriving DecidableEq, Repr

/-- The world as something left it, and its answer. -/
structure Turn (η α : Type) where
  world : World η
  answer : Except Halt α

namespace World

variable {η : Type}

def tell (host : Host η) (activity : Activity) (world : World η) : World η :=
  { world with host := host.receive activity world.host }

def tellAll (host : Host η) (signals : List Signal) (world : World η) : World η :=
  signals.foldl (fun world signal => world.tell host (.signal signal)) world

def readClock (host : Host η) (world : World η) : Float × World η :=
  let (now, after) := host.readClock world.host
  (now, { world with host := after })

def sleep (host : Host η) (seconds : Float) (world : World η) : World η :=
  { world with host := host.wait seconds world.host }

def modifyScheduler (change : Scheduler → Scheduler) (world : World η) : World η :=
  { world with scheduler := change world.scheduler }

def adopt {α : Type} (host : Host η) (outcome : Outcome Machine α) (world : World η) :
    Turn η α where
  world := { world with machine := outcome.state }.tellAll host outcome.signals
  answer := outcome.answer.mapError .fault

end World

end Chip8
