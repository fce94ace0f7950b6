import Chip8.Console
import Chip8.Scheduler.Run
import Chip8.Settings

/-!
# Sessions

From settings to the end of a run. A session first prints
its line and then reads its settings; files are read in between, and nothing
else is printed before the run. When the run is over, also when it failed, the
console is shut down and so prints its last frame. A setting of a wrong kind
is refused only when its value is needed, which may be in the middle of a run
or behind it.

Files are read through a function, and random bytes come from a given source
unless a seed is set. The clock, the output and the room for texts are given as
well, so a session depends on nothing but its arguments. A run whose bound is
reached is not over, and its console is left as it is.
-/

set_option autoImplicit false

namespace Chip8

structure Surroundings (τ : Type) where
  read : String → Except ReadError ByteArray
  random : RandomSource
  clock : Clock τ
  start : τ
  output : Output
  room : Room

namespace Session

variable {τ : Type}

def greeting : String := Banner.sessionLine ++ "\n"

def readDialect (settings : Settings) : Except Failure Dialect := do
  let changes ← Trait.all.mapM fun trait => do
    return (trait.name, ← settings.flag? trait.settingName)
  match (← settings.getOr "arch" (.text Family.usual.name)).name? with
  | none => throw (.unfit "arch")
  | some family =>
      (Dialect.choose (some family) changes).mapError fun cause => .fault (.unknownDialect cause)

inductive DisplayKind where
  | text
  | absent
  deriving DecidableEq, Repr

def readDisplayKind (settings : Settings) : Except Failure DisplayKind := do
  match (← settings.getOr "renderer" (.text "null")).spelling with
  | "text" => return .text
  | "null" => return .absent
  | name => throw (.unknownDisplay name)

/-- A bell rings only where muting was turned off expressly. -/
def readBell (settings : Settings) : Except Failure Bool := do
  return (← settings.flag? "mute") == some false

def readFile (surroundings : Surroundings τ) (name : String) : Except Failure ByteArray :=
  (surroundings.read name).mapError (.unreadable (some name))

def readLines (surroundings : Surroundings τ) (name : String) :
    Except Failure (List (List Char)) := do
  match Volume.textLines? (← readFile surroundings name) with
  | some lines => return lines
  | none => throw (.notText name)

def readTraceLines (surroundings : Surroundings τ) (settings : Settings) :
    Except Failure (List (List Char)) := do
  match ← settings.file? "trace" with
  | some name => readLines surroundings name
  | none => return []

def stretch? : Setting → Option (Option Int)
  | .none => some none
  | value => value.number?.map some

def chooseDisplay (scale : Setting) : DisplayKind → Option Display
  | .text => some (.create (stretch? scale).join)
  | .absent => none

def readRandom (surroundings : Surroundings τ) (settings : Settings) :
    Except Failure RandomSource := do
  match ← settings.get "seed" with
  | .none => return surroundings.random
  | .flag on => return .ofSeed (if on then 1 else 0)
  | .number seed => return .ofSeed seed
  | .real seed => return .ofReal seed
  | .text seed => return .ofText seed
  | .list _ | .record _ => throw (.unfit "seed")

def chooseInterval : Setting → Except Failure (Option Float)
  | .none => (Scheduler.intervalOf none).mapError .fault
  | .real rate => .ok (Scheduler.intervalAt rate)
  | speed =>
      match speed.number? with
      | some number => (Scheduler.intervalOf (some number)).mapError .fault
      | none => .error (.unfit "clock_speed")

/-- The limit that takes the place of one of a wrong kind. The first count
reaches it. -/
def firstCount : Int := -1

/-- The console of a session before its machine has told anything. -/
def openConsole (surroundings : Surroundings τ) (events : List InputTrace.Event)
    (scale : Setting) (kind : DisplayKind) (bell : Bool) : Console τ where
  time := surroundings.start
  room := surroundings.room
  output := surroundings.output
  events := events
  display := chooseDisplay scale kind
  sounder := { bell := bell }
  printed := greeting

/-- A session that is ready to run, and which of its settings are of a right kind. -/
structure Plan (τ : Type) where
  world : World (Console τ)
  idleLimitFits : Bool := true
  cycleLimitFits : Bool := true
  /-- Any stretch will do without a display. -/
  stretchFits : Bool := true

/-- Settings are read in an order of their own, in which the first failure counts. -/
def prepare (surroundings : Surroundings τ) (settings : Settings) : Except Failure (Plan τ) := do
  let dialect ← readDialect settings
  let kind ← readDisplayKind settings
  let bell ← readBell settings
  let rom ← readFile surroundings (← settings.file "filename")
  let lines ← readTraceLines surroundings settings
  let events ← (InputTrace.parse lines).mapError .badTrace
  let scale ← settings.get "scale"
  let live := (← settings.get "debug").holds
  let random ← readRandom surroundings settings
  let (machine, signals) := Machine.assemble dialect random live
  let loaded := machine.loadRom rom.toList
  loaded.answer.mapError .fault
  let speed ← settings.get "clock_speed"
  let idleLimit := (← settings.get "idle_limit").limit?
  let cycleLimit := (← settings.get "max_cycles").limit?
  let scheduler : Scheduler :=
    { interval := ← chooseInterval speed
      idleLimit := idleLimit.getD firstCount
      cycleLimit := cycleLimit.getD firstCount }
  let console := openConsole surroundings events scale kind bell
  return {
    world :=
      { scheduler := scheduler
        machine := loaded.state
        host := console.receiveAll (signals ++ loaded.signals) }
    idleLimitFits := idleLimit.isSome
    cycleLimitFits := cycleLimit.isSome
    stretchFits := kind = .absent || (stretch? scale).isSome }

/-- How a session ended, and what it had printed by then. -/
structure Ending (τ : Type) where
  printed : String
  shown : Option Display
  answer : Except Failure (World (Console τ))

def failureOf : Halt → Failure
  | .fault cause => .fault cause
  | .exhausted => .unfinished

def unfitLimit? (plan : Plan τ) (scheduler : Scheduler) : Option String :=
  if !plan.idleLimitFits && scheduler.idleCycles != 0 then some "idle_limit"
  else if !plan.cycleLimitFits && scheduler.cycles != 0 then some "max_cycles"
  else none

/-- What follows the last slice of the run of a session. A limit of a wrong
kind fails the run. -/
def conclude (clock : Clock τ) (plan : Plan τ) (turn : Turn (Console τ) Unit) :
    World (Console τ) × Except Failure Unit :=
  match turn.answer, unfitLimit? plan turn.world.scheduler with
  | .ok (), some name => (turn.world, .error (.unfit name))
  | _, _ =>
      let finished := World.finish (Console.host clock) turn
      (finished.world, (finished.answer.map fun _ => ()).mapError failureOf)

/-- A display with a stretch of a wrong kind cannot be drawn. -/
def close (plan : Plan τ) (console : Console τ) : Console τ × Except Failure Unit :=
  if plan.stretchFits then
    let (closed, answer) := console.shutdown
    (closed, answer.mapError .fault)
  else (console.silence, .error (.unfit "scale"))

/-- A run that is over is followed by closing the console, and a failure to close it stands in
place of a failure of the run. -/
def ending (clock : Clock τ) (plan : Plan τ) (turn : Turn (Console τ) Unit) : Ending τ :=
  let (world, ran) := conclude clock plan turn
  match ran with
  | .error .unfinished =>
      { printed := world.host.printed
        shown := world.host.display
        answer := .error .unfinished }
  | _ =>
      let (console, closed) := close plan world.host
      { printed := console.printed
        shown := world.host.display
        answer := do
          closed
          ran
          return { world with host := console } }

def play (clock : Clock τ) (plan : Plan τ) (passes : Nat) : Ending τ :=
  let host := Console.host clock
  let turn := plan.world.begin host false
  ending clock plan (turn.world.loop host (World.run host passes) passes)

def run (surroundings : Surroundings τ) (settings : Settings) (passes : Nat) : Ending τ :=
  match prepare surroundings settings with
  | .error cause => { printed := greeting, shown := none, answer := .error cause }
  | .ok plan => play surroundings.clock plan passes

end Session

end Chip8
