import Chip8.CallStack
import Chip8.Dialect
import Chip8.Instruction
import Chip8.Keypad
import Chip8.RandomSource
import Chip8.Screen

/-!
# Machine

Memory, call stack, keypad, screen and processor put together, with the
dialect in force and the source of random bytes. A reset brings everything but
those two and the size of the screen back to the state of a new machine, and
loading a program resets the machine first, so nothing of an earlier program
remains.

The numbers of the processor other than its registers are not required to lie
in the ranges of their roles, as a host may set them freely. Running programs
keeps them there.
-/

set_option autoImplicit false

namespace Chip8

structure Processor where
  registers : Vector UInt8 16
  index : Int
  counter : Int
  delay : Int
  sound : Int
  /-- The number fetched last. -/
  opcode : Int
  /-- The address that it was fetched from. -/
  origin : Int
  /-- Instructions completed. -/
  cycles : Nat
  /-- The last key wait found no key down. -/
  awaitingKey : Bool
  deriving DecidableEq, Repr

def memorySize : Nat := 4096

def programStart : Nat := 0x200

def programCapacity : Nat := memorySize - programStart

def fontStart : Nat := 0x50

def glyphSize : Nat := 5

def callDepth : Nat := 16

def font : List UInt8 := [
  0xf0, 0x90, 0x90, 0x90, 0xf0,
  0x20, 0x60, 0x20, 0x20, 0x70,
  0xf0, 0x10, 0xf0, 0x80, 0xf0,
  0xf0, 0x10, 0xf0, 0x10, 0xf0,
  0x90, 0x90, 0xf0, 0x10, 0x10,
  0xf0, 0x80, 0xf0, 0x10, 0xf0,
  0xf0, 0x80, 0xf0, 0x90, 0xf0,
  0xf0, 0x10, 0x20, 0x40, 0x40,
  0xf0, 0x90, 0xf0, 0x90, 0xf0,
  0xf0, 0x90, 0xf0, 0x10, 0xf0,
  0xf0, 0x90, 0xf0, 0x90, 0x90,
  0xe0, 0x90, 0xe0, 0x90, 0xe0,
  0xf0, 0x80, 0x80, 0x80, 0xf0,
  0xe0, 0x90, 0x90, 0x90, 0xe0,
  0xf0, 0x80, 0xf0, 0x80, 0xf0,
  0xf0, 0x80, 0xf0, 0x80, 0x80]

namespace Processor

def start : Processor where
  registers := Vector.replicate 16 0
  index := 0
  counter := programStart
  delay := 0
  sound := 0
  opcode := 0
  origin := programStart
  cycles := 0
  awaitingKey := false

end Processor

/-- An address that was computed, brought into the twelve bits of addresses. -/
def wrapAddress (address : Int) : Int := address % memorySize

structure Machine where
  memory : Memory
  stack : CallStack
  keypad : Keypad
  screen : Screen
  processor : Processor
  dialect : Dialect
  random : RandomSource
  /-- Instructions are printed before they take effect. -/
  live : Bool

namespace Machine

def blankMemory : Memory := (Memory.zeros memorySize).overwrite fontStart font

def blankScreen : Screen := Screen.blank Screen.columns Screen.rowCount

/-- The signals of the first reset: every cell of the picture is blank, and the
buzzer is off. -/
def resetSignals : List Signal := blankScreen.clear.signals ++ [.buzzer false]

def blank (dialect : Dialect) (random : RandomSource) (live : Bool) : Machine where
  memory := blankMemory
  stack := { limit := callDepth }
  keypad := .released
  screen := blankScreen
  processor := .start
  dialect := dialect
  random := random
  live := live

def assemble (dialect : Dialect) (random : RandomSource) (live : Bool) : Machine × List Signal :=
  (blank dialect random live, Screen.opening Screen.columns Screen.rowCount ++ resetSignals)

/-- Bring everything back to the start but the dialect, the source of random
bytes, live debugging and the size of the screen. The screen is taken to be one
that can be blanked. -/
def reset (machine : Machine) : Machine × List Signal :=
  let cleared := machine.screen.clear
  ({ blank machine.dialect machine.random machine.live with screen := cleared.state },
    cleared.signals ++ [.buzzer false])

def resetProcessor (machine : Machine) : Machine := { machine with processor := .start }

/-- Reset the machine and put a program into its memory. A program that is too
large leaves the machine reset. -/
def loadRom (machine : Machine) (rom : List UInt8) : Outcome Machine Unit :=
  let (fresh, signals) := machine.reset
  match fresh.memory.loadRom rom programStart with
  | .ok memory => { state := { fresh with memory := memory }, signals := signals, answer := .ok () }
  | .error cause => { state := fresh, signals := signals, answer := .error cause }

def setKey (machine : Machine) (number : Int) (pressed : Bool) : Except Fault Machine :=
  (machine.keypad.set number pressed).map fun keypad => { machine with keypad := keypad }

/-- Count the timers down by one. The answer says whether the sound timer has
just run out, in which case the buzzer goes off. -/
def tick (machine : Machine) : Machine × List Signal × Bool :=
  let processor := machine.processor
  let ended : Bool := processor.sound = 1
  ({ machine with
      processor := { processor with
        delay := if 0 < processor.delay then processor.delay - 1 else processor.delay
        sound := if 0 < processor.sound then processor.sound - 1 else processor.sound } },
    if ended then [.buzzer false] else [],
    ended)

def readout (machine : Machine) : Readout where
  registers := machine.processor.registers.map fun byte => byte.toNat
  index := machine.processor.index
  delay := machine.processor.delay
  sound := machine.processor.sound
  opcode := machine.processor.opcode
  depth := machine.stack.depth
  stack := machine.stack.toList

def advance (machine : Machine) : Machine :=
  { machine with processor.counter := wrapAddress (machine.processor.counter + 2) }

def retreat (machine : Machine) : Machine :=
  { machine with processor.counter := wrapAddress (machine.processor.counter - 2) }

end Machine

end Chip8
