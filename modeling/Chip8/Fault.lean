import Chip8.Banner
import Chip8.Dialect
import Chip8.Readout
import Chip8.Text.Numeral

/-!
# Faults

Why an operation of the machine, or a request to the scheduler that runs it,
could not be carried out. A fault names its cause; the wording is made from it
in one place. Faults that have no wording of their own arise only from values
that no program can bring about.
-/

set_option autoImplicit false

namespace Chip8

inductive Fault where
  | addressOutOfRange (address : Int)
  | blockMismatch
  | notAByte (value : Int)
  | romTooLarge (length : Nat) (capacity start : Int)
  | stackOverflow (limit : Int)
  | stackUnderflow
  | noSuchKey (key : Int)
  /-- A question, not a change, about a key outside the keypad. -/
  | keyOutOfReach (key : Int)
  /-- Coordinates on a screen that has no extent to wrap around. -/
  | noExtent
  | noSuchPixel
  /-- No instruction has the word in the opcode of the readout, which was
  fetched from the address. -/
  | invalidOpcode (readout : Readout) (address : Int)
  | unknownDialect (cause : Dialect.UnknownName)
  | beyondFloat
  | beyondCount (count : Int)
  | outOfMemory (count : Int)
  | unwritable
  /-- A number with too many digits to be written into a report. -/
  | tooManyDigits (value : Int)
  | alreadyRunning
  | pausedWhileStopped
  | resumedWhileStopped
  | steppedWhileNotPaused
  deriving DecidableEq, Repr

namespace Fault

def invalidOpcodeReport (readout : Readout) (address : Int) : String :=
  "Emulation halted.\n\n" ++ Banner.introduction ++ "Debug info:\n" ++
    readout.full address "???" ++
    "\n\nOpcode 0x" ++ Text.hex 4 readout.opcode ++ " at address 0x" ++ Text.hex 3 address ++
    " is not a valid instruction."

/-- The report tells the capacity in decimal, which may be too long to be written. -/
def tooLarge (length : Nat) (capacity start : Int) : Fault :=
  if Text.isWritable capacity then romTooLarge length capacity start else tooManyDigits capacity

def message? : Fault → Option String
  | addressOutOfRange address =>
      some ("Memory access out of range at 0x" ++ Text.hex 4 address)
  | romTooLarge length capacity start =>
      some ("ROM is " ++ toString length ++ " bytes, but only " ++ toString capacity ++
        " bytes are available from 0x" ++ Text.hex 3 start)
  | stackOverflow limit =>
      some ("Stack overflow (call depth limit is " ++ toString limit ++ ")")
  | stackUnderflow => some "Stack underflow (return with empty stack)"
  | noSuchKey key =>
      some ("Key " ++ toString key ++ " is out of range -- keys 0x0 to 0xF are available")
  | invalidOpcode readout address => some (invalidOpcodeReport readout address)
  | unknownDialect cause => some cause.message
  | alreadyRunning => some "The machine is already running"
  | pausedWhileStopped => some "Cannot pause a stopped machine"
  | resumedWhileStopped => some "Cannot resume a stopped machine"
  | steppedWhileNotPaused => some "Stepping is only possible while paused"
  | blockMismatch | notAByte _ | keyOutOfReach _ | noExtent | noSuchPixel | beyondFloat
  | beyondCount _ | outOfMemory _ | unwritable | tooManyDigits _ => none

end Fault

end Chip8
