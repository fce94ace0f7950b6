import Chip8.Text.Hex

/-!
# Readouts

A readout is a copy of what a processor shows of itself. Its short form is one
line, printed before an instruction takes effect. Its full form adds the call
stack and is part of the report on a program that could not go on. The address
and the wording of the instruction are given by whoever prints the readout.
-/

set_option autoImplicit false

namespace Chip8

/-- What a processor shows. The values are not required to lie in the ranges
of a processor in use, and `depth` is not required to count the stack. -/
structure Readout where
  registers : Vector Int 16
  index : Int
  delay : Int
  sound : Int
  opcode : Int
  depth : Int
  /-- Return addresses, oldest first. -/
  stack : List Int
  deriving DecidableEq, Repr

namespace Readout

def registers? (values : List Int) : Option (Vector Int 16) :=
  if enough : (values.take 16).length = 16 then
    some ⟨(values.take 16).toArray, by simpa using enough⟩
  else none

/-- The short form, without a line end. Registers are shown from the last to
the first, two places each and with nothing between them. -/
def shortChars (readout : Readout) (address : Int) (instruction : List Char) : List Char :=
  "V: 0x".toList ++ readout.registers.toList.reverse.flatMap (Text.hexChars 2) ++
    " I: 0x".toList ++ Text.hexChars 3 readout.index ++
    " DT: 0x".toList ++ Text.hexChars 2 readout.delay ++
    " ST: 0x".toList ++ Text.hexChars 2 readout.sound ++
    " PC: 0x".toList ++ Text.hexChars 3 address ++
    " OP: 0x".toList ++ Text.hexChars 4 readout.opcode ++
    " IN: ".toList ++ instruction

def stackChars : List Int → List Char
  | [] => " (Empty)".toList
  | stack => stack.flatMap fun address => " 0x".toList ++ Text.hexChars 3 address

def fullChars (readout : Readout) (address : Int) (instruction : List Char) : List Char :=
  readout.shortChars address instruction ++
    "\nSP: ".toList ++ (toString readout.depth).toList ++
    " Stack:".toList ++ stackChars readout.stack

def short (readout : Readout) (address : Int) (instruction : String) : String :=
  String.ofList (readout.shortChars address instruction.toList)

def full (readout : Readout) (address : Int) (instruction : String) : String :=
  String.ofList (readout.fullChars address instruction.toList)

@[simp] theorem toList_short (readout : Readout) (address : Int) (instruction : String) :
    (readout.short address instruction).toList =
      readout.shortChars address instruction.toList := by
  simp only [short, String.toList_ofList]

@[simp] theorem toList_full (readout : Readout) (address : Int) (instruction : String) :
    (readout.full address instruction).toList =
      readout.fullChars address instruction.toList := by
  simp only [full, String.toList_ofList]

end Readout

end Chip8
