import Chip8.Dialect
import Chip8.Instruction
import Chip8.Text.Hex

/-!
# Wording

The assembly wording of an instruction. Two traits show in it: a shift in
place names one register, and an offset jump names the register that it adds.
-/

set_option autoImplicit false

namespace Chip8.Instruction

def registerName (register : Register) : String := "V" ++ Text.hex 1 register.val

def addressText (address : Address) : String := "0x" ++ Text.hex 3 address.val

def byteText (byte : UInt8) : String := "0x" ++ Text.hex 2 byte.toNat

def oneRegister (operation : String) (x : Register) : String :=
  operation ++ " " ++ registerName x

def twoRegisters (operation : String) (x y : Register) : String :=
  oneRegister operation x ++ ", " ++ registerName y

def registerAnd (operation : String) (x : Register) (operand : String) : String :=
  oneRegister operation x ++ ", " ++ operand

/-- A shift, which names its second register only when it reads it. -/
def shiftWording (operation : String) (dialect : Dialect) (x y : Register) : String :=
  if dialect.shift then oneRegister operation x else twoRegisters operation x y

def wording (dialect : Dialect) : Instruction → String
  | clearScreen => "CLS"
  | ret => "RET"
  | jump target => "JP " ++ addressText target
  | call target => "CALL " ++ addressText target
  | skipIfByte x byte => registerAnd "SE" x (byteText byte)
  | skipUnlessByte x byte => registerAnd "SNE" x (byteText byte)
  | skipIfSame x y => twoRegisters "SE" x y
  | loadByte x byte => registerAnd "LD" x (byteText byte)
  | addByte x byte => registerAnd "ADD" x (byteText byte)
  | copy x y => twoRegisters "LD" x y
  | bitOr x y => twoRegisters "OR" x y
  | bitAnd x y => twoRegisters "AND" x y
  | bitXor x y => twoRegisters "XOR" x y
  | add x y => twoRegisters "ADD" x y
  | subtract x y => twoRegisters "SUB" x y
  | shiftRight x y => shiftWording "SHR" dialect x y
  | subtractFrom x y => twoRegisters "SUBN" x y
  | shiftLeft x y => shiftWording "SHL" dialect x y
  | skipUnlessSame x y => twoRegisters "SNE" x y
  | loadIndex address => "LD I, " ++ addressText address
  | jumpOffset target =>
      registerAnd "JP" (if dialect.jump then offsetRegister target else firstRegister)
        (addressText target)
  | random x mask => registerAnd "RND" x (byteText mask)
  | draw x y rows => twoRegisters "DRW" x y ++ ", 0x" ++ Text.hex 1 rows.val
  | skipIfDown x => oneRegister "SKP" x
  | skipIfUp x => oneRegister "SKNP" x
  | readDelay x => registerAnd "LD" x "DT"
  | awaitKey x => registerAnd "LD" x "K"
  | setDelay x => "LD DT, " ++ registerName x
  | setSound x => "LD ST, " ++ registerName x
  | addIndex x => "ADD I, " ++ registerName x
  | pointGlyph x => "LD F, " ++ registerName x
  | storeDecimal x => "LD B, " ++ registerName x
  | storeBlock x => "LD [I], " ++ registerName x
  | loadBlock x => registerAnd "LD" x "[I]"

def mnemonic (dialect : Dialect) (instruction : Instruction) : String :=
  String.ofList ((instruction.wording dialect).toList.takeWhile (· != ' '))

end Chip8.Instruction
