import Chip8.Instruction

/-!
# Decoding

The instruction that a fetched number stands for. The leading digit of its low
sixteen bits selects a family of instructions; some families are told apart by
the last digit or by the last two. The family of the leading digit zero has
only two instructions, and there the number has to be exactly the word of one
of them. In the other families, bits above the low sixteen are passed over.
-/

set_option autoImplicit false

namespace Chip8.Instruction

def decode? (opcode : Int) : Option Instruction :=
  let word := (opcode % 65536).toNat
  let x := lastDigit (word / 256)
  let y := lastDigit (word / 16)
  let last := word % 16
  let byte := UInt8.ofNat word
  let address := lastAddress word
  match word / 4096 with
  | 0x0 =>
      if opcode = 0x00e0 then some clearScreen
      else if opcode = 0x00ee then some ret
      else none
  | 0x1 => some (jump address)
  | 0x2 => some (call address)
  | 0x3 => some (skipIfByte x byte)
  | 0x4 => some (skipUnlessByte x byte)
  | 0x5 => if last = 0x0 then some (skipIfSame x y) else none
  | 0x6 => some (loadByte x byte)
  | 0x7 => some (addByte x byte)
  | 0x8 =>
      match last with
      | 0x0 => some (copy x y)
      | 0x1 => some (bitOr x y)
      | 0x2 => some (bitAnd x y)
      | 0x3 => some (bitXor x y)
      | 0x4 => some (add x y)
      | 0x5 => some (subtract x y)
      | 0x6 => some (shiftRight x y)
      | 0x7 => some (subtractFrom x y)
      | 0xe => some (shiftLeft x y)
      | _ => none
  | 0x9 => if last = 0x0 then some (skipUnlessSame x y) else none
  | 0xa => some (loadIndex address)
  | 0xb => some (jumpOffset address)
  | 0xc => some (random x byte)
  | 0xd => some (draw x y (lastDigit word))
  | 0xe =>
      match byte with
      | 0x9e => some (skipIfDown x)
      | 0xa1 => some (skipIfUp x)
      | _ => none
  | 0xf =>
      match byte with
      | 0x07 => some (readDelay x)
      | 0x0a => some (awaitKey x)
      | 0x15 => some (setDelay x)
      | 0x18 => some (setSound x)
      | 0x1e => some (addIndex x)
      | 0x29 => some (pointGlyph x)
      | 0x33 => some (storeDecimal x)
      | 0x55 => some (storeBlock x)
      | 0x65 => some (loadBlock x)
      | _ => none
  | _ => none

example : decode? 0x8126 = some (shiftRight 1 2) := by decide
example : decode? 0x100e0 = none ∧ decode? 0x11234 = some (jump 0x234) := by decide

end Chip8.Instruction
