import Chip8.Keypad

/-!
# Instructions

The instructions of the machine with their operands, and the word of 16 bits
in which each of them is stored. Registers are named by four bits, addresses
have twelve, and the two never share their place in a word except in the
offset jump, whose address begins with the register that one dialect adds.
-/

set_option autoImplicit false

namespace Chip8

abbrev Register := Fin 16

abbrev Address := Fin 4096

/-- The register that an offset jump adds where its target names none. -/
def firstRegister : Register := ⟨0, by decide⟩

def flagRegister : Register := 15

inductive Instruction where
  | clearScreen
  | ret
  | jump (target : Address)
  | call (target : Address)
  | skipIfByte (x : Register) (byte : UInt8)
  | skipUnlessByte (x : Register) (byte : UInt8)
  | skipIfSame (x y : Register)
  | loadByte (x : Register) (byte : UInt8)
  | addByte (x : Register) (byte : UInt8)
  | copy (x y : Register)
  | bitOr (x y : Register)
  | bitAnd (x y : Register)
  | bitXor (x y : Register)
  | add (x y : Register)
  /-- `x` becomes `x` less `y`. -/
  | subtract (x y : Register)
  | shiftRight (x y : Register)
  /-- `x` becomes `y` less `x`. -/
  | subtractFrom (x y : Register)
  | shiftLeft (x y : Register)
  | skipUnlessSame (x y : Register)
  | loadIndex (address : Address)
  | jumpOffset (target : Address)
  | random (x : Register) (mask : UInt8)
  | draw (x y : Register) (rows : Fin 16)
  | skipIfDown (x : Register)
  | skipIfUp (x : Register)
  | readDelay (x : Register)
  | awaitKey (x : Register)
  | setDelay (x : Register)
  | setSound (x : Register)
  | addIndex (x : Register)
  | pointGlyph (x : Register)
  | storeDecimal (x : Register)
  | storeBlock (x : Register)
  | loadBlock (x : Register)
  deriving DecidableEq, Repr

namespace Instruction

def addressWord (leading : Nat) (address : Address) : Nat := leading * 4096 + address

def byteWord (leading : Nat) (x : Register) (byte : UInt8) : Nat :=
  leading * 4096 + x * 256 + byte.toNat

def pairWord (leading : Nat) (x y : Register) (last : Nat) : Nat :=
  leading * 4096 + x * 256 + y * 16 + last

def word : Instruction → Nat
  | clearScreen => 0x00e0
  | ret => 0x00ee
  | jump target => addressWord 0x1 target
  | call target => addressWord 0x2 target
  | skipIfByte x byte => byteWord 0x3 x byte
  | skipUnlessByte x byte => byteWord 0x4 x byte
  | skipIfSame x y => pairWord 0x5 x y 0x0
  | loadByte x byte => byteWord 0x6 x byte
  | addByte x byte => byteWord 0x7 x byte
  | copy x y => pairWord 0x8 x y 0x0
  | bitOr x y => pairWord 0x8 x y 0x1
  | bitAnd x y => pairWord 0x8 x y 0x2
  | bitXor x y => pairWord 0x8 x y 0x3
  | add x y => pairWord 0x8 x y 0x4
  | subtract x y => pairWord 0x8 x y 0x5
  | shiftRight x y => pairWord 0x8 x y 0x6
  | subtractFrom x y => pairWord 0x8 x y 0x7
  | shiftLeft x y => pairWord 0x8 x y 0xe
  | skipUnlessSame x y => pairWord 0x9 x y 0x0
  | loadIndex address => addressWord 0xa address
  | jumpOffset target => addressWord 0xb target
  | random x mask => byteWord 0xc x mask
  | draw x y rows => pairWord 0xd x y rows
  | skipIfDown x => byteWord 0xe x 0x9e
  | skipIfUp x => byteWord 0xe x 0xa1
  | readDelay x => byteWord 0xf x 0x07
  | awaitKey x => byteWord 0xf x 0x0a
  | setDelay x => byteWord 0xf x 0x15
  | setSound x => byteWord 0xf x 0x18
  | addIndex x => byteWord 0xf x 0x1e
  | pointGlyph x => byteWord 0xf x 0x29
  | storeDecimal x => byteWord 0xf x 0x33
  | storeBlock x => byteWord 0xf x 0x55
  | loadBlock x => byteWord 0xf x 0x65

def lastDigit (number : Nat) : Fin 16 := ⟨number % 16, Nat.mod_lt _ (by decide)⟩

def lastAddress (number : Nat) : Address := ⟨number % 4096, Nat.mod_lt _ (by decide)⟩

/-- The register that an offset jump names by the leading digit of its target. -/
def offsetRegister (target : Address) : Register := lastDigit (target / 256)

end Instruction

end Chip8
