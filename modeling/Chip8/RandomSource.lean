import Chip8.Binary64
import Chip8.RandomSource.Digest
import Chip8.RandomSource.Twister

/-!
# Random bytes

Where the random instruction takes its bytes from: a seeded generator, or a
list of bytes that is given out in turn, over and over. A generator is seeded
by an integer; a text and a number with a fraction seed it by an integer made
from them.
-/

set_option autoImplicit false

namespace Chip8

inductive RandomSource where
  | seeded (twister : Twister)
  | scripted (bytes : List UInt8) (place : Nat)
  deriving DecidableEq

namespace RandomSource

def ofSeed (seed : Int) : RandomSource := .seeded (.ofSeed seed)

/-- The generator of a text. Its integer has the bytes of the text followed by
those of their digest. -/
def ofText (seed : String) : RandomSource :=
  let message := seed.toUTF8.toList
  ofSeed (Digest.ofBytes message * Nat.pow 2 512 + Digest.ofMessage message : Nat)

def realModulus : Nat := Nat.pow 2 61 - 1

def infiniteResidue : Nat := 314159

/-- The magnitude of a number modulo the prime, where a power of two depends
only on its exponent modulo 61. -/
def realResidue (seed : Float) : Nat :=
  match Binary64.parts? seed with
  | some parts => parts.mantissa * Nat.pow 2 (parts.exponent % 61).toNat % realModulus
  | none => infiniteResidue

/-- The integer of a number: what is left of it has the sign of the number and
is brought into 64 bits without a sign. Minus one has no integer of its own. -/
def realSeed (seed : Float) : Int :=
  let left : Int := if seed < 0.0 then -(realResidue seed : Int) else realResidue seed
  (if left = -1 then -2 else left) % 0x10000000000000000

def ofReal (seed : Float) : RandomSource := ofSeed (realSeed seed)

/-- A list of numbers in turn. Only the low eight bits of a number can be seen
in a random byte, as the instruction masks it with a byte. -/
def ofList (values : List Int) : RandomSource :=
  .scripted (values.map fun value => UInt8.ofNat (value % 256).toNat) 0

/-- Draw a byte. An empty list gives zeros. -/
def draw : RandomSource → UInt8 × RandomSource
  | .seeded twister => (twister.drawByte.1, .seeded twister.drawByte.2)
  | .scripted bytes place =>
      (bytes.getD place 0, .scripted bytes (if place + 1 < bytes.length then place + 1 else 0))

end RandomSource

end Chip8
