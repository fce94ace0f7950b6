/-!
# Floating-point numbers in exact arithmetic

A finite floating-point number of 64 bits is a sign and a whole number of
powers of two. Going there and back is done in whole numbers alone: a quotient
is rounded to the nearest number, a tie to the one with the even mantissa, and
what lies beyond the greatest number becomes infinite.
-/

set_option autoImplicit false

namespace Chip8.Binary64

structure Parts where
  negative : Bool
  mantissa : Nat
  exponent : Int
  deriving DecidableEq, Repr

def parts? (x : Float) : Option Parts :=
  let bits := x.toBits.toNat
  let scale := bits / Nat.pow 2 52 % Nat.pow 2 11
  let fraction := bits % Nat.pow 2 52
  if scale = Nat.pow 2 11 - 1 then none
  else some {
    negative := Nat.pow 2 63 ≤ bits
    mantissa := if scale = 0 then fraction else Nat.pow 2 52 + fraction
    exponent := (max scale 1 : Nat) - 1075 }

def Parts.ratio (parts : Parts) : Nat × Nat :=
  (parts.mantissa * Nat.pow 2 parts.exponent.toNat, Nat.pow 2 (-parts.exponent).toNat)

def roundDiv (numerator denominator : Nat) : Nat :=
  let quotient := numerator / denominator
  let rest := numerator % denominator
  if denominator < 2 * rest ∨ (2 * rest = denominator ∧ quotient % 2 = 1) then quotient + 1
  else quotient

def scaled (numerator denominator : Nat) (exponent : Int) : Nat × Nat :=
  (numerator * Nat.pow 2 (-exponent).toNat, denominator * Nat.pow 2 exponent.toNat)

/-- The exponent with which a positive quotient has a mantissa of 53 bits, or
of less where no smaller exponent can be written. -/
def exponentOf (numerator denominator : Nat) : Int :=
  let guess : Int := numerator.log2 - denominator.log2 - 53
  let (above, below) := scaled numerator denominator guess
  max (-1074) (if above < Nat.pow 2 53 * below then guess else guess + 1)

def infinityBits : Nat := 0x7ff0000000000000

/-- The number nearest to a quotient. The bits of a number count up through the
mantissas of one exponent and on to the next, so a mantissa that is rounded up
beyond its 53 bits carries into the exponent. -/
def ofRatio (numerator denominator : Nat) : Float :=
  if numerator = 0 then 0.0
  else
    let exponent := exponentOf numerator denominator
    let (above, below) := scaled numerator denominator exponent
    let bits := (exponent + 1074).toNat * Nat.pow 2 52 + roundDiv above below
    Float.ofBits (UInt64.ofNat (min bits infinityBits))

def ofInt (value : Int) : Float :=
  let size := ofRatio value.natAbs 1
  if value < 0 then -size else size

def floor? (x : Float) : Option Int :=
  (parts? x).map fun parts =>
    let (above, below) := parts.ratio
    (if parts.negative then -(above : Int) else above).fdiv below

def ceil? (x : Float) : Option Int := (floor? (-x)).map fun floor => -floor

example : (ofInt (2 ^ 70 + 2 ^ 17 + 1)).toBits = (ofInt (2 ^ 70 + 2 ^ 18)).toBits := by
  decide +kernel
example : (ofRatio 1 10).toBits = 0x3fb999999999999a := by decide +kernel
example : (ofRatio 1 (2 ^ 1074)).toBits = 1 ∧ (ofRatio 1 (2 ^ 1075)).toBits = 0 := by
  decide +kernel
example : floor? (-2.5) = some (-3) ∧ ceil? (-2.5) = some (-2) := by decide +kernel

end Chip8.Binary64
