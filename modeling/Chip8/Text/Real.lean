import Chip8.Binary64

/-!
# The text of a floating-point number

A number is written with the fewest digits that read back as the number, and
of these with the digits nearest to it. A number whose leading digit stands
between four places behind the point and sixteen in front of it is written
with a point alone; any other has an exponent of at least two digits.
-/

set_option autoImplicit false

namespace Chip8.Text

structure Decimal where
  digits : Nat
  exponent : Int
  deriving DecidableEq, Repr

namespace Decimal

def toFloat (decimal : Decimal) : Float :=
  Binary64.ofRatio (decimal.digits * Nat.pow 10 decimal.exponent.toNat)
    (Nat.pow 10 (-decimal.exponent).toNat)

/-- The places of the whole part of a positive quotient. They are counted
negative from the point on when the quotient is less than a tenth. -/
def places (numerator denominator : Nat) : Int :=
  if denominator ≤ numerator then (Nat.toDigits 10 (numerator / denominator)).length
  else 1 - ((Nat.toDigits 10 ((denominator - 1) / numerator)).length : Int)

/-- A decimal with some exponent that reads as a positive number. Only the two
neighbours of the number on the grid of that exponent can be nearest; of the
two the nearer one is taken, and of two as near the even one. -/
def onGrid? (x : Float) (numerator denominator : Nat) (exponent : Int) : Option Decimal :=
  let above := numerator * Nat.pow 10 (-exponent).toNat
  let below := denominator * Nat.pow 10 exponent.toNat
  let nearest := Binary64.roundDiv above below
  let other := if nearest * below ≤ above then nearest + 1 else nearest - 1
  [nearest, other].findSome? fun digits =>
    let decimal : Decimal := ⟨digits, exponent⟩
    if decimal.toFloat == x then some decimal else none

/-- The most digits that are ever needed to read a number back. -/
def enoughDigits : Nat := 17

def shortest (x : Float) (numerator denominator : Nat) : Decimal :=
  let last := places numerator denominator
  let grids := (List.range enoughDigits).map fun (count : Nat) => last - 1 - count
  (grids.findSome? (onGrid? x numerator denominator)).getD ⟨0, 0⟩

def significant (decimal : Decimal) : List Char :=
  ((Nat.toDigits 10 decimal.digits).reverse.dropWhile (· == '0')).reverse

def magnitude (decimal : Decimal) : Int :=
  (Nat.toDigits 10 decimal.digits).length + decimal.exponent - 1

/-- Digits with a point behind some of them, and a zero on a side without
digits. -/
def withPoint (places : Nat) (digits : List Char) : List Char :=
  let whole := digits.take places ++ List.replicate (places - digits.length) '0'
  let fraction := digits.drop places
  (if whole.isEmpty then ['0'] else whole) ++ '.' :: (if fraction.isEmpty then ['0'] else fraction)

def exponentChars (exponent : Int) : List Char :=
  let digits := Nat.toDigits 10 exponent.natAbs
  'e' :: (if exponent < 0 then '-' else '+') :: List.replicate (2 - digits.length) '0' ++ digits

def chars (decimal : Decimal) : List Char :=
  let digits := decimal.significant
  let magnitude := decimal.magnitude
  if -4 ≤ magnitude ∧ magnitude < 0 then
    withPoint 0 (List.replicate (-magnitude - 1).toNat '0' ++ digits)
  else if 0 ≤ magnitude ∧ magnitude < 16 then withPoint (magnitude.toNat + 1) digits
  else
    digits.take 1 ++ (if digits.length ≤ 1 then [] else '.' :: digits.drop 1) ++
      exponentChars magnitude

end Decimal

def magnitudeChars (x : Float) (parts : Binary64.Parts) : List Char :=
  if parts.mantissa = 0 then "0.0".toList
  else
    let (numerator, denominator) := parts.ratio
    (Decimal.shortest x.abs numerator denominator).chars

def realChars (x : Float) : List Char :=
  match Binary64.parts? x with
  | some parts => (if parts.negative then ['-'] else []) ++ magnitudeChars x parts
  | none => if x.isNaN then "nan".toList else if x < 0.0 then "-inf".toList else "inf".toList

example : realChars 1.5 = "1.5".toList := by decide +kernel
example : realChars (0.1 + 0.2) = "0.30000000000000004".toList := by decide +kernel
example : realChars 1e16 = "1e+16".toList ∧ realChars 123456.0 = "123456.0".toList := by
  decide +kernel
example : realChars 5e-324 = "5e-324".toList := by decide +kernel

end Chip8.Text
