import Chip8.Text.Blank
import Chip8.Text.Digit
import Chip8.Text.Quoted

/-!
# Integer numerals

An integer is written as one optional sign and at least one digit, in base ten
or sixteen, with padding around it. Single underscores may stand between
digits, and a numeral of base sixteen may carry the mark `0x`, behind which one
underscore is allowed as well. Digits of any script count by their value.

A decimal numeral has a greatest length. The length is that of the leading run
of digits, so it is found too long even when something else follows the run.
The same length bounds the integers that can be written in decimal.
-/

set_option autoImplicit false

namespace Chip8.Text

inductive Base where
  | ten
  | sixteen
  deriving DecidableEq, Repr

def Base.size : Base → Nat
  | .ten => 10
  | .sixteen => 16

inductive NumeralError where
  | malformed (base : Base) (text : List Char)
  | tooLong (digits : Nat)
  deriving DecidableEq, Repr

def maxDecimalDigits : Nat := 4300

/-- An integer is short enough to be written in decimal. Its sign does not count. -/
def isWritable (value : Int) : Bool := value.natAbs < Nat.pow 10 maxDecimalDigits

theorem isWritable_of_natAbs_lt {value : Int} (small : value.natAbs < 10000000000) :
    isWritable value = true := by
  have longer (digits : Nat) (enough : 10 ≤ digits) : Nat.pow 10 10 ≤ Nat.pow 10 digits :=
    Nat.pow_le_pow_right (by decide) enough
  exact decide_eq_true (Nat.lt_of_lt_of_le small (longer maxDecimalDigits (by decide)))

def maxQuotedChars : Nat := 200

def NumeralError.message : NumeralError → String
  | .malformed base text =>
      "invalid literal for int() with base " ++ toString base.size ++ ": " ++
        String.ofList ((quoted text).take maxQuotedChars)
  | .tooLong digits =>
      "Exceeds the limit (" ++ toString maxDecimalDigits ++
        " digits) for integer string conversion: value has " ++ toString digits ++
        " digits; use sys.set_int_max_str_digits() to increase the limit"

/-- A character in ASCII form: blanks become spaces and digits of any script
become ASCII digits. A character that is neither has no such form. -/
def asciiForm? (c : Char) : Option Char :=
  if c.toNat < 127 then some c
  else if isBlank c then some ' '
  else (digitValue? c).map Nat.digitChar

/-- A text in ASCII form. It ends in a question mark at the first character
without such a form, so no numeral can be read from it. A text that is ASCII
throughout is left as it is. -/
def asciiText (text : List Char) : List Char :=
  if text.all fun c => c.toNat < 128 then text else go text
where
  go : List Char → List Char
    | [] => []
    | c :: rest =>
        match asciiForm? c with
        | some form => form :: go rest
        | none => ['?']

def Base.digit? (base : Base) (c : Char) : Option Nat :=
  (hexValue? c).filter (· < base.size)

def digitRun (base : Base) : List Char → List Char :=
  List.takeWhile fun c => c == '_' || (base.digit? c).isSome

/-- Underscores in a run stand alone and between digits. -/
def wellSpaced : List Char → Bool
  | [] => true
  | '_' :: rest =>
      match rest with
      | [] => false
      | next :: _ => next != '_' && wellSpaced rest
  | _ :: rest => wellSpaced rest

def runValue (base : Base) (run : List Char) : Nat :=
  (run.filterMap base.digit?).foldl (fun value digit => value * base.size + digit) 0

def splitSign : List Char → Bool × List Char
  | '-' :: rest => (true, rest)
  | '+' :: rest => (false, rest)
  | text => (false, text)

/-- Base sixteen passes over its mark and one underscore behind it. -/
def dropMark : Base → List Char → List Char
  | .sixteen, '0' :: x :: rest =>
      if x == 'x' || x == 'X' then
        match rest with
        | '_' :: digits => digits
        | _ => rest
      else '0' :: x :: rest
  | _, text => text

/-- The integer that a text denotes. The whole text has to be a numeral. -/
def readInt (base : Base) (text : List Char) : Except NumeralError Int :=
  let malformed := Except.error (NumeralError.malformed base text)
  let (negative, unsigned) := splitSign ((asciiText text).dropWhile isPadding)
  let body := dropMark base unsigned
  let run := digitRun base body
  let digits := run.countP (· != '_')
  if body.head? == some '_' || !wellSpaced run then malformed
  else if base == .ten && maxDecimalDigits < digits then .error (.tooLong digits)
  else if digits == 0 || (body.drop run.length).any (fun c => !isPadding c) then malformed
  else .ok (if negative then -(runValue base run : Int) else runValue base run)

example : (readInt .ten " -1_000 ".toList).toOption = some (-1000) := by decide +kernel
example : (readInt .sixteen "0x_F".toList).toOption = some 15 := by decide +kernel
example : (readInt .ten "1__0".toList).toOption = none := by decide +kernel

end Chip8.Text
