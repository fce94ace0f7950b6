import Chip8.CommandLine.Switch
import Chip8.Text.Digit

/-!
# Arguments of the command line

How arguments are told apart before any of them is acted on. An argument with
a dash in front is an option, unless it is a negative number or has a space in
it and names none. A long name may be cut short as long as only one option
begins that way. An argument `--` ends the options: all behind it are values.
-/

set_option autoImplicit false

namespace Chip8.CommandLine

inductive Refusal where
  | help
  | usage
  deriving DecidableEq, Repr

def Refusal.code : Refusal → Nat
  | .help => 0
  | .usage => 2

inductive Argument where
  | named (switch : Switch) (value : Option (List Char))
  | lettered (switch : Switch) (joined : List Char)
  | value (text : List Char)
  | separator
  | unknown
  deriving DecidableEq, Repr

def isDigits (text : List Char) : Bool :=
  !text.isEmpty && text.all fun c => (Text.digitValue? c).isSome

/-- A negative number, whole or with a decimal point, is a value and not an
option. One line feed may stand behind it. -/
def isNegativeNumber : List Char → Bool
  | '-' :: rest =>
      let body := if rest.getLast? == some '\n' then rest.dropLast else rest
      let whole := body.takeWhile fun c => (Text.digitValue? c).isSome
      match body.drop whole.length with
      | [] => isDigits body
      | '.' :: fraction => isDigits fraction
      | _ => false
  | _ => false

def splitValue (text : List Char) : List Char × Option (List Char) :=
  match text.dropWhile (· != '=') with
  | [] => (text, none)
  | _ :: value => (text.takeWhile (· != '='), some value)

/-- An argument that looks like an option and is none. -/
def unmatched (text : List Char) : Argument :=
  if isNegativeNumber text || text.contains ' ' then .value text else .unknown

/-- An argument with a double dash. A full name wins over the names that begin
with it. -/
def readLong (word : List Char) : Except Refusal Argument :=
  let (name, value) := splitValue word
  match Switch.ofLongName? word with
  | some switch => .ok (.named switch none)
  | none =>
      match Switch.ofLongName? name with
      | some switch => .ok (.named switch value)
      | none =>
          match Switch.beginningWith name with
          | [] => .ok (unmatched ('-' :: '-' :: word))
          | [switch] => .ok (.named switch value)
          | _ => .error .usage

def readShort (letter : Char) (rest : List Char) : Argument :=
  match Switch.ofLetter? letter with
  | none => unmatched ('-' :: letter :: rest)
  | some switch => .lettered switch rest

def readArgument : List Char → Except Refusal Argument
  | '-' :: '-' :: [] => .ok .separator
  | '-' :: '-' :: word => readLong word
  | '-' :: letter :: rest => .ok (readShort letter rest)
  | text => .ok (.value text)

/-- Behind the separator all arguments are values. -/
def readArguments : List (List Char) → Except Refusal (List Argument)
  | [] => .ok []
  | text :: rest => do
      match ← readArgument text with
      | .separator => return .separator :: rest.map .value
      | argument => return argument :: (← readArguments rest)

end Chip8.CommandLine
