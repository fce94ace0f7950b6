import Chip8.Binary64
import Chip8.Text.Quoted
import Chip8.Text.Real

/-!
# Setting values

What a setting may be given. Any value says yes or no, and any value has a
spelling; only flags and numbers can be counted with. A text is spelled as it
is, but quoted inside a list or a record.
-/

set_option autoImplicit false

namespace Chip8

inductive Setting where
  | none
  | flag (on : Bool)
  | number (value : Int)
  | real (value : Float)
  | text (content : String)
  | list (items : List Setting)
  /-- Values by name, in the order in which they were given. -/
  | record (fields : List (String × Setting))
  deriving BEq, Repr, Inhabited

namespace Setting

/-- The value read as a flag. Nothing, zero and whatever is empty say no. -/
def holds : Setting → Bool
  | none => false
  | flag on => on
  | number value => value != 0
  | real value => value != 0.0
  | text content => content != ""
  | list items => !items.isEmpty
  | record fields => !fields.isEmpty

/-- The value read as a whole number; a flag counts as zero or one. -/
def number? : Setting → Option Int
  | flag on => some (if on then 1 else 0)
  | number value => some value
  | none | real _ | text _ | list _ | record _ => Option.none

/-- The least whole number from which on a count has reached a number. Every
count has reached a negative number, and only zero stands for zero. -/
def leastReaching (value : Float) : Int :=
  if value < 0.0 then -1 else (Binary64.ceil? value).getD 0

/-- The value read as a limit of counts, where zero is no limit. A value that
says no is no limit; of the others only numbers can be reached. -/
def limit? (value : Setting) : Option Int :=
  if value.holds then
    match value with
    | real bound => some (leastReaching bound)
    | other => other.number?
  else some 0

def noneChars : List Char := "None".toList

def flagChars (on : Bool) : List Char := if on then "True".toList else "False".toList

mutual

def innerChars : Setting → List Char
  | none => noneChars
  | flag on => flagChars on
  | number value => (toString value).toList
  | real value => Text.realChars value
  | text content => Text.quoted content.toList
  | list items => '[' :: itemsChars items ++ [']']
  | record fields => '\x7b' :: fieldsChars fields ++ ['\x7d']

def itemsChars : List Setting → List Char
  | [] => []
  | [item] => item.innerChars
  | item :: next :: rest => item.innerChars ++ ',' :: ' ' :: itemsChars (next :: rest)

def fieldsChars : List (String × Setting) → List Char
  | [] => []
  | [field] => fieldChars field
  | field :: next :: rest => fieldChars field ++ ',' :: ' ' :: fieldsChars (next :: rest)

def fieldChars : String × Setting → List Char
  | (name, value) => Text.quoted name.toList ++ ':' :: ' ' :: value.innerChars

end

def spelling : Setting → String
  | text content => content
  | value => String.ofList value.innerChars

/-- The value read as a name. Whatever holds other values is no name. -/
def name? : Setting → Option String
  | list _ | record _ => Option.none
  | value => some value.spelling

example : (list [text "a", flag true, record [("b", none)], real 2.5]).spelling =
    "['a', True, \x7b'b': None\x7d, 2.5]" := by decide +kernel

example : (real 2.5).limit? = some 3 ∧ (real (-0.5)).limit? = some (-1) := by decide +kernel

end Setting

end Chip8
