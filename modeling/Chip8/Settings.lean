import Chip8.Failure
import Chip8.Setting

/-!
# Settings

The named values from which a session is opened. Every setting has to be
given, and one without a value stands for its default.
-/

set_option autoImplicit false

namespace Chip8

/-- Values by name; the first value of a name counts. -/
structure Settings where
  entries : List (String × Setting)
  deriving Repr

namespace Settings

def get (settings : Settings) (name : String) : Except Failure Setting :=
  match settings.entries.lookup name with
  | some value => .ok value
  | none => .error (.missing name)

def flag? (settings : Settings) (name : String) : Except Failure (Option Bool) := do
  match ← settings.get name with
  | .none => return none
  | value => return some value.holds

/-- A value other than one that says no, in place of which stands the usual one. -/
def getOr (settings : Settings) (name : String) (usual : Setting) : Except Failure Setting := do
  let value ← settings.get name
  return if value.holds then value else usual

def descriptorBound : Int := 0x80000000

/-- A file given by a number has been opened before. None has been. -/
def openFile (name : String) (number : Int) : Failure :=
  if 0 ≤ number ∧ number < descriptorBound then .unreadable none .notOpen
  else if -descriptorBound ≤ number ∧ number < 0 then .unreadable none .improper
  else .unfit name

def file? (settings : Settings) (name : String) : Except Failure (Option String) := do
  let value ← settings.get name
  match value with
  | .none => return none
  | .text text => return some text
  | _ =>
      match value.number? with
      | some number => throw (openFile name number)
      | none => throw (.unfit name)

def file (settings : Settings) (name : String) : Except Failure String := do
  match ← settings.file? name with
  | some text => return text
  | none => throw (.unfit name)

end Settings

end Chip8
