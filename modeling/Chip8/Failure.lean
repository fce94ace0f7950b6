import Chip8.Fault
import Chip8.InputTrace
import Chip8.Volume

/-!
# Failures

Why a session could not be opened or did not run to its end. A command line
reports most failures by their wording. The others mean that the settings
themselves are unusable, or that a file is not the text it should be; these
are left to whoever started the session.
-/

set_option autoImplicit false

namespace Chip8

inductive Failure where
  | missing (setting : String)
  | unfit (setting : String)
  | unknownDisplay (name : String)
  | unreadable (name : Option String) (cause : ReadError)
  | notText (name : String)
  | badTrace (cause : InputTrace.ParseError)
  | fault (cause : Fault)
  /-- The bound on the passes of a run was too low. -/
  | unfinished
  deriving DecidableEq, Repr

namespace Failure

def unreadableMessage (name : Option String) (cause : String) : String :=
  "Unable to read '" ++ name.getD "None" ++ "': " ++ cause

def message? : Failure → Option String
  | unknownDisplay name => some ("Unknown renderer '" ++ name ++ "'")
  | unreadable name cause => cause.message?.map (unreadableMessage name)
  | badTrace cause => some cause.message
  | fault cause => cause.message?
  | missing _ | unfit _ | notText _ | unfinished => none

end Failure

end Chip8
