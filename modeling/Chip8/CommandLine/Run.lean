import Chip8.CommandLine
import Chip8.Session

/-!
# Running a command line

The session of an invocation, and what it leaves behind: printed text, a
complaint, and an exit code. The failures that a user can mend are reported
with exit code 1; the others are passed on.
-/

set_option autoImplicit false

namespace Chip8.CommandLine

def isReported : Failure → Bool
  | .unknownDisplay _ | .badTrace _ => true
  | .unreadable _ cause => cause.message?.isSome
  | .fault cause =>
      match cause with
      | .addressOutOfRange _ | .romTooLarge .. | .stackOverflow _ | .stackUnderflow
      | .invalidOpcode .. | .unknownDialect _ => true
      | _ => false
  | .missing _ | .unfit _ | .notText _ | .unfinished => false

structure Report where
  printed : String
  /-- What was printed as an error. -/
  complaint : String
  /-- The exit code, or the failure that was passed on. -/
  exit : Except Failure Nat

def report {τ : Type} (ending : Session.Ending τ) : Report :=
  match ending.answer with
  | .ok _ => { printed := ending.printed, complaint := "", exit := .ok 0 }
  | .error cause =>
      if isReported cause then
        { printed := ending.printed
          complaint := cause.message?.getD "" ++ "\n"
          exit := .ok 1 }
      else { printed := ending.printed, complaint := "", exit := .error cause }

def run {τ : Type} (customs : Customs) (surroundings : Surroundings τ) (arguments : List String)
    (passes : Nat) : Except Refusal Report :=
  (parse customs arguments).map fun invocation =>
    report (Session.run surroundings invocation.settings passes)

end Chip8.CommandLine
