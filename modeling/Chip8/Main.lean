import Chip8.CommandLine.Run

/-!
# The program

Runs the session of its arguments on the files, the clock and the terminal of
the computer. Between two slices it prints what the console has printed, and
sleeps until the time to which the console has slept.
-/

set_option autoImplicit false

namespace Chip8.Terminal

def usage : String := "usage: chip8 [options] filename\n"

/-- Whether the code of an error is one of the computer. Its sign depends on
the call that failed. -/
def isCode (expected code : UInt32) : Bool := code == expected || code == 0 - expected

def notADirectoryCode : UInt32 := 20

def nameTooLongCode : UInt32 := 36

/-- The bytes of a file. Errors that no session knows of are passed on. -/
def readFile (name : String) : IO (Except ReadError ByteArray) := do
  if name.toList.contains '\x00' then return .error .improper
  try
    return .ok (← IO.FS.readBinFile name)
  catch error =>
    match error with
    | .noFileOrDirectory .. => return .error .notFound
    | .inappropriateType _ code _ =>
        return .error (if isCode notADirectoryCode code then .notADirectory else .isDirectory)
    | .invalidArgument _ code _ =>
        if isCode nameTooLongCode code then return .error .nameTooLong else throw error
    | other => throw other

def readClock : IO Float := do
  return Float.ofScientific (← IO.monoNanosNow) true 9

def sleepUntil (time : Float) : IO Unit := do
  let seconds := time - (← readClock)
  if 0.0 < seconds then IO.sleep (seconds * 1000.0).ceil.toUInt32

def write (text : String) : IO Unit := do
  unless text.isEmpty do
    let output ← IO.getStdout
    output.putStr text
    output.flush

def flush (world : World (Console Float)) : IO (World (Console Float)) := do
  write world.host.printed
  return { world with host.printed := "" }

def host : Host (Console Float) := Console.host .still

partial def play (world : World (Console Float)) : IO (Turn (Console Float) Unit) := do
  let now ← readClock
  let turn := { world with host.time := now }.slice host (World.run host 0)
  let shown ← flush turn.world
  match turn.answer with
  | .error cause => return ⟨shown, .error cause⟩
  | .ok false => return ⟨shown, .ok ()⟩
  | .ok true =>
      sleepUntil shown.host.time
      play shown

def playSession (plan : Session.Plan Float) : IO (Session.Ending Float) := do
  let turn := plan.world.begin host false
  return Session.ending .still plan (← play turn.world)

def fileNames (invocation : CommandLine.Invocation) : List String :=
  match invocation.values .trace with
  | .text trace => [invocation.filename, trace]
  | _ => [invocation.filename]

def readFiles (invocation : CommandLine.Invocation) :
    IO (List (String × Except ReadError ByteArray)) :=
  (fileNames invocation).mapM fun name => do
    return (name, ← readFile name)

def surroundings (invocation : CommandLine.Invocation) : IO (Surroundings Float) := do
  let files ← readFiles invocation
  let seed ← IO.rand 0 0xffffffff
  return {
    read := fun name => (files.lookup name).getD (.error .notFound)
    random := .ofSeed seed
    clock := .still
    start := ← readClock
    output := .unicode
    room := .ample }

def runInvocation (invocation : CommandLine.Invocation) : IO UInt32 := do
  let ending ←
    match Session.prepare (← surroundings invocation) invocation.settings with
    | .error cause =>
        pure { printed := Session.greeting, shown := none, answer := .error cause }
    | .ok plan => playSession plan
  let report := CommandLine.report ending
  write report.printed
  IO.eprint report.complaint
  match report.exit with
  | .ok code => return code.toUInt32
  | .error _ => throw (IO.userError "the session has failed")

end Chip8.Terminal

def main (arguments : List String) : IO UInt32 := do
  match Chip8.CommandLine.parse .current arguments with
  | .ok invocation => Chip8.Terminal.runInvocation invocation
  | .error refusal =>
      IO.eprint Chip8.Terminal.usage
      return refusal.code.toUInt32
