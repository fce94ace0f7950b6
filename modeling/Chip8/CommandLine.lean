import Chip8.CommandLine.Argument
import Chip8.Settings
import Chip8.Text.Numeral

/-!
# Command line

The invocation that arguments amount to. Letters may be joined, and the value
of the last one may be joined to them. The value of a long name, and that of a
letter that stands first, may follow behind an equals sign.

Arguments are acted on from left to right. Arguments that are not recognised,
and a second file name, are refused only behind all others. The argument that
ends the options has to stand in front of the file name or right behind it.

Libraries that read command lines have differed in three points. They are
customs, and all that is known of a command line is known under any of them.
-/

set_option autoImplicit false

namespace Chip8.CommandLine

structure Customs where
  /-- An argument `--` joined to an option in place of its value is dropped, which leaves
  an empty list. -/
  dropsSeparator : Bool
  /-- An equals sign sets the value of a joined letter apart, as it does that of the first
  one. A letter without a value has none behind it then. -/
  splitsJoined : Bool
  /-- What is joined to letters without being an option is left over as an argument that
  is not recognised. -/
  leavesStray : Bool

namespace Customs

def earlier : Customs where
  dropsSeparator := true
  splitsJoined := false
  leavesStray := false

def current : Customs where
  dropsSeparator := false
  splitsJoined := true
  leavesStray := true

end Customs

def rendererNames : List String := ["text", "null"]

abbrev Values := Switch → Setting

def Values.set (values : Values) (switch : Switch) (value : Setting) : Values :=
  fun other => if other = switch then value else values other

structure Invocation where
  filename : String
  values : Values

def Invocation.settings (invocation : Invocation) : Settings where
  entries := ("filename", .text invocation.filename) ::
    (Switch.all.filter (· != .help)).map fun switch =>
      (switch.longName, invocation.values switch)

/-- Options that one argument joins: those in front, which take no value, and
the last one with the text joined to it. -/
structure Joined where
  front : List Switch := []
  last : Switch
  text : Option (List Char) := none
  stray : Bool := false

structure Draft where
  values : Values := Switch.usual
  filename : Option String := none
  /-- The last argument was the file name. -/
  justNamed : Bool := false
  unrecognised : Bool := false
  waiting : Option Joined := none

def Draft.addValue (draft : Draft) (text : List Char) : Draft :=
  match draft.filename with
  | none => { draft with filename := some (String.ofList text), justNamed := true }
  | some _ => { draft with unrecognised := true, justNamed := false }

def Draft.addSeparator (draft : Draft) : Draft :=
  if draft.filename.isNone || draft.justNamed then draft
  else { draft with unrecognised := true }

def readNumber (text : List Char) : Except Refusal Setting :=
  match Text.readInt .ten text with
  | .ok value => .ok (.number value)
  | .error _ => .error .usage

def readBit (text : List Char) : Except Refusal Setting :=
  match Text.readInt .ten text with
  | .ok value => if value = 0 ∨ value = 1 then .ok (.number value) else .error .usage
  | .error _ => .error .usage

def readName (names : List String) (text : List Char) : Except Refusal Setting :=
  let name := String.ofList text
  if names.contains name then .ok (.text name) else .error .usage

def Switch.read (text : List Char) : Switch → Except Refusal Setting
  | .help => .error .help
  | .debug => .ok (.flag true)
  | .family => readName (Family.all.map Family.name) text
  | .renderer => readName rendererNames text
  | .trace => .ok (.text (String.ofList text))
  | .mute | .trait _ => readBit text
  | .speed | .scale | .idleLimit | .cycleLimit | .seed => readNumber text

def Draft.apply (customs : Customs) (draft : Draft) (switch : Switch) (text : List Char) :
    Except Refusal Draft := do
  let dropped := customs.dropsSeparator && text == ['-', '-']
  let value ← if dropped then .ok (.list []) else switch.read text
  return { draft with values := draft.values.set switch value }

def joinLetters (customs : Customs) (switch : Switch) : List Char → Except Refusal Joined
  | [] => .ok { last := switch }
  | letter :: rest =>
      if switch.takesValue then
        let apart := customs.splitsJoined && letter == '='
        .ok { last := switch, text := some (if apart then rest else letter :: rest) }
      else
        match Switch.ofLetter? letter with
        | some next =>
            (joinLetters customs next rest).map fun others =>
              { others with front := switch :: others.front }
        | none =>
            if customs.leavesStray && letter != '=' && letter != '-' then
              .ok { last := switch, stray := true }
            else .error .usage

/-- An option and what is joined to its letter. The empty text behind an equals sign
can only be a value. -/
def joinText (customs : Customs) (switch : Switch) : List Char → Except Refusal Joined
  | '=' :: text =>
      if switch.takesValue then .ok { last := switch, text := some text }
      else if customs.splitsJoined || text.isEmpty then .error .usage
      else joinLetters customs switch text
  | joined => joinLetters customs switch joined

def joinName (switch : Switch) (value : Option (List Char)) : Except Refusal Joined :=
  if value.isSome ∧ !switch.takesValue then .error .usage
  else .ok { last := switch, text := value }

def Draft.addSwitches (customs : Customs) (draft : Draft) (joined : Joined) (text : List Char) :
    Except Refusal Draft := do
  let front ← joined.front.foldlM (fun draft switch => draft.apply customs switch []) draft
  let added ← front.apply customs joined.last text
  return { added with
    justNamed := false
    unrecognised := added.unrecognised || joined.stray
    waiting := none }

def Draft.addJoined (customs : Customs) (draft : Draft) (joined : Joined) :
    Except Refusal Draft :=
  match joined.text with
  | some text => draft.addSwitches customs joined text
  | none =>
      if joined.last.takesValue then .ok { draft with waiting := some joined }
      else draft.addSwitches customs joined []

/-- While options wait for a value the next argument has to be one. -/
def Draft.add (customs : Customs) (draft : Draft) (argument : Argument) : Except Refusal Draft :=
  match draft.waiting, argument with
  | some joined, .value text => draft.addSwitches customs joined text
  | some _, _ => .error .usage
  | none, .value text => .ok (draft.addValue text)
  | none, .separator => .ok draft.addSeparator
  | none, .unknown => .ok { draft with unrecognised := true, justNamed := false }
  | none, .named switch value => do draft.addJoined customs (← joinName switch value)
  | none, .lettered switch joined => do
      draft.addJoined customs (← joinText customs switch joined)

def Draft.finish (draft : Draft) : Except Refusal Invocation :=
  match draft.waiting, draft.filename, draft.unrecognised with
  | none, some filename, false => .ok { filename := filename, values := draft.values }
  | _, _, _ => .error .usage

def parse (customs : Customs) (arguments : List String) : Except Refusal Invocation := do
  let read ← readArguments (arguments.map String.toList)
  let draft ← read.foldlM (Draft.add customs) {}
  draft.finish

end Chip8.CommandLine
