import Chip8.Keypad
import Chip8.Text.Numeral

/-!
# Input traces

A script of key presses, one event a line. An event belongs to a frame and
puts a key down or up, or asks to quit. Lines may be blank, anything behind a
number sign is a remark, and the frames must not decrease. Reading stops at
the first line that is at fault.

A replay is asked frame by frame. It gives out the events that are due, up to
and including the first request to quit, and keeps the others for later. The
frames asked for are not required to come in order.
-/

set_option autoImplicit false

namespace Chip8.InputTrace

inductive Action where
  | key (key : Key) (pressed : Bool)
  | quit
  deriving DecidableEq, Repr

structure Event where
  frame : Nat
  action : Action
  deriving DecidableEq, Repr

inductive LineError where
  | numeral (cause : Text.NumeralError)
  | keyOutOfRange
  | unrecognised
  deriving DecidableEq, Repr

def LineError.message : LineError → String
  | .numeral cause => cause.message
  | .keyOutOfRange => "key out of range"
  | .unrecognised => "unrecognised event"

inductive Cause where
  | badLine (error : LineError)
  | outOfOrder
  deriving DecidableEq, Repr

/-- The first line at fault, counted from one, and what is wrong with it. -/
structure ParseError where
  line : Nat
  cause : Cause
  deriving DecidableEq, Repr

def ParseError.message (error : ParseError) : String :=
  match error.cause with
  | .badLine cause => "Bad input trace on line " ++ toString error.line ++ ": " ++ cause.message
  | .outOfOrder =>
      "Input trace events on line " ++ toString error.line ++ " are out of frame order"

def lineFields (line : List Char) : List (List Char) :=
  Text.fields (line.takeWhile (· != '#'))

def isKeyword (keyword : String) (field : List Char) : Bool :=
  field.map Char.toLower == keyword.toList

def direction? (field : List Char) : Option Bool :=
  if isKeyword "down" field then some true
  else if isKeyword "up" field then some false
  else none

def readField (base : Text.Base) (field : List Char) : Except LineError Int :=
  (Text.readInt base field).mapError .numeral

/-- The action of the fields behind the frame. -/
def readAction : List (List Char) → Except LineError Action
  | [word] => if isKeyword "quit" word then .ok .quit else .error .unrecognised
  | [number, word] =>
      match direction? word with
      | none => .error .unrecognised
      | some pressed => do
          match Keypad.key? (← readField .sixteen number) with
          | .ok key => return .key key pressed
          | .error _ => throw .keyOutOfRange
  | _ => .error .unrecognised

/-- The frame and the action of a line, if it holds any. The frame is read
first, whatever stands behind it. -/
def readLine (line : List Char) : Except LineError (Option (Int × Action)) :=
  match lineFields line with
  | [] => .ok none
  | first :: rest => do
      let frame ← readField .ten first
      let action ← readAction rest
      return some (frame, action)

/-- The events of lines that follow an event of the frame `last`, where the
first of them has the number `line`. -/
def parseFrom (line last : Nat) : List (List Char) → Except ParseError (List Event)
  | [] => .ok []
  | text :: rest =>
      match readLine text with
      | .error cause => .error ⟨line, .badLine cause⟩
      | .ok none => parseFrom (line + 1) last rest
      | .ok (some (frame, action)) =>
          if frame < last then .error ⟨line, .outOfOrder⟩
          else (parseFrom (line + 1) frame.toNat rest).map (⟨frame.toNat, action⟩ :: ·)

def parse (lines : List (List Char)) : Except ParseError (List Event) :=
  parseFrom 1 0 lines

structure Due where
  keys : List (Key × Bool)
  quit : Bool
  later : List Event
  deriving DecidableEq, Repr

def due (frame : Int) : List Event → Due
  | [] => ⟨[], false, []⟩
  | event :: rest =>
      if event.frame ≤ frame then
        match event.action with
        | .quit => ⟨[], true, rest⟩
        | .key key pressed =>
            let others := due frame rest
            { others with keys := (key, pressed) :: others.keys }
      else ⟨[], false, event :: rest⟩

def press (keypad : Keypad) (keys : List (Key × Bool)) : Keypad :=
  keys.foldl (fun keypad change => keypad.put change.1 change.2) keypad

example : (parse ["2 5 down # five".toList, [], "4 quit".toList]).toOption =
    some [⟨2, .key 5 true⟩, ⟨4, .quit⟩] := by decide +kernel

end Chip8.InputTrace
