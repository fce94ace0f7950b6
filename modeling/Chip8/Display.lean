import Chip8.Extent
import Chip8.Resolution
import Chip8.Signal

/-!
# Text display

A display that keeps a copy of the picture and the frame it showed last, and
draws that frame as text. Each pixel is some characters wide, a full block
when set and spaces when not; a border of dashes and bars stands around them.
A stretch of zero or less leaves no characters.
-/

set_option autoImplicit false

namespace Chip8

structure Display where
  stretch : Int
  width : Int := 0
  height : Int := 0
  pixels : Array (Array UInt8) := #[]
  /-- The picture shown last. -/
  frame : Array (Array UInt8) := #[]
  deriving DecidableEq, Repr

namespace Display

def create (stretch : Option Int) : Display := { stretch := stretch.getD 1 }

/-- A picture without set pixels. One without rows has no columns either,
however many were asked for. -/
def blank (width height : Int) : Array (Array UInt8) :=
  if height ≤ 0 then #[] else Array.replicate height.toNat (Array.replicate width.toNat 0)

def receive (display : Display) : Signal → Display
  | .resolution width height =>
      { display with
        width := width
        height := height
        pixels := blank width height
        frame := blank width height }
  | .pixel x y value =>
      match Resolution.pixel? ⟨display.width, display.height⟩ x y with
      | some (column, row) =>
          { display with pixels := display.pixels.modify row (·.setIfInBounds column value) }
      | none => display
  | .refresh changed => if changed then { display with frame := display.pixels } else display
  | .rates .. | .beep _ | .buzzer _ | .line _ => display

def receiveAll (display : Display) (signals : List Signal) : Display :=
  signals.foldl receive display

def cellChars (display : Display) (value : UInt8) : List Char :=
  List.replicate display.stretch.toNat (if value = 0 then ' ' else '█')

def border (display : Display) : List Char :=
  '+' :: List.replicate (display.width * display.stretch).toNat '-' ++ ['+']

def rowChars (display : Display) (row : Array UInt8) : List Char :=
  '|' :: row.toList.flatMap display.cellChars ++ ['|']

def renderLines (display : Display) : List (List Char) :=
  display.border :: display.frame.toList.map display.rowChars ++ [display.border]

/-- There is no line end behind the last line. -/
def renderChars (display : Display) : List Char :=
  List.intercalate ['\n'] display.renderLines

/-- How many characters the frame takes as text, with a line end behind every line but the last. -/
def textLength (display : Display) : Nat :=
  let border := (display.width * display.stretch).toNat + 2
  border + 1 + display.frame.toList.foldr
    (fun row length => row.size * display.stretch.toNat + 3 + length) border

/-- A pixel, a border and the whole text are each asked room for. -/
def render (display : Display) (room : Room) : Except Fault String := do
  Extent.check room display.stretch
  Extent.check room (display.width * display.stretch)
  Extent.check room display.textLength
  return String.ofList display.renderChars

example : (((create (some 2)).receiveAll
    [.resolution 2 1, .pixel 1 0 1, .refresh true]).render .ample).toOption =
      some "+----+\n|  ██|\n+----+" := by
  decide +kernel

end Display

end Chip8
