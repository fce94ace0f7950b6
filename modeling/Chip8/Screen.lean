import Chip8.Memory
import Chip8.Resolution
import Chip8.Signal

/-!
# Screen

The picture that a program draws: rows of cells that hold 0 or 1, kept in a
memory of their own in row order. Coordinates wrap around each axis by itself,
so every pair of integers names a cell. A changed cell is told to the display
at once; the picture is shown only when the screen is refreshed, and the
screen remembers whether anything changed since then.

A size of zero leaves nothing to wrap around and no cell to clear. Two
negative sizes leave cells that no display shows. When a host asks for more
cells than there is room for, the cells and the display stay as they were while
the screen has its new size, so cells may lie where the display has no pixel.
Telling the display of such a pixel fails after the cell has changed and before
the change is remembered.
-/

set_option autoImplicit false

namespace Chip8

structure Screen where
  width : Int
  height : Int
  /-- The size that the display was told last. -/
  shown : Resolution
  cells : Memory
  /-- Something changed since the last refresh. -/
  dirty : Bool

namespace Screen

def columns : Nat := 64

def rowCount : Nat := 32

def blank (width height : Int) : Screen where
  width := width
  height := height
  shown := ⟨width, height⟩
  cells := .zeros (width * height)
  dirty := true

/-- What the display is told of a new screen. It first shows nothing at all,
and then a blank picture of the size and a report without rates. -/
def opening (width height : Int) : List Signal :=
  [.resolution 0 0, .resolution width height, .rates 0 0]

def create (room : Room) (width height : Int) : Except Fault (Screen × List Signal) :=
  (Extent.check room (width * height)).map fun _ => (blank width height, opening width height)

def size (screen : Screen) : Int := screen.width * screen.height

/-- A size that is refused is remembered all the same, while the cells stay as they
were. -/
def resize (screen : Screen) (room : Room) (width height : Int) : Outcome Screen Unit :=
  match Extent.check room (width * height) with
  | .error cause => .fault { screen with width := width, height := height } cause
  | .ok () =>
      { state := blank width height
        signals := [.resolution width height]
        answer := .ok () }

def resolution (screen : Screen) : Resolution := ⟨screen.width, screen.height⟩

/-- Each cell is told to the display, whatever it held, up to the first one for which
the display has no pixel. -/
def clear (screen : Screen) : Outcome Screen Unit :=
  match screen.cells.clear with
  | .error cause => .fault screen cause
  | .ok cells =>
      { state := { screen with cells := cells, dirty := true }
        signals := (screen.resolution.reached screen.shown).map fun position =>
          .pixel position.1 position.2 0
        answer :=
          if screen.resolution.fitsIn screen.shown then .ok () else .error .noSuchPixel }

def wrap (screen : Screen) (x y : Int) : Except Fault (Int × Int) :=
  if screen.width = 0 ∨ screen.height = 0 then .error .noExtent
  else .ok (x.fmod screen.width, y.fmod screen.height)

def place (screen : Screen) (position : Int × Int) : Int :=
  position.2 * screen.width + position.1

def get (screen : Screen) (x y : Int) : Except Fault UInt8 := do
  screen.cells.read (screen.place (← screen.wrap x y))

/-- The answer says whether the cell was set before. -/
def toggle (screen : Screen) (x y : Int) : Outcome Screen Bool :=
  match screen.wrap x y with
  | .error cause => .fault screen cause
  | .ok position =>
      match screen.cells.read (screen.place position) with
      | .error cause => .fault screen cause
      | .ok old =>
          let new := old ^^^ 1
          match screen.cells.write (screen.place position) new.toNat with
          | .error cause => .fault screen cause
          | .ok cells =>
              let signals := [.pixel position.1 position.2 new]
              match screen.shown.pixel? position.1 position.2 with
              | none =>
                  { state := { screen with cells := cells }
                    signals := signals
                    answer := .error .noSuchPixel }
              | some _ =>
                  { state := { screen with cells := cells, dirty := true }
                    signals := signals
                    answer := .ok (old != 0) }

/-- The answer says whether any of the cells was set just before its turn; a fault
leaves the cells before it turned over. -/
def toggleAll (screen : Screen) : List (Int × Int) → Outcome Screen Bool
  | [] => { state := screen, answer := .ok false }
  | (x, y) :: rest =>
      let first := screen.toggle x y
      match first.answer with
      | .error cause => { first with answer := .error cause }
      | .ok hit =>
          let others := first.state.toggleAll rest
          { state := others.state
            signals := first.signals ++ others.signals
            answer := others.answer.map (hit || ·) }

def rows (screen : Screen) : Except Fault (List (List UInt8)) := do
  let cells ← screen.cells.readBlock 0 screen.size
  let width := screen.width.toNat
  return (List.range screen.height.toNat).map fun y => (cells.drop (y * width)).take width

def refresh (screen : Screen) : Screen × List Signal × Bool :=
  ({ screen with dirty := false }, [.refresh screen.dirty], screen.dirty)

def report (_ : Screen) (pictures instructions : Int) : List Signal :=
  [.rates pictures instructions]

end Screen

end Chip8
