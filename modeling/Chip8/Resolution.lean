/-!
# Resolutions

The size of a picture in columns and rows. A pixel is named by two integers,
of which a negative one counts from the end. A size of zero or less leaves
nothing to name.
-/

set_option autoImplicit false

namespace Chip8

structure Resolution where
  width : Int
  height : Int
  deriving DecidableEq, Repr

namespace Resolution

/-- The place that an integer names among so many. -/
def place? (count index : Int) : Option Nat :=
  if 0 ≤ index ∧ index < count then some index.toNat
  else if -count ≤ index ∧ index < 0 then some (index + count).toNat
  else none

def pixel? (resolution : Resolution) (x y : Int) : Option (Nat × Nat) := do
  return (← place? resolution.width x, ← place? resolution.height y)

def positions (resolution : Resolution) : List (Nat × Nat) :=
  (List.range resolution.height.toNat).flatMap fun y =>
    (List.range resolution.width.toNat).map fun x => (x, y)

def fitsIn (inner outer : Resolution) : Bool :=
  inner.width ≤ 0 || inner.height ≤ 0 ||
    (inner.width ≤ outer.width && inner.height ≤ outer.height)

/-- At most one column and one row beyond another resolution. -/
def cutBeyond (inner outer : Resolution) : Resolution where
  width := min inner.width (max 0 outer.width + 1)
  height := min inner.height (max 0 outer.height + 1)

/-- Coordinates up to the first that are not in a resolution, and these too. -/
def upToMissing (outer : Resolution) : List (Nat × Nat) → List (Nat × Nat)
  | [] => []
  | (x, y) :: rest =>
      if (outer.pixel? x y).isSome then (x, y) :: upToMissing outer rest else [(x, y)]

/-- The pixels of one resolution, row by row, up to the first that is missing in
another. The first column or row beyond has one. -/
def reached (inner outer : Resolution) : List (Nat × Nat) :=
  if inner.fitsIn outer then inner.positions
  else upToMissing outer (inner.cutBeyond outer).positions

@[simp] theorem fitsIn_self (resolution : Resolution) : resolution.fitsIn resolution = true := by
  simp [fitsIn]

@[simp] theorem reached_self (resolution : Resolution) :
    resolution.reached resolution = resolution.positions := by
  simp [reached]

example : reached ⟨3, 2 ^ 40⟩ ⟨2, 2⟩ = [(0, 0), (1, 0), (2, 0)] := by decide
example : reached ⟨1, 2 ^ 40⟩ ⟨2, 2⟩ = [(0, 0), (0, 1), (0, 2)] := by decide
example : pixel? ⟨4, 5⟩ (-1) 2 = some (3, 2) ∧ pixel? ⟨4, 5⟩ 0 (-6) = none := by decide

end Resolution

end Chip8
