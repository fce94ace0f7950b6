import Chip8.Extent

/-!
# Memory

A row of byte cells with a declared size. The size may be negative, in which
case there are no cells and every access fails.

An access first checks one address: the one it names, or for a block the last
address of the block. The cells of a block are then found by a rule that also
takes negative addresses, which count from the end, and that cuts a block off
at both ends of the row. A block that is written has to have exactly the
length of the cells found for it. An access that fails changes nothing.

A host is asked for room for new cells and for the zeros of a block. The zeros
that clear a memory are as many as the cells it has, and no room is asked for.
-/

set_option autoImplicit false

namespace Chip8

structure Memory where
  size : Int
  cells : Array UInt8
  size_cells : cells.size = size.toNat

namespace Memory

def zeros (size : Int) : Memory where
  size := size
  cells := Array.replicate size.toNat 0
  size_cells := Array.size_replicate

def create (room : Room) (size : Int) : Except Fault Memory :=
  (Extent.check room size).map fun _ => zeros size

def InRange (memory : Memory) (address : Int) : Prop :=
  0 ≤ address ∧ address < memory.size

instance (memory : Memory) (address : Int) : Decidable (memory.InRange address) :=
  inferInstanceAs (Decidable (_ ∧ _))

theorem InRange.toNat_lt {memory : Memory} {address : Int} (inRange : memory.InRange address) :
    address.toNat < memory.cells.size := by
  have ⟨_, _⟩ := inRange
  have := memory.size_cells
  omega

def check (memory : Memory) (address : Int) : Except Fault Unit :=
  if memory.InRange address then .ok () else .error (.addressOutOfRange address)

def read (memory : Memory) (address : Int) : Except Fault UInt8 :=
  if inRange : memory.InRange address then
    have := inRange.toNat_lt
    .ok memory.cells[address.toNat]
  else .error (.addressOutOfRange address)

def withCells (memory : Memory) (cells : Array UInt8)
    (same : cells.size = memory.cells.size) : Memory where
  size := memory.size
  cells := cells
  size_cells := same.trans memory.size_cells

def setCell (memory : Memory) (address : Nat) (byte : UInt8)
    (bound : address < memory.cells.size) : Memory :=
  memory.withCells (memory.cells.set address byte bound) (Array.size_set bound)

def write (memory : Memory) (address value : Int) : Except Fault Memory :=
  if inRange : memory.InRange address then
    if 0 ≤ value ∧ value ≤ 255 then
      .ok (memory.setCell address.toNat (UInt8.ofNat value.toNat) inRange.toNat_lt)
    else .error (.notAByte value)
  else .error (.addressOutOfRange address)

/-- Where a cut at an address falls in a row of cells. Negative addresses
count from the end, and what lies beyond an end falls on that end. -/
def cutPoint (length : Nat) (address : Int) : Nat :=
  if address < 0 then (address + length).toNat else min address.toNat length

def span (memory : Memory) (first last : Int) : Nat × Nat :=
  let start := cutPoint memory.cells.size first
  (start, cutPoint memory.cells.size last - start)

/-- The cells from a place on are replaced by those of a block. What would lie
beyond the row is dropped. -/
def overwrite (memory : Memory) (start : Nat) (block : List UInt8) : Memory :=
  let cells := memory.cells.toList
  let written := block.take (cells.length - start)
  memory.withCells (cells.take start ++ (written ++ cells.drop (start + block.length))).toArray
    (by
      simp only [List.size_toArray, List.length_append, List.length_take, List.length_drop,
        written, cells, Array.length_toList]
      omega)

def readBlock (memory : Memory) (address size : Int) : Except Fault (List UInt8) := do
  memory.check (address + size - 1)
  let (start, count) := memory.span address (address + size)
  return (memory.cells.toList.drop start).take count

def writeBlock (memory : Memory) (address : Int) (block : List UInt8) : Except Fault Memory := do
  let last := address + block.length
  memory.check (last - 1)
  let (start, count) := memory.span address last
  if count = block.length then
    return memory.overwrite start block
  else throw .blockMismatch

def zeroBlock (memory : Memory) (room : Room) (address size : Int) : Except Fault Memory := do
  memory.check (address + size - 1)
  Extent.check room size
  let (start, count) := memory.span address (address + size)
  if 0 ≤ size ∧ count = size.toNat then
    return memory.overwrite start (List.replicate count 0)
  else throw .blockMismatch

/-- A memory without cells has no last address, so clearing it fails at the check. -/
def clear (memory : Memory) : Except Fault Memory :=
  memory.zeroBlock .ample 0 memory.size

/-- A program image may reach from its start to the end of memory, and one without
bytes is not stored at all. -/
def loadRom (memory : Memory) (rom : List UInt8) (start : Int) : Except Fault Memory :=
  let capacity := memory.size - start
  if capacity < rom.length then .error (.tooLarge rom.length capacity start)
  else if rom.isEmpty then .ok memory
  else memory.writeBlock start rom

@[simp] theorem size_withCells (memory : Memory) (cells : Array UInt8)
    (same : cells.size = memory.cells.size) : (memory.withCells cells same).size = memory.size :=
  rfl

@[simp] theorem size_setCell (memory : Memory) (address : Nat) (byte : UInt8)
    (bound : address < memory.cells.size) : (memory.setCell address byte bound).size = memory.size :=
  rfl

@[simp] theorem size_overwrite (memory : Memory) (start : Nat) (block : List UInt8) :
    (memory.overwrite start block).size = memory.size :=
  rfl

end Memory

end Chip8
