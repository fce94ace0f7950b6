import Chip8.Fault

/-!
# Extents

How many cells or characters can be asked for at once. A count is first
brought into 64 bits with a sign, so one that does not fit is refused whatever
its sign; a negative count that fits asks for nothing. How many there is room
for is a matter of the host.
-/

set_option autoImplicit false

namespace Chip8

/-- Room for fewer cells or characters than a limit, or for any number of them. -/
structure Room where
  limit : Option Nat
  deriving DecidableEq, Repr

namespace Room

def ample : Room := ⟨none⟩

def Admits (room : Room) (count : Int) : Prop := ∀ limit ∈ room.limit, count < limit

instance (room : Room) (count : Int) : Decidable (room.Admits count) :=
  inferInstanceAs (Decidable (∀ limit ∈ room.limit, count < limit))

end Room

namespace Extent

/-- The counts that do not fit into 64 bits begin here. -/
def countBound : Int := 0x8000000000000000

def checkCount (count : Int) : Except Fault Unit :=
  if -countBound ≤ count ∧ count < countBound then .ok () else .error (.beyondCount count)

def check (room : Room) (count : Int) : Except Fault Unit := do
  checkCount count
  if room.Admits count then return () else throw (.outOfMemory count)

end Extent

end Chip8
