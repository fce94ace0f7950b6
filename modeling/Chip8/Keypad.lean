import Chip8.Fault

/-!
# Keypad

Sixteen keys, each down or up. A host presses and releases keys by number and
may name a number that is no key; a program names keys by four bits, so its
questions always have an answer.
-/

set_option autoImplicit false

namespace Chip8

abbrev Key := Fin 16

structure Keypad where
  down : Vector Bool 16 := Vector.replicate 16 false
  deriving DecidableEq, Repr

namespace Keypad

def released : Keypad := {}

def key? (number : Int) : Except Fault Key :=
  if inRange : 0 ≤ number ∧ number < 16 then .ok ⟨number.toNat, by omega⟩
  else .error (.noSuchKey number)

def put (keypad : Keypad) (key : Key) (pressed : Bool) : Keypad where
  down := keypad.down.set key pressed

def set (keypad : Keypad) (number : Int) (pressed : Bool) : Except Fault Keypad :=
  (key? number).map (keypad.put · pressed)

def isDown (keypad : Keypad) (key : Key) : Bool := keypad.down[key]

/-- Whether the key of a number is down, as a host may ask. Numbers from -16
to -1 count from the last key backwards. -/
def query (keypad : Keypad) (number : Int) : Except Fault Bool :=
  match key? (if number < 0 then number + 16 else number) with
  | .ok key => .ok (keypad.isDown key)
  | .error _ => .error (.keyOutOfReach number)

def first? (keypad : Keypad) : Option Key := (List.finRange 16).find? keypad.isDown

@[simp] theorem isDown_put (keypad : Keypad) (key other : Key) (pressed : Bool) :
    (keypad.put key pressed).isDown other = if key = other then pressed else keypad.isDown other := by
  simp only [isDown, put, Fin.getElem_fin, Vector.getElem_set, Fin.ext_iff]

@[simp] theorem isDown_released (key : Key) : released.isDown key = false := by
  simp only [isDown, released, Fin.getElem_fin, Vector.getElem_replicate]

end Keypad

end Chip8
