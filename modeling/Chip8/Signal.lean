import Chip8.Fault

/-!
# Signals

What a machine and its screen tell the host while they work: changes of the
picture, sound, and printed lines. An operation returns its signals in order
and never waits for the host, so the host may show, record or drop them.

An operation that can stop half-way returns an outcome. It holds the part of
the system as the operation left it, also when it stopped at a fault.
-/

set_option autoImplicit false

namespace Chip8

inductive Signal where
  /-- The picture now has this size and is blank. -/
  | resolution (width height : Int)
  | pixel (x y : Int) (value : UInt8)
  /-- The picture may be shown; the flag says whether it differs from the one
  shown before. -/
  | refresh (changed : Bool)
  | rates (pictures instructions : Int)
  /-- The sound timer has been started, for so many seconds. -/
  | beep (seconds : Float)
  | buzzer (on : Bool)
  | line (text : String)
  deriving DecidableEq, Repr

namespace Signal

def title (pictures instructions : Int) : String :=
  Banner.name ++ " - " ++ toString pictures ++ " FPS, " ++ toString instructions ++ " OPS"

def timerFrequency : Float := 60.0

def beepFor (ticks : UInt8) : Signal := .beep (Float.ofNat ticks.toNat / timerFrequency)

end Signal

/-- What an operation on a part `σ` of the system leaves behind. The signals were told on
the way, in order. -/
structure Outcome (σ α : Type) where
  state : σ
  signals : List Signal := []
  answer : Except Fault α

namespace Outcome

variable {σ α : Type}

/-- An operation that stopped before it changed or told anything. -/
def fault (state : σ) (cause : Fault) : Outcome σ α where
  state := state
  answer := .error cause

def ofExcept (state : σ) (result : Except Fault σ) : Outcome σ Unit :=
  match result with
  | .ok next => { state := next, answer := .ok () }
  | .error cause => fault state cause

end Outcome

end Chip8
