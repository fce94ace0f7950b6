import Chip8.Signal

/-!
# Sounder

What a host hears. There is only a buzzer, which is on while the sound timer
runs. A sounder with a bell also rings it, by printing the bell character, each
time the sound timer is started; how long the beep lasts makes no difference.
-/

set_option autoImplicit false

namespace Chip8

structure Sounder where
  bell : Bool
  buzzer : Bool := false
  deriving DecidableEq, Repr

namespace Sounder

def ring (sounder : Sounder) : String := if sounder.bell then "\x07" else ""

def enable (sounder : Sounder) (on : Bool) : Sounder := { sounder with buzzer := on }

def shutdown (sounder : Sounder) : Sounder := sounder.enable false

def receive (sounder : Sounder) : Signal → Sounder × String
  | .beep _ => (sounder, sounder.ring)
  | .buzzer on => (sounder.enable on, "")
  | .resolution .. | .pixel .. | .refresh _ | .rates .. | .line _ => (sounder, "")

def receiveAll (sounder : Sounder) (signals : List Signal) : Sounder :=
  signals.foldl (fun sounder signal => (sounder.receive signal).1) sounder

end Sounder

end Chip8
