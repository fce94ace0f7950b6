import Chip8.InputTrace
import Chip8.Scheduler.World

/-!
# Replaying a trace

The dialogue in which a host whose inputs are a trace presses the keys that
are due. The events that are not due yet are kept in the state of the host
before the first key is pressed.
-/

set_option autoImplicit false

namespace Chip8.Visit

variable {η : Type}

def press (keys : List (Key × Bool)) (next : Visit η) : Visit η :=
  keys.foldr (fun change rest => .ask (.setKey (change.1.val : Nat) change.2) fun _ => rest) next

/-- Press the keys that are due at a frame and keep the events for later. What
follows is told whether a request to quit was met. -/
def replay (frame : Nat) (events : η → List InputTrace.Event)
    (keep : List InputTrace.Event → η → η) (next : Bool → Visit η) : Visit η :=
  .consult fun world =>
    let due := InputTrace.due frame (events world.host)
    .update (keep due.later) (press due.keys (next due.quit))

end Chip8.Visit
