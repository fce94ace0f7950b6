import Chip8.Display
import Chip8.Scheduler.Replay
import Chip8.Sounder

/-!
# Console

A host that prints. Its inputs are a trace of key presses. It keeps the
picture if it has a display, rings the bell if it has one, and prints the
lines of live debugging. These lines and the bell are ASCII, which every output
writes; the last frame of a display is not.

What a clock shows and what a sleep does to it is left open, and so is which
other characters the output writes.
-/

set_option autoImplicit false

namespace Chip8

/-- A clock with a state of its own, that shows some seconds whenever it is read. -/
structure Clock (τ : Type) where
  read : τ → Float × τ
  wait : Float → τ → τ

namespace Clock

def still : Clock Float where
  read := fun now => (now, now)
  wait := fun seconds now => now + seconds

end Clock

structure Output where
  writes : Char → Bool
  ascii : ∀ c : Char, c.toNat < 128 → writes c = true

namespace Output

def unicode : Output where
  writes := fun _ => true
  ascii := fun _ _ => rfl

end Output

structure Console (τ : Type) where
  time : τ
  room : Room
  output : Output
  events : List InputTrace.Event
  display : Option Display
  sounder : Sounder
  printed : String

namespace Console

variable {τ : Type}

/-- A text with a character that cannot be written is not printed, not even in part. -/
def print (console : Console τ) (text : String) : Except Fault (Console τ) :=
  if text.toList.all console.output.writes then
    .ok { console with printed := console.printed ++ text }
  else .error .unwritable

def lineOf : Signal → String
  | .line text => text ++ "\n"
  | _ => ""

def textOn (sounder : Sounder) (signal : Signal) : String :=
  lineOf signal ++ (sounder.receive signal).2

def receiveAll (console : Console τ) (signals : List Signal) : Console τ :=
  { console with
    display := console.display.map (·.receiveAll signals)
    sounder := console.sounder.receiveAll signals
    printed := signals.foldl (fun printed signal => printed ++ textOn console.sounder signal)
      console.printed }

def receive (console : Console τ) (signal : Signal) : Console τ := console.receiveAll [signal]

theorem textOn_receive (sounder : Sounder) (first signal : Signal) :
    textOn (sounder.receive first).1 signal = textOn sounder signal := by
  cases first <;> cases signal <;> rfl

theorem receiveAll_nil (console : Console τ) : console.receiveAll [] = console := by
  obtain ⟨_, _, _, _, display, _, _⟩ := console
  cases display with
  | none => rfl
  | some _ => rfl

theorem receiveAll_cons (console : Console τ) (signal : Signal) (rest : List Signal) :
    console.receiveAll (signal :: rest) = (console.receive signal).receiveAll rest := by
  cases display : console.display <;>
    simp [receiveAll, receive, display, textOn_receive, Display.receiveAll, Sounder.receiveAll]

theorem receiveAll_append (console : Console τ) (first second : List Signal) :
    console.receiveAll (first ++ second) = (console.receiveAll first).receiveAll second := by
  induction first generalizing console with
  | nil => rw [List.nil_append, receiveAll_nil]
  | cons signal rest ih => rw [List.cons_append, receiveAll_cons, receiveAll_cons, ih]

def attend (activity : Activity) (console : Console τ) : Console τ :=
  match activity with
  | .signal signal => console.receive signal
  | .poll _ | .cycle | .tick | .reset => console

def poll (frame : Nat) : Visit (Console τ) :=
  .replay frame Console.events (fun later console => { console with events := later }) .leave

def host (clock : Clock τ) : Host (Console τ) where
  readClock := fun console =>
    let (now, time) := clock.read console.time
    (now, { console with time := time })
  wait := fun seconds console => { console with time := clock.wait seconds console.time }
  receive := attend
  poll := poll

def silence (console : Console τ) : Console τ :=
  { console with sounder := console.sounder.shutdown }

def draw (console : Console τ) : Except Fault (Console τ) := do
  match console.display with
  | none => return console
  | some display => console.print ((← display.render console.room) ++ "\n")

/-- A frame that cannot be drawn or written leaves the console silent all the same. -/
def shutdown (console : Console τ) : Console τ × Except Fault Unit :=
  match console.silence.draw with
  | .ok drawn => (drawn, .ok ())
  | .error cause => (console.silence, .error cause)

end Console

end Chip8
