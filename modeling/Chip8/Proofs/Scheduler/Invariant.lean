import Chip8.Proofs.Machine.History
import Chip8.Proofs.Scheduler.Poll

/-!
# Invariants of runs

A property of worlds holds after every run when it survives what a scheduler
does between two looks at its state: it works on its own fields, reads the
clock, sleeps, tells its host something, refreshes the picture and operates the
machine. Polls may ask for anything, also for runs of their own, as long as
what they do to the state of the host keeps the property.
-/

set_option autoImplicit false

namespace Chip8

variable {η : Type}

/-- What the visit does to the state of its host keeps a property. -/
def Visit.Keeps (holds : World η → Prop) : Visit η → Prop
  | .leave _ | .fail _ => True
  | .ask _ next => ∀ answer, (next answer).Keeps holds
  | .consult next => ∀ world, (next world).Keeps holds
  | .update change next =>
      (∀ world, holds world → holds { world with host := change world.host }) ∧ next.Keeps holds

/-- A property that a scheduler keeps with everything it does on a host. -/
structure Host.Invariant (host : Host η) (holds : World η → Prop) : Prop where
  scheduler : ∀ world scheduler, holds world → holds { world with scheduler := scheduler }
  readClock : ∀ world, holds world → holds (world.readClock host).2
  sleep : ∀ world seconds, holds world → holds (world.sleep host seconds)
  tell : ∀ world activity, (∀ signal, activity ≠ .signal signal) → holds world →
    holds (world.tell host activity)
  report : ∀ world pictures instructions, holds world →
    holds (world.tellAll host (world.machine.screen.report pictures instructions))
  refresh : ∀ world, holds world →
    holds (World.tellAll host world.machine.screen.refresh.2.1
      { world with machine.screen := world.machine.screen.refresh.1 })
  operate : ∀ world operation, holds world →
    holds (world.adopt host (world.machine.operate operation)).world
  poll : ∀ frame, (host.poll frame).Keeps holds

namespace Host.Invariant

variable {host : Host η} {holds : World η → Prop} (invariant : host.Invariant holds)
  {nested : Bool → World η → Turn η Nat} {world : World η}

include invariant

theorem reports (now : Float) (held : holds world) : holds (world.report host now) := by
  simp only [World.report]
  split
  · exact invariant.scheduler _ _ (invariant.report _ _ _ held)
  · exact held

theorem refreshes (held : holds world) : holds (world.refresh host) :=
  invariant.scheduler _ _ (invariant.refresh _ held)

theorem pause (held : holds world) : holds (world.pause host).world := by
  simp only [World.pause]
  split
  · exact held
  · exact invariant.scheduler _ _ (invariant.readClock _ held)
  · exact held
  · exact held

theorem resume (held : holds world) : holds (world.resume host).world := by
  simp only [World.resume]
  split
  · exact held
  · exact held
  · exact invariant.scheduler _ _ (invariant.readClock _ held)
  · exact invariant.scheduler _ _ (invariant.readClock _ held)

theorem step (held : holds world) : holds world.step.world := by
  simp only [World.step]
  split
  · exact held
  · exact held
  · exact invariant.scheduler _ _ held
  · exact invariant.scheduler _ _ held

theorem setSpeed (speed : Option Int) (held : holds world) :
    holds (world.setSpeed speed).world := by
  simp only [World.setSpeed]
  split
  · exact held
  · exact invariant.scheduler _ _ held

theorem setKey (number : Int) (pressed : Bool) (held : holds world) :
    holds (world.setKey number pressed).world := by
  have operated := invariant.operate world (.setKey number pressed) held
  simp only [World.setKey]
  cases pressing : world.machine.setKey number pressed with
  | error cause => exact held
  | ok machine =>
      simp only [Machine.operate, Outcome.ofExcept, pressing] at operated
      exact operated

theorem perform (runs : ∀ paused world, holds world → holds (nested paused world).world)
    (request : Request) (held : holds world) :
    holds (world.perform host nested request).world := by
  cases request with
  | run paused => exact runs paused world held
  | pause => exact invariant.pause held
  | resume => exact invariant.resume held
  | step => exact invariant.step held
  | stop => exact invariant.scheduler _ _ held
  | setSpeed speed => exact invariant.setSpeed speed held
  | setDialect dialect => exact invariant.operate world (.setDialect dialect) held
  | setKey number pressed => exact invariant.setKey number pressed held
  | loadRom rom => exact invariant.operate _ (.loadRom rom) (invariant.tell _ _ nofun held)

theorem converse (runs : ∀ paused world, holds world → holds (nested paused world).world)
    {visit : Visit η} (keeps : visit.Keeps holds) (held : holds world) :
    holds (World.converse host nested visit world).world := by
  induction visit generalizing world with
  | leave | fail => exact held
  | ask request next ih =>
      have performed := invariant.perform runs request held
      simp only [World.converse]
      split
      · exact ih _ (keeps _) performed
      · exact ih _ (keeps _) performed
      · exact performed
  | consult next ih => exact ih world (keeps world) held
  | update change next ih => exact ih keeps.2 (keeps.1 world held)

theorem attend (runs : ∀ paused world, holds world → holds (nested paused world).world)
    (now : Float) (held : holds world) : holds (world.attend host nested now).world := by
  simp only [World.attend]
  split
  · have begun := invariant.tell _ (.poll world.scheduler.frame) nofun
      (invariant.scheduler _ { world.scheduler with nextFrame := now + frameInterval } held)
    have conversed := invariant.converse runs (invariant.poll world.scheduler.frame) begun
    split
    · exact invariant.refreshes (invariant.scheduler _ _ conversed)
    · exact conversed
    · exact conversed
  · exact held

theorem countTimers (now : Float) (held : holds world) : holds (world.countTimers host now) := by
  have ticked (counts : Nat) : holds (Nat.repeat (World.tick host) counts world) := by
    induction counts with
    | zero => exact held
    | succ counts ih => exact invariant.operate _ .tick (invariant.tell _ .tick nofun ih)
  exact invariant.scheduler _ _ (ticked _)

theorem execute (held : holds world) : holds (world.execute host).world := by
  have cycled := invariant.operate _ .cycle (invariant.tell _ .cycle nofun held)
  simp only [World.execute]
  split
  · exact invariant.scheduler _ _ cycled
  · exact cycled

theorem sleepUntilDue (held : holds world) : holds (world.sleepUntilDue host) := by
  have seen := invariant.readClock _ held
  simp only [World.sleepUntilDue]
  split
  · split
    · exact invariant.sleep _ _ seen
    · exact seen
  · exact held

theorem throttle (now interval : Float) (held : holds world) :
    holds (world.throttle host now interval).world := by
  simp only [World.throttle]
  split
  · split
    · exact invariant.execute held
    · exact invariant.sleepUntilDue (invariant.scheduler _ _ (invariant.execute held))
  · exact invariant.sleepUntilDue held

theorem proceed (now : Float) (held : holds world) : holds (world.proceed host now).world := by
  have counted := invariant.countTimers now held
  simp only [World.proceed]
  split
  · exact invariant.execute counted
  · exact invariant.throttle now _ counted

theorem stepOnce (held : holds world) : holds (world.stepOnce host).world := by
  have executed := invariant.execute held
  simp only [World.stepOnce]
  split
  · exact executed
  · exact invariant.scheduler _ _ executed

theorem move (now : Float) (held : holds world) : holds (world.move host now).world := by
  simp only [World.move]
  split
  · exact held
  · exact invariant.stepOnce held
  · exact invariant.sleep _ _ held
  · exact invariant.proceed now held

theorem polled (runs : ∀ paused world, holds world → holds (nested paused world).world)
    (held : holds world) : holds (world.polled host nested).world := by
  have seen := invariant.readClock _ held
  have attended := invariant.attend runs (world.readClock host).1
    (invariant.reports (world.readClock host).1 seen)
  simp only [World.polled]
  split
  · exact seen
  · split
    · exact attended
    · exact invariant.scheduler _ _ attended
    · exact attended

theorem slice (runs : ∀ paused world, holds world → holds (nested paused world).world)
    (held : holds world) : holds (world.slice host nested).world := by
  have polled := invariant.polled runs held
  rw [World.slice_eq]
  split
  · exact polled
  · exact invariant.move _ polled

theorem loop (runs : ∀ paused world, holds world → holds (nested paused world).world)
    (passes : Nat) (held : holds world) : holds (world.loop host nested passes).world := by
  induction passes generalizing world with
  | zero => exact held
  | succ passes ih =>
      have sliced := invariant.slice runs held
      simp only [World.loop]
      split
      · exact sliced
      · exact sliced
      · exact ih sliced

theorem begin (paused : Bool) (held : holds world) : holds (world.begin host paused).world := by
  simp only [World.begin]
  split
  · exact invariant.scheduler _ _ (invariant.readClock _ held)
  · exact held

theorem discardRun (held : holds world) : holds (world.discardRun host) := by
  simp only [World.discardRun]
  split
  · exact invariant.operate _ .reset (invariant.tell _ .reset nofun held)
  · exact held

theorem finish {turn : Turn η Unit} (held : holds turn.world) :
    holds (World.finish host turn).world := by
  simp only [World.finish]
  split
  · exact invariant.discardRun (invariant.refreshes held)
  · exact invariant.scheduler _ _ held
  · exact held

theorem run (passes : Nat) (paused : Bool) (held : holds world) :
    holds (World.run host passes paused world).world := by
  induction passes generalizing paused world with
  | zero => exact invariant.begin paused held
  | succ passes ih =>
      have begun := invariant.begin paused held
      simp only [World.run]
      split
      · exact begun
      · exact invariant.finish (invariant.loop (fun _ _ => ih _) passes begun)

end Host.Invariant

end Chip8
