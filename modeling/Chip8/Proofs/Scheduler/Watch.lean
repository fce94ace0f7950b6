import Chip8.Proofs.Scheduler.Poll

/-!
# Watched hosts

A watched host is a host that also keeps what it has been told. It reads the
clock, sleeps and polls as before, and its polls see the world without the
record. So watching changes nothing: a run on a watched host is the run on the
host, with a record beside it.
-/

set_option autoImplicit false

namespace Chip8

/-- The state of a host, and what the host has been told, oldest first. -/
structure Watched (η : Type) where
  host : η
  told : List Activity

variable {η : Type}

namespace World

def unwatch (world : World (Watched η)) : World η where
  scheduler := world.scheduler
  machine := world.machine
  host := world.host.host

def told (world : World (Watched η)) : List Activity := world.host.told

end World

namespace Turn

def unwatch {α : Type} (turn : Turn (Watched η) α) : Turn η α := ⟨turn.world.unwatch, turn.answer⟩

end Turn

namespace Visit

def watched : Visit η → Visit (Watched η)
  | .leave quit => .leave quit
  | .fail cause => .fail cause
  | .ask request next => .ask request fun answer => (next answer).watched
  | .consult next => .consult fun world => (next world.unwatch).watched
  | .update change next => .update (fun seen => { seen with host := change seen.host }) next.watched

end Visit

namespace Host

def watched (host : Host η) : Host (Watched η) where
  readClock := fun seen =>
    let (now, after) := host.readClock seen.host
    (now, { seen with host := after })
  wait := fun seconds seen => { seen with host := host.wait seconds seen.host }
  receive := fun activity seen =>
    { host := host.receive activity seen.host, told := seen.told ++ [activity] }
  poll := fun frame => (host.poll frame).watched

@[simp] theorem poll_watched (host : Host η) (frame : Nat) :
    host.watched.poll frame = (host.poll frame).watched :=
  rfl

end Host

namespace World

section

variable (host : Host η) (world : World (Watched η))

@[simp] theorem unwatch_scheduler : world.unwatch.scheduler = world.scheduler := rfl

@[simp] theorem unwatch_machine : world.unwatch.machine = world.machine := rfl

@[simp] theorem unwatch_modifyScheduler (change : Scheduler → Scheduler) :
    (world.modifyScheduler change).unwatch = world.unwatch.modifyScheduler change :=
  rfl

@[simp] theorem unwatch_withMachine (machine : Machine) :
    unwatch { world with machine := machine } = { world.unwatch with machine := machine } :=
  rfl

@[simp] theorem unwatch_tell (activity : Activity) :
    (world.tell host.watched activity).unwatch = world.unwatch.tell host activity :=
  rfl

@[simp] theorem unwatch_tellAll (signals : List Signal) :
    (world.tellAll host.watched signals).unwatch = world.unwatch.tellAll host signals := by
  induction signals generalizing world with
  | nil => rfl
  | cons signal rest ih => exact ih (world.tell host.watched (.signal signal))

@[simp] theorem fst_readClock :
    (world.readClock host.watched).1 = (world.unwatch.readClock host).1 :=
  rfl

@[simp] theorem unwatch_readClock :
    (world.readClock host.watched).2.unwatch = (world.unwatch.readClock host).2 :=
  rfl

@[simp] theorem unwatch_sleep (seconds : Float) :
    (world.sleep host.watched seconds).unwatch = world.unwatch.sleep host seconds :=
  rfl

theorem unwatch_adopt {α : Type} (outcome : Outcome Machine α) :
    (world.adopt host.watched outcome).unwatch = world.unwatch.adopt host outcome := by
  simp only [Turn.unwatch, adopt, unwatch_tellAll, unwatch_withMachine]

theorem unwatch_report (now : Float) :
    (world.report host.watched now).unwatch = world.unwatch.report host now := by
  by_cases due : world.scheduler.nextReport ≤ now
  · simp only [report, unwatch_scheduler, due, ↓reduceIte, unwatch_modifyScheduler,
      unwatch_tellAll, unwatch_machine]
  · simp only [report, unwatch_scheduler, due, ↓reduceIte]

theorem unwatch_refresh :
    (world.refresh host.watched).unwatch = world.unwatch.refresh host := by
  simp only [refresh, unwatch_modifyScheduler, unwatch_tellAll, unwatch_machine]
  rfl

theorem unwatch_pause : (world.pause host.watched).unwatch = world.unwatch.pause host := by
  simp only [pause, unwatch_scheduler]
  cases world.scheduler.state <;> rfl

theorem unwatch_resume : (world.resume host.watched).unwatch = world.unwatch.resume host := by
  simp only [resume, unwatch_scheduler]
  cases world.scheduler.state <;> rfl

theorem unwatch_step : world.step.unwatch = world.unwatch.step := by
  simp only [step, unwatch_scheduler]
  cases world.scheduler.state <;> rfl

theorem unwatch_setSpeed (speed : Option Int) :
    (world.setSpeed speed).unwatch = world.unwatch.setSpeed speed := by
  simp only [setSpeed]
  cases Scheduler.intervalOf speed <;> rfl

theorem unwatch_setKey (number : Int) (pressed : Bool) :
    (world.setKey number pressed).unwatch = world.unwatch.setKey number pressed := by
  simp only [setKey, unwatch_machine]
  cases world.machine.setKey number pressed <;> rfl

theorem unwatch_loadRom (rom : List UInt8) :
    (world.loadRom host.watched rom).unwatch = world.unwatch.loadRom host rom := by
  simp only [loadRom, Turn.unwatch, adopt, unwatch_tellAll, unwatch_withMachine, unwatch_tell,
    unwatch_machine]

end

section

variable (host : Host η) {run : Bool → World η → Turn η Nat}
  {watchedRun : Bool → World (Watched η) → Turn (Watched η) Nat}
  (runs : ∀ paused world, (watchedRun paused world).unwatch = run paused world.unwatch)

include runs

theorem unwatch_perform (request : Request) (world : World (Watched η)) :
    (world.perform host.watched watchedRun request).unwatch =
      world.unwatch.perform host run request := by
  cases request with
  | run paused =>
      have ran := runs paused world
      simp only [perform, ← ran]
      rfl
  | pause => exact world.unwatch_pause host
  | resume => exact world.unwatch_resume host
  | step => exact world.unwatch_step
  | stop | setDialect => rfl
  | setSpeed speed => exact world.unwatch_setSpeed speed
  | setKey number pressed => exact world.unwatch_setKey number pressed
  | loadRom rom => exact world.unwatch_loadRom host rom

theorem unwatch_converse (visit : Visit η) (world : World (Watched η)) :
    (converse host.watched watchedRun visit.watched world).unwatch =
      converse host run visit world.unwatch := by
  induction visit generalizing world with
  | leave | fail => rfl
  | ask request next ih =>
      have performed := unwatch_perform host runs request world
      simp only [Visit.watched, converse, ← performed]
      simp only [Turn.unwatch]
      split
      · exact ih _ _
      · exact ih _ _
      · rfl
  | consult next ih => exact ih world.unwatch world
  | update change next ih => exact ih _

theorem unwatch_attend (now : Float) (world : World (Watched η)) :
    (world.attend host.watched watchedRun now).unwatch = world.unwatch.attend host run now := by
  by_cases due : world.scheduler.nextFrame ≤ now
  · have conversed := unwatch_converse host runs (host.poll world.scheduler.frame)
      ((world.modifyScheduler fun scheduler =>
        { scheduler with nextFrame := now + frameInterval }).tell host.watched
          (.poll world.scheduler.frame))
    simp only [unwatch_tell, unwatch_modifyScheduler] at conversed
    simp only [attend, unwatch_scheduler, due, ↓reduceIte, ← conversed, Host.poll_watched]
    generalize converse host.watched watchedRun _ _ = turn
    simp only [Turn.unwatch]
    split
    · simp only [unwatch_refresh, unwatch_modifyScheduler]
    · rfl
    · rfl
  · simp only [attend, unwatch_scheduler, due, ↓reduceIte]
    rfl

end

section

variable (host : Host η) (world : World (Watched η))

theorem unwatch_tick : (world.tick host.watched).unwatch = world.unwatch.tick host := by
  simp only [tick, unwatch_tellAll, unwatch_machine]
  rfl

theorem unwatch_repeat_tick (counts : Nat) :
    (Nat.repeat (tick host.watched) counts world).unwatch =
      Nat.repeat (tick host) counts world.unwatch := by
  induction counts with
  | zero => rfl
  | succ counts ih => simp only [Nat.repeat, unwatch_tick, ih]

theorem unwatch_countTimers (now : Float) :
    (world.countTimers host.watched now).unwatch = world.unwatch.countTimers host now := by
  simp only [countTimers, unwatch_modifyScheduler, unwatch_repeat_tick, unwatch_scheduler]

theorem unwatch_execute :
    (world.execute host.watched).unwatch = world.unwatch.execute host := by
  have adopted := unwatch_adopt host (world.tell host.watched .cycle) world.machine.cycle
  simp only [execute, unwatch_machine, ← unwatch_tell, ← adopted]
  simp only [Turn.unwatch]
  split <;> rfl

theorem unwatch_sleepUntilDue :
    (world.sleepUntilDue host.watched).unwatch = world.unwatch.sleepUntilDue host := by
  by_cases running : world.scheduler.state = .running
  · by_cases early : 0.0 < nextDue world.scheduler - (world.unwatch.readClock host).1
    · simp only [sleepUntilDue, unwatch_scheduler, running, fst_readClock, early, ↓reduceIte]
      rfl
    · simp only [sleepUntilDue, unwatch_scheduler, running, fst_readClock, early, ↓reduceIte]
      rfl
  · simp only [sleepUntilDue, unwatch_scheduler, running, ↓reduceIte]

theorem unwatch_throttle (now interval : Float) :
    (world.throttle host.watched now interval).unwatch =
      world.unwatch.throttle host now interval := by
  by_cases due : world.scheduler.nextInstruction ≤ now
  · simp only [throttle, unwatch_scheduler, due, ↓reduceIte, ← unwatch_execute]
    simp only [Turn.unwatch]
    split
    · rfl
    · simp only [unwatch_sleepUntilDue, unwatch_modifyScheduler]
  · simp only [throttle, unwatch_scheduler, due, ↓reduceIte, Turn.unwatch, unwatch_sleepUntilDue]

theorem unwatch_proceed (now : Float) :
    (world.proceed host.watched now).unwatch = world.unwatch.proceed host now := by
  simp only [proceed, ← unwatch_countTimers, unwatch_scheduler]
  split
  · exact unwatch_execute host _
  · exact unwatch_throttle host _ now _

theorem unwatch_stepOnce :
    (world.stepOnce host.watched).unwatch = world.unwatch.stepOnce host := by
  simp only [stepOnce, ← unwatch_execute]
  simp only [Turn.unwatch]
  split <;> rfl

theorem unwatch_move (now : Float) :
    (world.move host.watched now).unwatch = world.unwatch.move host now := by
  simp only [move, unwatch_scheduler, ← unwatch_stepOnce, ← unwatch_proceed]
  split <;> rfl

end

section

variable (host : Host η) {run : Bool → World η → Turn η Nat}
  {watchedRun : Bool → World (Watched η) → Turn (Watched η) Nat}
  (runs : ∀ paused world, (watchedRun paused world).unwatch = run paused world.unwatch)

include runs

theorem unwatch_polled (world : World (Watched η)) :
    (world.polled host.watched watchedRun).unwatch = world.unwatch.polled host run := by
  by_cases stopped : world.scheduler.state = .stopped
  · have watched : (world.readClock host.watched).2.scheduler.state = .stopped := stopped
    have plain : (world.unwatch.readClock host).2.scheduler.state = .stopped := stopped
    simp only [polled, watched, plain, ↓reduceIte]
    rfl
  · have watched : (world.readClock host.watched).2.scheduler.state ≠ .stopped := stopped
    have plain : (world.unwatch.readClock host).2.scheduler.state ≠ .stopped := stopped
    have attended := unwatch_attend host runs (world.unwatch.readClock host).1
      ((world.readClock host.watched).2.report host.watched (world.unwatch.readClock host).1)
    rw [unwatch_report, unwatch_readClock] at attended
    simp only [polled, watched, plain, ↓reduceIte, fst_readClock, ← attended]
    generalize attend host.watched watchedRun _ _ = turn
    simp only [Turn.unwatch]
    split <;> rfl

theorem unwatch_slice (world : World (Watched η)) :
    (world.slice host.watched watchedRun).unwatch = world.unwatch.slice host run := by
  rw [slice_eq, slice_eq, ← unwatch_polled host runs, fst_readClock]
  generalize polled host.watched watchedRun world = turn
  obtain ⟨after, answer⟩ := turn
  cases answer with
  | error cause => rfl
  | ok _ => exact unwatch_move host after _

theorem unwatch_loop (passes : Nat) (world : World (Watched η)) :
    (world.loop host.watched watchedRun passes).unwatch = world.unwatch.loop host run passes := by
  induction passes generalizing world with
  | zero => rfl
  | succ passes ih =>
      simp only [loop, ← unwatch_slice host runs]
      generalize slice host.watched watchedRun world = turn
      obtain ⟨after, answer⟩ := turn
      cases answer with
      | error cause => rfl
      | ok more =>
          cases more with
          | false => rfl
          | true => exact ih after

end

theorem unwatch_begin (host : Host η) (paused : Bool) (world : World (Watched η)) :
    (world.begin host.watched paused).unwatch = world.unwatch.begin host paused := by
  by_cases stopped : world.scheduler.state = .stopped
  · simp only [begin, unwatch_scheduler, stopped, ↓reduceIte]
    rfl
  · simp only [begin, unwatch_scheduler, stopped, ↓reduceIte]
    rfl

theorem unwatch_discardRun (host : Host η) (world : World (Watched η)) :
    (world.discardRun host.watched).unwatch = world.unwatch.discardRun host := by
  by_cases discard : world.scheduler.discard
  · simp only [discardRun, unwatch_scheduler, discard, ↓reduceIte, unwatch_tellAll,
      unwatch_machine]
    rfl
  · simp only [discardRun, unwatch_scheduler, discard, Bool.false_eq_true, ↓reduceIte]

theorem unwatch_finish (host : Host η) (turn : Turn (Watched η) Unit) :
    (finish host.watched turn).unwatch = finish host turn.unwatch := by
  obtain ⟨world, answer⟩ := turn
  cases answer with
  | ok _ =>
      have ended := unwatch_discardRun host (world.refresh host.watched)
      rw [unwatch_refresh] at ended
      simp only [finish, Turn.unwatch, ← ended]
      rfl
  | error cause => cases cause <;> rfl

/-- Watching a host changes nothing of its runs. -/
theorem unwatch_run (host : Host η) (passes : Nat) (paused : Bool) (world : World (Watched η)) :
    (run host.watched passes paused world).unwatch = run host passes paused world.unwatch := by
  -- Runs within a poll have one pass less, so they are covered by the induction hypothesis.
  induction passes generalizing paused world with
  | zero =>
      simp only [run, ← unwatch_begin]
      rfl
  | succ passes ih =>
      simp only [run, ← unwatch_begin]
      generalize begin host.watched paused world = turn
      obtain ⟨begun, answer⟩ := turn
      cases answer with
      | error cause => rfl
      | ok _ =>
          have looped := unwatch_loop host ih passes begun
          simp only [Turn.unwatch]
          rw [← looped]
          exact unwatch_finish host _

end World

end Chip8
