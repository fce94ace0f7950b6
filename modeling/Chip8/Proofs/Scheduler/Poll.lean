import Chip8.Scheduler.Run

/-!
# Polls

A poll controls the scheduler when it asks for no run of its own and loads no
program. What it asks for then reaches the keypad, the dialect and the
scheduler alone. A refused request changes nothing, and a stopped scheduler
stays stopped. The rest of a slice follows the state that the poll has left.
-/

set_option autoImplicit false

namespace Chip8

/-- The request neither starts a run nor loads a program. -/
def Request.IsControl : Request → Prop
  | .run _ | .loadRom _ => False
  | .pause | .resume | .step | .stop | .setSpeed _ | .setDialect _ | .setKey .. => True

variable {η : Type}

def Visit.Controls : Visit η → Prop
  | .leave _ | .fail _ => True
  | .ask request next => request.IsControl ∧ ∀ answer, (next answer).Controls
  | .consult next => ∀ world, (next world).Controls
  | .update _ next => next.Controls

def Host.Controls (host : Host η) : Prop := ∀ frame, (host.poll frame).Controls

theorem answer_eq_ok {ε α : Type} {answer : Except ε α} {value : α}
    (told : answer.toOption = some value) : answer = .ok value := by
  cases answer with
  | error cause => cases told
  | ok answered =>
      cases told
      rfl

theorem Turn.answer_eq_ok {α : Type} {turn : Turn η α} {value : α}
    (told : turn.answer.toOption = some value) : turn.answer = .ok value :=
  Chip8.answer_eq_ok told

namespace World

/-- A world as another one, but for what controls may change. -/
structure Controlled (before after : World η) : Prop where
  machine : ∃ keypad dialect,
    after.machine = { before.machine with keypad := keypad, dialect := dialect }
  stopped : before.scheduler.state = .stopped → after.scheduler.state = .stopped

theorem Controlled.refl (world : World η) : Controlled world world where
  machine := ⟨_, _, rfl⟩
  stopped := id

theorem Controlled.trans {first second third : World η} (before : Controlled first second)
    (after : Controlled second third) : Controlled first third := by
  obtain ⟨_, _, same⟩ := before.machine
  obtain ⟨keypad, dialect, later⟩ := after.machine
  refine ⟨⟨keypad, dialect, ?_⟩, fun stopped => after.stopped (before.stopped stopped)⟩
  rw [later, same]

theorem Controlled.of_live {before after : World η} (live : before.scheduler.state ≠ .stopped)
    (machine : ∃ keypad dialect,
      after.machine = { before.machine with keypad := keypad, dialect := dialect }) :
    Controlled before after :=
  ⟨machine, fun stopped => absurd stopped live⟩

variable (host : Host η) (run : Bool → World η → Turn η Nat) {request : Request}

theorem scheduler_tellAll (world : World η) (signals : List Signal) :
    (world.tellAll host signals).scheduler = world.scheduler := by
  induction signals generalizing world with
  | nil => rfl
  | cons signal rest ih => exact ih (world.tell host (.signal signal))

theorem machine_tellAll (world : World η) (signals : List Signal) :
    (world.tellAll host signals).machine = world.machine := by
  induction signals generalizing world with
  | nil => rfl
  | cons signal rest ih => exact ih (world.tell host (.signal signal))

/-- A refresh counts a picture that changed and takes the mark of a change off the screen. -/
theorem refresh_eq (world : World η) :
    ∃ pictures, (world.refresh host).scheduler = { world.scheduler with pictures := pictures } ∧
      (world.refresh host).machine =
        { world.machine with screen := world.machine.screen.refresh.1 } := by
  have scheduler := scheduler_tellAll host
    { world with machine.screen := world.machine.screen.refresh.1 } world.machine.screen.refresh.2.1
  have machine := machine_tellAll host
    { world with machine.screen := world.machine.screen.refresh.1 } world.machine.screen.refresh.2.1
  simp only [refresh, modifyScheduler, scheduler, machine]
  split
  · exact ⟨_, rfl, trivial⟩
  · exact ⟨_, rfl, trivial⟩

/-- Behind an instruction the counts are brought up to date, and the state may be another one. -/
theorem scheduler_count (world : World η) :
    ∃ idleCycles state, world.count.scheduler = { world.scheduler with
      cycles := world.scheduler.cycles + 1
      completed := world.scheduler.completed + 1
      idleCycles := idleCycles
      state := state } := by
  have limited (scheduler : Scheduler) :
      ∃ state, limitCycles scheduler = { scheduler with state := state } := by
    unfold limitCycles
    split
    · exact ⟨_, rfl⟩
    · exact ⟨_, rfl⟩
  have idle (idled : Bool) (scheduler : Scheduler) : ∃ idleCycles state,
      countIdle idled scheduler =
        { scheduler with idleCycles := idleCycles, state := state } := by
    unfold countIdle
    split
    · exact ⟨_, _, rfl⟩
    · split
      · exact ⟨_, _, rfl⟩
      · exact ⟨_, _, rfl⟩
  obtain ⟨idleCycles, _, counted⟩ := idle (idled world.machine) (countCycle world.scheduler)
  obtain ⟨state, same⟩ := limited (countIdle (idled world.machine) (countCycle world.scheduler))
  rw [counted] at same
  refine ⟨idleCycles, state, ?_⟩
  rw [count, modifyScheduler, counted, same]
  rfl

/-- A control is refused, or it is carried out with at most a look at the clock. -/
theorem perform_control (control : request.IsControl) (world : World η) :
    (∃ cause, world.perform host run request = world.refused cause) ∨
    ∃ after : World η, world.perform host run request = after.done ∧ Controlled world after ∧
      (after.host = world.host ∨ after.host = (world.readClock host).2.host) := by
  cases request with
  | run | loadRom => cases control
  | pause =>
      simp only [perform, pause]
      cases state : world.scheduler.state with
      | stopped => exact .inl ⟨_, rfl⟩
      | paused | stepping => exact .inr ⟨_, rfl, .refl world, .inl rfl⟩
      | running => exact .inr ⟨_, rfl, .of_live (by rw [state]; decide) ⟨_, _, rfl⟩, .inr rfl⟩
  | resume =>
      simp only [perform, resume]
      cases state : world.scheduler.state with
      | stopped => exact .inl ⟨_, rfl⟩
      | running => exact .inr ⟨_, rfl, .refl world, .inl rfl⟩
      | paused | stepping =>
          exact .inr ⟨_, rfl, .of_live (by rw [state]; decide) ⟨_, _, rfl⟩, .inr rfl⟩
  | step =>
      simp only [perform, step]
      cases state : world.scheduler.state with
      | stopped | running => exact .inl ⟨_, rfl⟩
      | paused | stepping =>
          exact .inr ⟨_, rfl, .of_live (by rw [state]; decide) ⟨_, _, rfl⟩, .inl rfl⟩
  | stop => exact .inr ⟨_, rfl, ⟨⟨_, _, rfl⟩, fun _ => rfl⟩, .inl rfl⟩
  | setDialect => exact .inr ⟨_, rfl, ⟨⟨_, _, rfl⟩, id⟩, .inl rfl⟩
  | setSpeed speed =>
      simp only [perform, setSpeed]
      cases Scheduler.intervalOf speed with
      | error cause => exact .inl ⟨_, rfl⟩
      | ok interval => exact .inr ⟨_, rfl, ⟨⟨_, _, rfl⟩, id⟩, .inl rfl⟩
  | setKey number pressed =>
      simp only [perform, setKey, Machine.setKey]
      cases world.machine.keypad.set number pressed with
      | error cause => exact .inl ⟨_, rfl⟩
      | ok keypad => exact .inr ⟨_, rfl, ⟨⟨_, _, rfl⟩, id⟩, .inl rfl⟩

theorem perform_of_error {world : World η} {cause : Halt} (control : request.IsControl)
    (failed : (world.perform host run request).answer = .error cause) :
    (world.perform host run request).world = world := by
  rcases perform_control host run control world with ⟨_, refused⟩ | ⟨after, carriedOut, _⟩
  · rw [refused]
    rfl
  · rw [carriedOut] at failed
    cases failed

theorem perform_controlled (control : request.IsControl) (world : World η) :
    Controlled world (world.perform host run request).world := by
  rcases perform_control host run control world with ⟨_, refused⟩ | ⟨after, carriedOut, same, _⟩
  · rw [refused]
    exact .refl world
  · rw [carriedOut]
    exact same

theorem converse_controlled {visit : Visit η} (controls : visit.Controls) (world : World η) :
    Controlled world (converse host run visit world).world := by
  induction visit generalizing world with
  | leave | fail => exact .refl world
  | ask request next ih =>
      have performed := perform_controlled host run controls.1 world
      simp only [converse]
      split
      · exact performed.trans (ih _ (controls.2 _) _)
      · exact performed.trans (ih _ (controls.2 _) _)
      · exact performed
  | consult next ih => exact ih world (controls world) world
  | update change next ih =>
      have later := ih controls { world with host := change world.host }
      exact ⟨later.machine, later.stopped⟩

/-- The world once the poll of a slice is over, if one was due. A wish to quit is a stop. -/
def polled (world : World η) : Turn η Unit :=
  let (now, seen) := world.readClock host
  if seen.scheduler.state = .stopped then ⟨seen, .ok ()⟩
  else
    let turn := (seen.report host now).attend host run now
    match turn.answer with
    | .error cause => ⟨turn.world, .error cause⟩
    | .ok true => ⟨turn.world.stop, .ok ()⟩
    | .ok false => ⟨turn.world, .ok ()⟩

theorem move_of_stopped {world : World η} (now : Float)
    (stopped : world.scheduler.state = .stopped) : world.move host now = ⟨world, .ok false⟩ := by
  simp only [move, stopped]

/-- What a slice does after its poll is settled by the state that the poll has left. -/
theorem slice_eq (world : World η) :
    world.slice host run =
      match (world.polled host run).answer with
      | .error cause => ⟨(world.polled host run).world, .error cause⟩
      | .ok () => (world.polled host run).world.move host (world.readClock host).1 := by
  by_cases stopped : world.scheduler.state = .stopped
  · have seen : (world.readClock host).2.scheduler.state = .stopped := stopped
    simp only [slice, polled, seen, ↓reduceIte]
    rw [move_of_stopped host _ seen]
  · have seen : (world.readClock host).2.scheduler.state ≠ .stopped := stopped
    simp only [slice, polled, seen, ↓reduceIte]
    generalize attend host run _ _ = turn
    obtain ⟨after, answer⟩ := turn
    cases answer with
    | error cause => rfl
    | ok quit =>
        cases quit with
        | false => rfl
        | true => exact (move_of_stopped host _ rfl).symm

end World

end Chip8
