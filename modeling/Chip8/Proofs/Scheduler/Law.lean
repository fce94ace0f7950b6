import Chip8.Proofs.Scheduler.Slice

/-!
# The law of slices

What a slice does to the machine is settled by the state that its poll has
left, whatever the clock shows and whatever the poll has asked for. A stopped
scheduler is left alone by every later slice of the run, and a refused request
changes nothing.
-/

set_option autoImplicit false

namespace Chip8.World

variable {η : Type} (host : Host η)

/-- What a slice does up to the end of its poll. The machine does not work. -/
structure Attended (before after : World (Watched η)) : Prop where
  told : ∃ activities, after.told = before.told ++ activities ∧
    ∀ activity ∈ activities, activity.IsNotice
  processor : after.machine.processor = before.machine.processor
  memory : after.machine.memory = before.machine.memory
  stack : after.machine.stack = before.machine.stack
  random : after.machine.random = before.machine.random

namespace Attended

theorem refl (world : World (Watched η)) : Attended world world where
  told := ⟨[], (List.append_nil _).symm, nofun⟩
  processor := rfl
  memory := rfl
  stack := rfl
  random := rfl

theorem trans {first second third : World (Watched η)} (before : Attended first second)
    (after : Attended second third) : Attended first third := by
  obtain ⟨earlier, told, notices⟩ := before.told
  obtain ⟨later, toldLater, noticesLater⟩ := after.told
  have allNotices := List.forall_mem_append.mpr ⟨notices, noticesLater⟩
  refine ⟨⟨earlier ++ later, ?_, allNotices⟩, ?_, ?_, ?_, ?_⟩
  · rw [toldLater, told, List.append_assoc]
  · rw [after.processor, before.processor]
  · rw [after.memory, before.memory]
  · rw [after.stack, before.stack]
  · rw [after.random, before.random]

theorem modifyScheduler {first second : World (Watched η)} (attended : Attended first second)
    (change : Scheduler → Scheduler) : Attended first (second.modifyScheduler change) :=
  { attended with }

end Attended

variable (run : Bool → World (Watched η) → Turn (Watched η) Nat)

theorem tellAll_attended (world : World (Watched η)) (signals : List Signal) :
    Attended world (world.tellAll host.watched signals) := by
  have machine := machine_tellAll host.watched world signals
  have notices : ∀ activity ∈ signals.map Activity.signal, activity.IsNotice :=
    fun _ => Activity.isNotice_of_mem_signals
  refine ⟨⟨_, told_tellAll host world signals, notices⟩, ?_, ?_, ?_, ?_⟩
  all_goals rw [machine]

theorem report_attended (now : Float) (world : World (Watched η)) :
    Attended world (world.report host.watched now) := by
  simp only [report]
  split
  · exact { tellAll_attended host world _ with }
  · exact .refl world

theorem refresh_attended (world : World (Watched η)) :
    Attended world (world.refresh host.watched) := by
  have told := tellAll_attended host
    { world with machine.screen := world.machine.screen.refresh.1 } world.machine.screen.refresh.2.1
  exact ⟨told.told, told.processor, told.memory, told.stack, told.random⟩

theorem told_perform {request : Request} (control : request.IsControl)
    (world : World (Watched η)) :
    (world.perform host.watched run request).world.told = world.told := by
  rcases perform_control host.watched run control world with ⟨_, refused⟩ |
    ⟨after, carriedOut, _, same | same⟩
  · rw [refused]
    rfl
  · rw [carriedOut]
    exact congrArg Watched.told same
  · have told := congrArg Watched.told same
    rw [carriedOut]
    exact told

theorem perform_attended {request : Request} (control : request.IsControl)
    (world : World (Watched η)) :
    Attended world (world.perform host.watched run request).world := by
  obtain ⟨keypad, dialect, machine⟩ :=
    (perform_controlled host.watched run control world).machine
  refine ⟨⟨[], ?_, nofun⟩, ?_, ?_, ?_, ?_⟩
  · rw [told_perform host run control, List.append_nil]
  all_goals rw [machine]

theorem converse_attended {visit : Visit η} (controls : visit.Controls)
    (world : World (Watched η)) :
    Attended world (converse host.watched run visit.watched world).world := by
  induction visit generalizing world with
  | leave | fail => exact .refl world
  | ask request next ih =>
      have performed := perform_attended host run controls.1 world
      simp only [Visit.watched, converse]
      split
      · exact performed.trans (ih _ (controls.2 _) _)
      · exact performed.trans (ih _ (controls.2 _) _)
      · exact performed
  | consult next ih => exact ih _ (controls _) world
  | update change next ih =>
      exact { ih controls { world with
        host := { world.host with host := change world.host.host } } with }

theorem attend_attended (controls : host.Controls) (now : Float) (world : World (Watched η)) :
    Attended world (world.attend host.watched run now).world := by
  simp only [attend]
  split
  · have begun : Attended world ((world.modifyScheduler fun scheduler =>
        { scheduler with nextFrame := now + frameInterval }).tell host.watched
          (.poll world.scheduler.frame)) :=
      ⟨⟨[.poll world.scheduler.frame], rfl, by simp [Activity.IsNotice]⟩, rfl, rfl, rfl, rfl⟩
    have conversed := begun.trans
      (converse_attended host run (controls world.scheduler.frame) _)
    split
    · exact (conversed.modifyScheduler _).trans (refresh_attended host _)
    · exact conversed
    · exact conversed
  · exact .refl world

theorem polled_attended (controls : host.Controls) (world : World (Watched η)) :
    Attended world (world.polled host.watched run).world := by
  have seen : Attended world (world.readClock host.watched).2 := { Attended.refl world with }
  have reported := seen.trans (report_attended host (world.readClock host.watched).1 _)
  have attended := reported.trans
    (attend_attended host run controls (world.readClock host.watched).1 _)
  simp only [polled]
  split
  · exact seen
  · split
    · exact attended
    · exact { attended with }
    · exact attended

/-- What the machine was told to do agrees with the state that a poll has left. -/
structure Fitting (state : RunState) (activities : List Activity) : Prop where
  cycles : activities.count .cycle ≤ 1
  ticks : activities.count .tick ≤ catchUpLimit
  ticked : .tick ∈ activities → state = .running
  executed : .cycle ∈ activities → state = .running ∨ state = .stepping

theorem Fitting.of_notices (state : RunState) {activities : List Activity}
    (notices : ∀ activity ∈ activities, activity.IsNotice) : Fitting state activities where
  cycles := by
    rw [Activity.count_eq_zero notices Activity.not_isNotice_cycle]
    exact Nat.zero_le 1
  ticks := by
    rw [Activity.count_eq_zero notices Activity.not_isNotice_tick]
    exact Nat.zero_le _
  ticked := fun member => (notices _ member).elim
  executed := fun member => (notices _ member).elim

theorem Fitting.nil (state : RunState) : Fitting state [] :=
  .of_notices state (List.forall_mem_nil _)

theorem Fitting.append {state : RunState} {notices activities : List Activity}
    (fitting : Fitting state activities) (areNotices : ∀ activity ∈ notices, activity.IsNotice) :
    Fitting state (notices ++ activities) where
  cycles := by
    rw [Activity.count_append_of_notices areNotices Activity.not_isNotice_cycle]
    exact fitting.cycles
  ticks := by
    rw [Activity.count_append_of_notices areNotices Activity.not_isNotice_tick]
    exact fitting.ticks
  ticked := fun member => (List.mem_append.mp member).elim
    (fun notice => (areNotices _ notice).elim) fitting.ticked
  executed := fun member => (List.mem_append.mp member).elim
    (fun notice => (areNotices _ notice).elim) fitting.executed

theorem move_worked (now : Float) (world : World (Watched η)) :
    ∃ activities, Worked world (world.move host.watched now).world activities ∧
      Fitting world.scheduler.state activities ∧
      (world.scheduler.state = .stepping →
        activities.count .cycle = 1 ∧ activities.count .tick = 0) := by
  cases state : world.scheduler.state with
  | stopped =>
      simp only [move, state]
      exact ⟨[], .refl world, .nil _, RunState.noConfusion⟩
  | paused =>
      simp only [move, state]
      exact ⟨[], { Worked.refl world with }, .nil _, RunState.noConfusion⟩
  | stepping =>
      obtain ⟨signals, worked⟩ := stepOnce_worked host world
      have once := Activity.count_signals Activity.not_isNotice_cycle signals
      have never : Activity.tick ∉ Activity.cycle :: signals.map .signal := by simp
      have noTicks := List.count_eq_zero.mpr never
      simp only [move, state]
      refine ⟨_, worked, ⟨Nat.le_of_eq once, ?_, fun member => absurd member never,
        fun _ => .inr rfl⟩, fun _ => ⟨once, noTicks⟩⟩
      rw [noTicks]
      exact Nat.zero_le _
  | running =>
      obtain ⟨activities, worked, cycles, ticks⟩ := proceed_worked host now world
      simp only [move, state]
      exact ⟨activities, worked, ⟨cycles, ticks, fun _ => rfl, fun _ => .inl rfl⟩,
        RunState.noConfusion⟩

/-- What a slice does from the state that its poll has left. -/
structure SliceLaw (world : World (Watched η)) (polled : Turn (Watched η) Unit)
    (turn : Turn (Watched η) Bool) : Prop where
  work : ∃ activities, turn.world.told = world.told ++ activities ∧
    turn.world.machine = polled.world.machine.carryOut activities ∧
    activities.count .cycle ≤ 1 ∧ activities.count .tick ≤ catchUpLimit ∧
    (.tick ∈ activities → polled.world.scheduler.state = .running) ∧
    (.cycle ∈ activities →
      polled.world.scheduler.state = .running ∨ polled.world.scheduler.state = .stepping) ∧
    (polled.answer = .ok () → polled.world.scheduler.state = .stepping →
      activities.count .cycle = 1 ∧ activities.count .tick = 0)
  stepping : polled.answer = .ok () → polled.world.scheduler.state = .stepping →
    match polled.world.machine.cycle.answer with
    | .error cause => turn.answer = .error (.fault cause)
    | .ok () => turn.answer = .ok true ∧
        turn.world.scheduler.state = if turn.world.LimitReached then .stopped else .paused
  idle : polled.world.scheduler.state = .paused ∨ polled.world.scheduler.state = .stopped →
    turn.world.machine = polled.world.machine ∧
    turn.world.machine.processor = world.machine.processor ∧
    turn.world.machine.memory = world.machine.memory ∧
    turn.world.machine.stack = world.machine.stack

theorem machine_move_of_idle (now : Float) {world : World η}
    (idle : world.scheduler.state = .paused ∨ world.scheduler.state = .stopped) :
    (world.move host now).world.machine = world.machine := by
  rcases idle with state | state
  · simp only [move, state]
    rfl
  · simp only [move, state]

theorem move_of_stepping (now : Float) {world : World η}
    (stepping : world.scheduler.state = .stepping) :
    match world.machine.cycle.answer with
    | .error cause => (world.move host now).answer = .error (.fault cause)
    | .ok () => (world.move host now).answer = .ok true ∧
        (world.move host now).world.scheduler.state =
          if (world.move host now).world.LimitReached then .stopped else .paused := by
  have answer := answer_stepOnce host world
  simp only [move, stepping]
  cases cycle : world.machine.cycle.answer with
  | error cause =>
      rw [cycle] at answer
      exact congrArg (Except.map fun _ => true) answer
  | ok _ =>
      rw [cycle] at answer
      exact ⟨congrArg (Except.map fun _ => true) answer, state_stepOnce host stepping cycle⟩

theorem slice_law (controls : host.Controls) (world : World (Watched η)) :
    SliceLaw world (world.polled host.watched run) (world.slice host.watched run) := by
  have attended := polled_attended host run controls world
  rw [slice_eq]
  generalize world.polled host.watched run = polled at attended
  obtain ⟨polled, answer⟩ := polled
  obtain ⟨notices, told, areNotices⟩ := attended.told
  have untouched := Machine.carryOut_of_notices polled.machine areNotices
  cases answer with
  | error cause =>
      -- The slice ends with its poll, whatever state that has left.
      obtain ⟨cycles, ticks, ticked, executed⟩ :=
        Fitting.of_notices polled.scheduler.state areNotices
      exact {
        work := ⟨notices, told, untouched.symm, cycles, ticks, ticked, executed, nofun⟩
        stepping := nofun
        idle := fun _ => ⟨rfl, attended.processor, attended.memory, attended.stack⟩ }
  | ok _ =>
      obtain ⟨activities, worked, fitting, once⟩ :=
        move_worked host (world.readClock host.watched).1 polled
      obtain ⟨cycles, ticks, ticked, executed⟩ := fitting.append areNotices
      refine {
        work := ⟨notices ++ activities, ?_, ?_, cycles, ticks, ticked, executed, ?_⟩
        stepping := fun _ => move_of_stepping host.watched _
        idle := ?_ }
      · rw [worked.told, told, List.append_assoc]
      · rw [worked.machine, Machine.carryOut_append, untouched]
      · intro _ stepping
        rw [Activity.count_append_of_notices areNotices Activity.not_isNotice_cycle,
          Activity.count_append_of_notices areNotices Activity.not_isNotice_tick]
        exact once stepping
      · intro idle
        have same := machine_move_of_idle host.watched (world.readClock host.watched).1 idle
        rw [same]
        exact ⟨rfl, attended.processor, attended.memory, attended.stack⟩

/-- A stopped scheduler is left alone by the rest of its run, and cannot be paused, resumed or
stepped. -/
structure StopLaw (run : Bool → World η → Turn η Nat) (world : World η) : Prop where
  rest : ∀ passes, (world.loop host run passes).world.scheduler = world.scheduler ∧
    (world.loop host run passes).world.machine = world.machine
  ended : (world.slice host run).answer = .ok false
  pause : world.perform host run .pause = world.refused .pausedWhileStopped
  resume : world.perform host run .resume = world.refused .resumedWhileStopped
  step : world.perform host run .step = world.refused .steppedWhileNotPaused
  visits : ∀ visit : Visit η, visit.Controls →
    (converse host run visit world).world.scheduler.state = .stopped

theorem slice_of_stopped (run : Bool → World η → Turn η Nat) {world : World η}
    (stopped : world.scheduler.state = .stopped) :
    world.slice host run = ⟨(world.readClock host).2, .ok false⟩ := by
  have seen : (world.readClock host).2.scheduler.state = .stopped := stopped
  simp only [slice, seen, ↓reduceIte]

theorem loop_of_stopped (run : Bool → World η → Turn η Nat) (passes : Nat) {world : World η}
    (stopped : world.scheduler.state = .stopped) :
    world.loop host run (passes + 1) = ⟨(world.readClock host).2, .ok ()⟩ := by
  simp only [loop, slice_of_stopped host run stopped]

theorem stop_law (run : Bool → World η → Turn η Nat) {world : World η}
    (stopped : world.scheduler.state = .stopped) : StopLaw host run world where
  rest := by
    intro passes
    cases passes with
    | zero => exact ⟨rfl, rfl⟩
    | succ passes =>
        rw [loop_of_stopped host run passes stopped]
        exact ⟨rfl, rfl⟩
  ended := by rw [slice_of_stopped host run stopped]
  pause := by simp only [perform, pause, stopped]
  resume := by simp only [perform, resume, stopped]
  step := by simp only [perform, step, stopped]
  visits := fun visit controls => (converse_controlled host run controls world).stopped stopped

theorem told_loop_of_stopped (passes : Nat) {world : World (Watched η)}
    (stopped : world.scheduler.state = .stopped) :
    (world.loop host.watched run passes).world.told = world.told := by
  cases passes with
  | zero => rfl
  | succ passes =>
      rw [loop_of_stopped host.watched run passes stopped]
      rfl

theorem run_of_busy (passes : Nat) (paused : Bool) {world : World η}
    (busy : world.scheduler.state ≠ .stopped) :
    World.run host passes paused world = world.refused .alreadyRunning := by
  have refused : world.begin host paused = world.refused .alreadyRunning := by
    simp only [begin, busy, ↓reduceIte]
  cases passes with
  | zero =>
      simp only [World.run, refused]
      rfl
  | succ passes =>
      simp only [World.run, refused]
      rfl

/-- Every pass of a run follows the law of slices, whatever the clock shows and whatever its
poll asks for short of a run of its own. -/
theorem slices_of_run (controls : host.Controls) (passes : Nat) (world : World (Watched η)) :
    let nested := World.run host.watched passes
    let polled := world.polled host.watched nested
    let turn := world.slice host.watched nested
    polled.unwatch = world.unwatch.polled host (World.run host passes) ∧
    turn.unwatch = world.unwatch.slice host (World.run host passes) ∧
    SliceLaw world polled turn ∧
    (∀ stopped : World (Watched η), stopped.scheduler.state = .stopped →
      StopLaw host.watched nested stopped ∧
      ∀ more, (stopped.loop host.watched nested more).world.told = stopped.told) ∧
    (∀ (request : Request) (asked : World (Watched η)) (cause : Halt), request.IsControl →
      (asked.perform host.watched nested request).answer = .error cause →
      (asked.perform host.watched nested request).world = asked) ∧
    ∀ (paused : Bool) (busy : World (Watched η)), busy.scheduler.state ≠ .stopped →
      busy.perform host.watched nested (.run paused) = busy.refused .alreadyRunning := by
  intro nested polled turn
  refine ⟨unwatch_polled host (unwatch_run host passes) world,
    unwatch_slice host (unwatch_run host passes) world, slice_law host nested controls world,
    fun stopped state => ?_, fun _ _ _ control failed => ?_, fun paused busy state => ?_⟩
  · exact ⟨stop_law host.watched nested state,
      fun more => told_loop_of_stopped host nested more state⟩
  · exact perform_of_error host.watched nested control failed
  · simp only [perform, nested, run_of_busy host.watched passes paused state]
    rfl

/-- A host whose clock stands still and whose polls pause and step. -/
def stepper : Host Unit where
  readClock := fun _ => (0.0, ())
  wait := fun _ _ => ()
  receive := fun _ _ => ()
  poll := fun _ => .ask .pause fun _ => .ask .step fun _ => .leave false

def stepperWorld : World (Watched Unit) where
  scheduler := { state := .running, interval := none }
  machine := .blank .plain (.scripted [] 0) false
  host := ⟨(), []⟩

theorem slices_of_run_stepper :
    stepper.Controls ∧
    (stepperWorld.polled stepper.watched (World.run stepper.watched 0)).world.scheduler.state =
      .stepping ∧
    (stepperWorld.slice stepper.watched (World.run stepper.watched 0)).world.told.count .cycle =
      1 := by
  have controls : stepper.Controls := fun _ => ⟨trivial, fun _ => ⟨trivial, fun _ => trivial⟩⟩
  have state : (stepperWorld.polled stepper.watched
      (World.run stepper.watched 0)).world.scheduler.state = .stepping := by decide +kernel
  have answer : (stepperWorld.polled stepper.watched
      (World.run stepper.watched 0)).answer = .ok () := Turn.answer_eq_ok (by decide +kernel)
  obtain ⟨_, _, law, _⟩ := slices_of_run stepper controls 0 stepperWorld
  obtain ⟨activities, told, _, _, _, _, _, once⟩ := law.work
  have same : (stepperWorld.slice stepper.watched (World.run stepper.watched 0)).world.told =
      activities := told
  rw [same]
  exact ⟨controls, state, (once answer state).1⟩

end Chip8.World
