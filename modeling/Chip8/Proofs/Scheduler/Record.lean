import Chip8.Proofs.Machine.Effects
import Chip8.Proofs.Scheduler.Advance
import Chip8.Proofs.Scheduler.Marks

/-!
# Records of slices

What a watched host is told by each part of a slice. A machine at work ticks,
cycles and sends signals; the dialogue of a poll may load programs, each behind
a reset. Neither shows the picture. A run in which no other one begins goes as
if every run that its polls ask for were refused.
-/

set_option autoImplicit false

namespace Chip8

def Signal.isRefresh : Signal → Bool
  | refresh _ => true
  | resolution .. | pixel .. | rates .. | beep _ | buzzer _ | line _ => false

theorem Signal.isRefresh_of_isEffect {signal : Signal} (effect : signal.isEffect = true) :
    signal.isRefresh = false := by
  cases signal with
  | pixel | beep | buzzer => rfl
  | resolution | refresh | rates | line => cases effect

namespace Activity

def IsWork : Activity → Prop
  | .cycle | .tick => True
  | .signal told => told.isRefresh = false
  | .poll _ | .reset => False

/-- Something that the dialogue of a poll can bring about. -/
def IsTalk : Activity → Prop
  | .reset => True
  | .signal told => told.isRefresh = false
  | .poll _ | .cycle | .tick => False

def IsStill : Activity → Prop
  | .cycle | .tick => False
  | .signal _ | .poll _ | .reset => True

theorem IsTalk.isStill {activity : Activity} (talk : activity.IsTalk) : activity.IsStill := by
  cases activity with
  | signal | reset => exact True.intro
  | poll | cycle | tick => cases talk

/-- A reset, or what shows or sounds of a machine outside its cycles. -/
def IsEffect : Activity → Prop
  | .reset => True
  | .signal told => told.isEffect = true
  | .poll _ | .cycle | .tick => False

theorem IsEffect.isTalk {activity : Activity} (effect : activity.IsEffect) : activity.IsTalk := by
  cases activity with
  | signal told => exact Signal.isRefresh_of_isEffect effect
  | reset => exact True.intro
  | poll | cycle | tick => cases effect

theorem isEffect_of_effects {signals : List Signal}
    (effects : ∀ signal ∈ signals, signal.isEffect = true) :
    ∀ activity ∈ .reset :: signals.map Activity.signal, activity.IsEffect := by
  rw [List.forall_mem_cons]
  refine ⟨True.intro, ?_⟩
  intro activity member
  obtain ⟨sent, told, rfl⟩ := List.mem_map.mp member
  exact effects sent told

end Activity

namespace Machine

def completes (machine : Machine) : Bool := machine.cycle.answer.isOk

theorem isWork_of_cycle (machine : Machine) :
    ∀ activity ∈ Activity.cycle :: machine.cycle.signals.map .signal, activity.IsWork := by
  intro activity member
  rcases List.mem_cons.mp member with rfl | sent
  · exact True.intro
  · obtain ⟨signal, told, rfl⟩ := List.mem_map.mp sent
    rcases machine.effect_or_line_of_cycle signal told with effect | ⟨text, rfl⟩
    · exact Signal.isRefresh_of_isEffect effect
    · rfl

theorem carryOut_of_still (machine : Machine) {activities : List Activity}
    (still : ∀ activity ∈ activities, activity.IsStill) :
    machine.carryOut activities = machine := by
  induction activities with
  | nil => rfl
  | cons activity rest ih =>
      obtain ⟨first, later⟩ := List.forall_mem_cons.mp still
      cases activity with
      | signal | poll | reset => exact ih later
      | cycle | tick => cases first

theorem met_of_still {activities : List Activity}
    (still : ∀ activity ∈ activities, activity.IsStill) (machine : Machine) :
    machine.met activities = [] :=
  met_eq_nil (fun member => still _ member) machine

end Machine

variable {η : Type}

namespace World

section

variable {host : Host η}

theorem told_of_waits {before after : Watched η} (waits : host.watched.Waits before after) :
    ∃ rates, after.told = before.told ++ rates ∧
      ∀ activity ∈ rates, ∃ pictures instructions,
        activity = .signal (.rates pictures instructions) := by
  induction waits with
  | refl => exact ⟨[], (List.append_nil _).symm, nofun⟩
  | readClock _ ih => exact ih
  | wait _ _ ih => exact ih
  | rates pictures instructions _ ih =>
      obtain ⟨earlier, told, areRates⟩ := ih
      refine ⟨earlier ++ [.signal (.rates pictures instructions)], ?_, ?_⟩
      · have last := congrArg (· ++ [Activity.signal (.rates pictures instructions)]) told
        exact last.trans (List.append_assoc _ _ _)
      · rw [List.forall_mem_append, List.forall_mem_singleton]
        exact ⟨areRates, _, _, rfl⟩

theorem Waited.worked {before after : World (Watched η)}
    (waited : Waited host.watched before after) :
    ∃ rates, Worked before after rates ∧
      (∀ activity ∈ rates, activity.IsWork) ∧ ∀ activity ∈ rates, activity.IsTalk := by
  obtain ⟨rates, told, areRates⟩ := told_of_waits waited.host
  have isTalk : ∀ activity ∈ rates, activity.IsTalk := by
    intro activity member
    obtain ⟨_, _, rfl⟩ := areRates activity member
    exact rfl
  refine ⟨rates, ⟨told, ?_⟩, ?_, isTalk⟩
  · rw [waited.machine]
    exact (Machine.carryOut_of_still _ fun activity member =>
      (isTalk activity member).isStill).symm
  · intro activity member
    obtain ⟨_, _, rfl⟩ := areRates activity member
    exact rfl

theorem Due.worked {world ticked : World (Watched η)} (due : world.Due host.watched ticked) :
    ∃ ticks, Worked world ticked ticks ∧
      (∀ activity ∈ ticks, activity.IsWork) ∧ .cycle ∉ ticks := by
  cases due with
  | untimed => exact ⟨[], .refl world, nofun, List.not_mem_nil⟩
  | timed now live =>
      rw [countTimers_eq]
      refine ⟨_, (counted_worked host _ world).modifyScheduler _, ?_, ?_⟩
      · intro activity member
        rcases eq_of_mem_tickActivities member with rfl | rfl
        · exact True.intro
        · exact rfl
      · intro cycle
        rcases eq_of_mem_tickActivities cycle with same | same <;> cases same

theorem cycled_worked (host : Host η) (world : World (Watched η)) :
    Worked world (world.cycled host.watched)
      (.cycle :: world.machine.cycle.signals.map .signal) :=
  tellAll_worked host world .cycle world.machine.cycle.signals

/-- The record of a move, and the instruction that it has executed, if any. -/
structure Movement (world : World (Watched η)) (turn : Turn (Watched η) Bool)
    (work : List Activity) : Prop where
  worked : Worked world turn.world work
  isWork : ∀ activity ∈ work, activity.IsWork
  frame : turn.world.scheduler.frame = world.scheduler.frame
  cycles : turn.world.scheduler.cycles =
    world.scheduler.cycles + (world.machine.met work).countP Machine.completes
  completed : ∀ more, turn.answer = .ok more →
    ∀ machine ∈ world.machine.met work, machine.cycle.answer = .ok ()
  failed : ∀ halt, turn.answer = .error halt → ∃ cause last earlier,
    halt = .fault cause ∧ world.machine.met work = [last] ∧
      last.cycle.answer = .error cause ∧ turn.world.machine = last.cycle.state ∧
      turn.world.told = earlier ++ .cycle :: last.cycle.signals.map .signal

theorem Moved.movement {world : World (Watched η)} {turn : Turn (Watched η) Bool}
    (moved : Moved host.watched world turn) : ∃ work, Movement world turn work := by
  cases moved with
  | stopped =>
      have none : world.machine.met [] = [] := rfl
      refine ⟨[], .refl world, List.forall_mem_nil _, rfl, ?_, ?_, nofun⟩
      · rw [none]
        rfl
      · intro _ _
        rw [none]
        exact List.forall_mem_nil _
  | @rested ticked after due waited =>
      obtain ⟨ticks, counted, ticksWork, noTicks⟩ := due.worked
      obtain ⟨rates, rested, ratesWork, ratesTalk⟩ := waited.worked
      have ratesStill : ∀ activity ∈ rates, activity.IsStill :=
        fun activity member => (ratesTalk activity member).isStill
      have met : world.machine.met (ticks ++ rates) = [] := by
        rw [Machine.met_append, Machine.met_eq_nil noTicks, Machine.met_of_still ratesStill]
        rfl
      refine ⟨_, counted.trans rested, List.forall_mem_append.mpr ⟨ticksWork, ratesWork⟩,
        waited.frame.trans due.keeps.2.1, ?_, ?_, nofun⟩
      · rw [met]
        exact congrArg Tally.cycles (waited.tally.trans due.keeps.1)
      · intro _ _
        rw [met]
        exact List.forall_mem_nil _
  | @failed ticked cause due failed =>
      obtain ⟨ticks, counted, ticksWork, noTicks⟩ := due.worked
      have cycled := cycled_worked host ticked
      obtain ⟨scheduler, machine⟩ := cycled_keeps host.watched ticked
      have met : world.machine.met
          (ticks ++ .cycle :: ticked.machine.cycle.signals.map .signal) = [ticked.machine] := by
        rw [Machine.met_append, Machine.met_eq_nil noTicks, ← counted.machine,
          Machine.met_cycle_signals, List.nil_append]
      refine ⟨_, counted.trans cycled, ?_, ?_, ?_, nofun, ?_⟩
      · exact List.forall_mem_append.mpr ⟨ticksWork, ticked.machine.isWork_of_cycle⟩
      · simp only [scheduler]
        exact due.keeps.2.1
      · rw [met, List.countP_singleton, Machine.completes, failed]
        simp only [scheduler]
        exact congrArg Tally.cycles due.keeps.1
      · intro halt same
        cases same
        exact ⟨cause, ticked.machine, _, rfl, met, failed, machine, cycled.told⟩
  | @executed ticked after due completed waited =>
      obtain ⟨ticks, counted, ticksWork, noTicks⟩ := due.worked
      obtain ⟨rates, rested, ratesWork, ratesTalk⟩ := waited.worked
      have cycled := cycled_worked host ticked
      have executed := (counted.trans cycled).modifyScheduler fun scheduler =>
        limitCycles (countIdle (idled (ticked.cycled host.watched).machine) (countCycle scheduler))
      obtain ⟨scheduler, machine⟩ := cycled_keeps host.watched ticked
      have ratesStill : ∀ activity ∈ rates, activity.IsStill :=
        fun activity member => (ratesTalk activity member).isStill
      have met : world.machine.met
          (ticks ++ .cycle :: ticked.machine.cycle.signals.map .signal ++ rates) =
            [ticked.machine] := by
        rw [Machine.met_append, Machine.met_append, Machine.met_eq_nil noTicks,
          ← counted.machine, Machine.met_cycle_signals, Machine.met_of_still ratesStill]
        rfl
      have tally := waited.tally.trans (tally_count (ticked.cycled host.watched))
      rw [scheduler] at tally
      refine ⟨_, executed.trans rested, ?_, ?_, ?_, ?_, nofun⟩
      · exact List.forall_mem_append.mpr
          ⟨List.forall_mem_append.mpr ⟨ticksWork, ticked.machine.isWork_of_cycle⟩, ratesWork⟩
      · have frame := frame_count (ticked.cycled host.watched)
        rw [scheduler, due.keeps.2.1] at frame
        exact waited.frame.trans frame
      · rw [met, List.countP_singleton, Machine.completes, completed]
        have cycles := congrArg Tally.cycles tally
        have before := congrArg Tally.cycles due.keeps.1
        exact cycles.trans (congrArg (· + 1) before)
      · intro _ _
        rw [met, List.forall_mem_singleton]
        exact completed

theorem told_poll {world asked : World (Watched η)}
    (poll : world.poll? host.watched = some asked) :
    ∃ rates, asked.told = world.told ++ rates ++ [.poll world.scheduler.frame] ∧
      (∀ activity ∈ rates, activity.IsWork) ∧ ∀ activity ∈ rates, activity.IsTalk := by
  obtain ⟨_, waited, seen, _, _, _, _, heard⟩ := poll?_eq_some host.watched poll
  obtain ⟨rates, worked, isWork, isTalk⟩ := seen.worked
  have told : asked.told = waited.told ++ [.poll world.scheduler.frame] :=
    congrArg Watched.told heard
  refine ⟨rates, ?_, isWork, isTalk⟩
  rw [told, worked.told]

variable (host)

theorem told_refresh (world : World (Watched η)) :
    (world.refresh host.watched).told =
      world.told ++ [.signal (.refresh world.machine.screen.dirty)] :=
  told_tellAll host { world with machine.screen := world.machine.screen.refresh.1 }
    world.machine.screen.refresh.2.1

theorem told_shown (world : World (Watched η)) :
    (world.shown host.watched).told =
      world.told ++ [.signal (.refresh world.machine.screen.dirty)] :=
  told_refresh host (world.modifyScheduler fun scheduler =>
    { scheduler with frame := scheduler.frame + 1 })

theorem told_perform_effects (request : Request) (world : World (Watched η)) :
    ∃ effects, (world.perform host.watched refuseRun request).world.told =
        world.told ++ effects ∧ ∀ activity ∈ effects, activity.IsEffect := by
  by_cases control : request.IsControl
  · exact ⟨[], (told_perform host refuseRun control world).trans (List.append_nil _).symm, nofun⟩
  · cases request with
    | pause | resume | step | stop | setSpeed | setDialect | setKey => exact absurd trivial control
    | run => exact ⟨[], (List.append_nil _).symm, nofun⟩
    | loadRom rom =>
        have effects : ∀ signal ∈ (world.machine.loadRom rom).signals, signal.isEffect = true := by
          obtain ⟨_, _, signals⟩ := world.machine.operate_loadRom rom
          change (world.machine.loadRom rom).signals = _ at signals
          rw [signals]
          exact world.machine.isEffect_reset
        have told := told_tellAll host
          { world.tell host.watched .reset with machine := (world.machine.loadRom rom).state }
          (world.machine.loadRom rom).signals
        exact ⟨_, told.trans (List.append_assoc _ [Activity.reset] _),
          Activity.isEffect_of_effects effects⟩

/-- A dialogue that starts no run shows no picture, and no machine works in it. -/
theorem told_converse_effects (visit : Visit η) (world : World (Watched η)) :
    ∃ effects, (converse host.watched refuseRun visit.watched world).world.told =
        world.told ++ effects ∧ ∀ activity ∈ effects, activity.IsEffect := by
  induction visit generalizing world with
  | leave | fail => exact ⟨[], (List.append_nil _).symm, nofun⟩
  | consult next ih => exact ih world.unwatch world
  | update change next ih =>
      exact ih { world with host := { world.host with host := change world.host.host } }
  | ask request next ih =>
      obtain ⟨effects, performed, areEffects⟩ := told_perform_effects host request world
      have onward (answer : Except Fault Answer) : ∃ effects,
          (converse host.watched refuseRun (next answer).watched
            (world.perform host.watched refuseRun request).world).world.told =
              world.told ++ effects ∧ ∀ activity ∈ effects, activity.IsEffect := by
        obtain ⟨later, told, laterEffects⟩ :=
          ih answer (world.perform host.watched refuseRun request).world
        refine ⟨effects ++ later, ?_, List.forall_mem_append.mpr ⟨areEffects, laterEffects⟩⟩
        rw [told, performed, List.append_assoc]
      simp only [Visit.watched, converse]
      split
      · exact onward _
      · exact onward _
      · exact ⟨effects, performed, areEffects⟩

theorem told_converse (visit : Visit η) (world : World (Watched η)) :
    ∃ talk, (converse host.watched refuseRun visit.watched world).world.told =
        world.told ++ talk ∧ ∀ activity ∈ talk, activity.IsTalk := by
  obtain ⟨effects, told, areEffects⟩ := told_converse_effects host visit world
  exact ⟨effects, told, fun activity member => (areEffects activity member).isTalk⟩

end

section

variable (host : Host η) {run : Bool → World η → Turn η Nat}
  {nested : Bool → World η → List Mark}
  (alone : ∀ paused world, .begun ∉ nested paused world →
    run paused world = refuseRun paused world)

include alone

theorem converse_of_alone (visit : Visit η) (world : World η)
    (none : .begun ∉ converseMarks host run nested visit world) :
    converse host run visit world = converse host refuseRun visit world := by
  induction visit generalizing world with
  | leave | fail => rfl
  | consult next ih => exact ih world world none
  | update change next ih => exact ih { world with host := change world.host } none
  | ask request next ih =>
      simp only [converseMarks, List.mem_append, not_or] at none
      obtain ⟨noRun, rest⟩ := none
      have performed : world.perform host run request = world.perform host refuseRun request := by
        apply perform_of_refused
        rintro paused rfl
        exact alone paused world noRun
      rw [performed] at rest
      simp only [converse, performed]
      generalize world.perform host refuseRun request = turn at *
      obtain ⟨after, answer⟩ := turn
      cases answer with
      | ok answer => exact ih _ after rest
      | error halt =>
          cases halt with
          | fault cause => exact ih _ after rest
          | exhausted => rfl

theorem slice_of_alone {world : World η} (none : .begun ∉ world.sliceMarks host run nested) :
    world.slice host run = world.slice host refuseRun := by
  apply slice_of_dialogue
  intro asked poll
  simp only [sliceMarks, poll, List.mem_append, not_or] at none
  exact converse_of_alone host alone _ asked none.1

theorem loop_of_alone (passes : Nat) {world : World η}
    (none : .begun ∉ world.gather host run (sliceMarks host run nested) passes) :
    world.loop host run passes = world.loop host refuseRun passes := by
  induction passes generalizing world with
  | zero => rfl
  | succ passes ih =>
      simp only [gather, List.mem_append, not_or] at none
      obtain ⟨first, rest⟩ := none
      have sliced := slice_of_alone host alone first
      rw [sliced] at rest
      simp only [loop, sliced]
      generalize world.slice host refuseRun = turn at *
      obtain ⟨after, answer⟩ := turn
      cases answer with
      | error cause => rfl
      | ok more =>
          cases more with
          | false => rfl
          | true => exact ih rest

end

def slicePolls (host : Host η) (world : World η) : List (Turn η Bool) :=
  match world.poll? host with
  | none => []
  | some asked => [asked.dialogue host refuseRun]

def polls (host : Host η) (paused : Bool) (passes : Nat) (world : World η) :
    List (Turn η Bool) :=
  (world.begin host paused).world.gather host refuseRun (slicePolls host) passes

/-- No other run begins while the run is on. -/
def Alone (host : Host η) (passes : Nat) (paused : Bool) (world : World η) : Prop :=
  (World.marks host passes paused world).count .begun ≤ 1

instance (host : Host η) (passes : Nat) (paused : Bool) (world : World η) :
    Decidable (Alone host passes paused world) :=
  inferInstanceAs (Decidable (_ ≤ 1))

theorem refused_of_marks (host : Host η) (passes : Nat) (paused : Bool) (world : World η)
    (none : .begun ∉ World.marks host passes paused world) :
    World.run host passes paused world = refuseRun paused world := by
  apply run_of_busy
  intro stopped
  cases passes with
  | zero => simp [marks, stopped] at none
  | succ passes => simp [marks, stopped] at none

theorem Alone.run_eq {host : Host η} {passes : Nat} {paused : Bool} {world : World η}
    (alone : Alone host (passes + 1) paused world) (stopped : world.scheduler.state = .stopped) :
    World.run host (passes + 1) paused world =
      finish host ((world.begin host paused).world.loop host refuseRun passes) := by
  have none : .begun ∉ (world.begin host paused).world.gather host (World.run host passes)
      (sliceMarks host (World.run host passes) (World.marks host passes)) passes := by
    -- The first mark is the run's own.
    simp only [Alone, World.marks, if_pos stopped, List.count_cons_self] at alone
    exact List.count_eq_zero.mp (by omega)
  rw [run_of_stopped host passes paused stopped,
    loop_of_alone host (refused_of_marks host passes) passes none]

end World

end Chip8
