import Chip8.Proofs.Scheduler.GoesOn

/-!
# Progress of slices

What a slice has executed is read off the record of a watched host, so it does
not depend on the counts that the scheduler keeps. A slice whose poll goes on
brings its run as far as the instruction that it executes, if it executes one.
-/

set_option autoImplicit false

namespace Chip8

namespace Machine

/-- The machines that meet the cycles among what a machine is told to do, in order. -/
def met (machine : Machine) : List Activity → List Machine
  | [] => []
  | .cycle :: rest => machine :: machine.cycle.state.met rest
  | activity :: rest => (machine.carryOut [activity]).met rest

theorem met_append (machine : Machine) (first second : List Activity) :
    machine.met (first ++ second) = machine.met first ++ (machine.carryOut first).met second := by
  induction first generalizing machine with
  | nil => rfl
  | cons activity rest ih =>
      cases activity with
      | cycle => exact congrArg (machine :: ·) (ih machine.cycle.state)
      | signal | poll | tick | reset => exact ih _

theorem length_met (machine : Machine) (activities : List Activity) :
    (machine.met activities).length = activities.count .cycle := by
  induction activities generalizing machine with
  | nil => rfl
  | cons activity rest ih =>
      cases activity with
      | cycle =>
          rw [List.count_cons_self]
          exact congrArg (· + 1) (ih machine.cycle.state)
      | signal | poll | tick | reset =>
          rw [List.count_cons_of_ne Activity.noConfusion]
          exact ih _

theorem met_eq_nil {activities : List Activity} (none : .cycle ∉ activities) (machine : Machine) :
    machine.met activities = [] := by
  apply List.eq_nil_of_length_eq_zero
  rw [length_met]
  exact List.count_eq_zero.mpr none

theorem met_of_notices {activities : List Activity}
    (notices : ∀ activity ∈ activities, activity.IsNotice) (machine : Machine) :
    machine.met activities = [] :=
  met_eq_nil (fun member => notices _ member) machine

theorem met_cycle_signals (machine : Machine) (signals : List Signal) :
    machine.met (.cycle :: signals.map .signal) = [machine] :=
  congrArg (machine :: ·) (met_of_notices (fun _ => Activity.isNotice_of_mem_signals) _)

end Machine

variable {η : Type}

namespace World

def heard (world : World (Watched η)) : Nat := world.told.count .cycle

/-- The machines that met the instructions of the next slice. -/
def sliceMet (host : Host η) (world : World (Watched η)) : List Machine :=
  (world.polled host.watched refuseRun).world.machine.met
    ((world.slice host.watched refuseRun).world.told.drop world.told.length)

theorem Attended.heard {before after : World (Watched η)} (attended : Attended before after) :
    after.heard = before.heard := by
  obtain ⟨activities, told, notices⟩ := attended.told
  rw [World.heard, told, List.count_append,
    Activity.count_eq_zero notices Activity.not_isNotice_cycle]
  rfl

/-- What a part of a slice was told to do. If its instructions complete, the run has come as far
as they bring it. -/
structure Advance {α : Type} (limits : Limits) (start : Nat) (executed : List Machine)
    (world : World (Watched η)) (turn : Turn (Watched η) α) (answer : α)
    (activities : List Activity) : Prop where
  worked : Worked world turn.world activities
  progress : (∀ machine ∈ world.machine.met activities, machine.cycle.answer = .ok ()) →
    turn.answer = .ok answer ∧
      Progress limits start (executed ++ world.machine.met activities) turn.world

section

variable (host : Host η) {limits : Limits} {start : Nat} {executed : List Machine}
  {world : World (Watched η)} (live : world.scheduler.state ≠ .stopped)
  (reachable : world.machine.Reachable) (progress : Progress limits start executed world)

include live reachable progress

theorem execute_advance :
    ∃ activities, Advance limits start executed world (world.execute host.watched) ()
      activities := by
  obtain ⟨signals, worked⟩ := execute_worked host world
  refine ⟨_, worked, ?_⟩
  rw [world.machine.met_cycle_signals, List.forall_mem_singleton]
  exact progress.execute host.watched live reachable

theorem stepOnce_advance :
    ∃ activities, Advance limits start executed world (world.stepOnce host.watched) ()
      activities := by
  obtain ⟨signals, worked⟩ := stepOnce_worked host world
  refine ⟨_, worked, ?_⟩
  rw [world.machine.met_cycle_signals, List.forall_mem_singleton]
  intro completed
  obtain ⟨answer, next⟩ := progress.execute host.watched live reachable completed
  simp only [stepOnce, answer, true_and]
  by_cases stepping : (world.execute host.watched).world.scheduler.state = .stepping
  · refine next.change (by rw [stepping]; decide) ?_ ?_ rfl
    · simp only [modifyScheduler, if_pos stepping]
      rfl
    · simp only [modifyScheduler, if_pos stepping]
      exact RunState.noConfusion
  · simp only [modifyScheduler, if_neg stepping]
    exact next

theorem throttle_advance (now interval : Float) :
    ∃ activities, Advance limits start executed world
      (world.throttle host.watched now interval) () activities := by
  by_cases due : world.scheduler.nextInstruction ≤ now
  · obtain ⟨activities, worked, advance⟩ := execute_advance host live reachable progress
    simp only [throttle, if_pos due]
    cases answer : (world.execute host.watched).answer with
    | error cause =>
        refine ⟨activities, worked, ?_⟩
        intro completed
        cases answer.symm.trans (advance completed).1
    | ok _ =>
        let set := (world.execute host.watched).world.modifyScheduler fun scheduler =>
          { scheduler with nextInstruction := now + interval }
        have slept := (worked.modifyScheduler _).trans (sleepUntilDue_worked host set)
        rw [List.append_nil] at slept
        refine ⟨activities, slept, ?_⟩
        intro completed
        have next : Progress limits start (executed ++ world.machine.met activities) set :=
          { (advance completed).2 with }
        exact ⟨rfl, next.sleepUntilDue host.watched⟩
  · simp only [throttle, if_neg due]
    refine ⟨[], sleepUntilDue_worked host world, ?_⟩
    intro _
    refine ⟨rfl, ?_⟩
    rw [Machine.met, List.append_nil]
    exact progress.sleepUntilDue host.watched

theorem proceed_advance (now : Float) :
    ∃ activities, Advance limits start executed world (world.proceed host.watched now) ()
      activities := by
  obtain ⟨ticks, ticked, _, none⟩ := countTimers_worked host now world
  obtain ⟨tally, state, cycles⟩ := countTimers_keeps host.watched now world
  have stillLive : (world.countTimers host.watched now).scheduler.state ≠ .stopped := by
    rw [state]
    exact live
  have counted := progress.change live tally stillLive cycles
  have countedReachable := host.watched.invariant_reachable.countTimers now reachable
  have later : ∃ activities, Advance limits start executed (world.countTimers host.watched now)
      (world.proceed host.watched now) () activities := by
    simp only [proceed]
    split
    · exact execute_advance host stillLive countedReachable counted
    · exact throttle_advance host stillLive countedReachable counted now _
  obtain ⟨activities, worked, advance⟩ := later
  have met : world.machine.met (ticks ++ activities) =
      (world.countTimers host.watched now).machine.met activities := by
    rw [Machine.met_append, Machine.met_eq_nil none, List.nil_append, ticked.machine]
  refine ⟨ticks ++ activities, ticked.trans worked, ?_⟩
  rw [met]
  exact advance

theorem move_advance (now : Float) :
    ∃ activities, Advance limits start executed world (world.move host.watched now) true
      activities := by
  cases state : world.scheduler.state with
  | stopped => exact absurd state live
  | paused =>
      simp only [move, state]
      refine ⟨[], { Worked.refl world with }, ?_⟩
      intro _
      rw [Machine.met, List.append_nil]
      exact ⟨rfl, progress.keep rfl rfl⟩
  | stepping =>
      obtain ⟨activities, worked, advance⟩ := stepOnce_advance host live reachable progress
      simp only [move, state]
      refine ⟨activities, worked, ?_⟩
      intro completed
      have stepped := advance completed
      exact ⟨congrArg (Except.map fun _ => true) stepped.1, stepped.2⟩
  | running =>
      obtain ⟨activities, worked, advance⟩ := proceed_advance host live reachable progress now
      simp only [move, state]
      refine ⟨activities, worked, ?_⟩
      intro completed
      have proceeded := advance completed
      exact ⟨congrArg (Except.map fun _ => true) proceeded.1, proceeded.2⟩

theorem slice_advance (run : Bool → World (Watched η) → Turn (Watched η) Nat)
    (goesOn : world.PollGoesOn host.watched) :
    world.slice host.watched run = world.slice host.watched refuseRun ∧
      (world.slice host.watched refuseRun).world.heard =
        world.heard + (world.sliceMet host).length ∧
      ((∀ machine ∈ world.sliceMet host, machine.cycle.answer = .ok ()) →
        (world.slice host.watched refuseRun).answer = .ok true ∧
          Progress limits start (executed ++ world.sliceMet host)
            (world.slice host.watched refuseRun).world) := by
  obtain ⟨same, answer, attentive⟩ := polled_goesOn host run live goesOn
  have sliced : world.slice host.watched refuseRun =
      (world.polled host.watched refuseRun).world.move host.watched
        (world.readClock host.watched).1 := by
    simp only [slice_eq, answer]
  obtain ⟨notices, told, areNotices⟩ := attentive.told
  have runs (paused : Bool) (asked : World (Watched η)) (held : asked.machine.Reachable) :
      (refuseRun paused asked).world.machine.Reachable := held
  have polledReachable := host.watched.invariant_reachable.polled runs reachable
  have polledProgress := progress.change live attentive.tally attentive.live
    (congrArg Processor.cycles attentive.processor)
  obtain ⟨activities, worked, advance⟩ := move_advance host attentive.live polledReachable
    polledProgress (world.readClock host.watched).1
  rw [← sliced] at worked advance
  have met : world.sliceMet host =
      (world.polled host.watched refuseRun).world.machine.met activities := by
    rw [sliceMet, worked.told, told, List.append_assoc, List.drop_left, Machine.met_append,
      Machine.met_of_notices areNotices, Machine.carryOut_of_notices _ areNotices, List.nil_append]
  refine ⟨by simp only [slice_eq, same], ?_, ?_⟩
  · rw [met, Machine.length_met, heard, heard, worked.told, told, List.append_assoc,
      List.count_append, Activity.count_append_of_notices areNotices Activity.not_isNotice_cycle]
  · rw [met]
    exact advance

end

end World

end Chip8
