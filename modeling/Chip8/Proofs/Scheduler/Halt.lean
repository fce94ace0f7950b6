import Chip8.Proofs.Scheduler.Advance

/-!
# Runs that come to a limit

A run whose polls go on ends with the instruction that brings it to one of its
limits, and not before. The run may be paused, resumed and stepped on the way,
and keys may change.
-/

set_option autoImplicit false

namespace Chip8.World

variable {η : Type}

def loopMet (host : Host η) : Nat → World (Watched η) → List Machine
  | 0, _ => []
  | passes + 1, world =>
      world.sliceMet host ++
        match (world.slice host.watched refuseRun).answer with
        | .ok true => loopMet host passes (world.slice host.watched refuseRun).world
        | .ok false | .error _ => []

theorem sliceMet_of_stopped (host : Host η) {world : World (Watched η)}
    (stopped : world.scheduler.state = .stopped) : world.sliceMet host = [] := by
  have told : (world.slice host.watched refuseRun).world.told = world.told := by
    rw [slice_of_stopped host.watched refuseRun stopped]
    rfl
  rw [sliceMet, told, List.drop_length]
  rfl

theorem loopMet_of_stopped (host : Host η) (passes : Nat) {world : World (Watched η)}
    (stopped : world.scheduler.state = .stopped) : world.loopMet host passes = [] := by
  cases passes with
  | zero => rfl
  | succ passes =>
      simp only [loopMet, sliceMet_of_stopped host stopped,
        slice_of_stopped host.watched refuseRun stopped]
      rfl

/-- The next pass of a run that is on leads to another world, from which the run continues. -/
structure Pass (host : Host η) (run : Bool → World (Watched η) → Turn (Watched η) Nat)
    (limits : Limits) (start : Nat) (executed : List Machine) (passes : Nat)
    (world next : World (Watched η)) : Prop where
  reachable : next.machine.Reachable
  progress : Progress limits start (executed ++ world.sliceMet host) next
  goesOn : next.PollsGoOn host.watched passes
  completed : ∀ machine ∈ next.loopMet host passes, machine.cycle.answer = .ok ()
  met : ∀ count, world.loopMet host (count + 1) = world.sliceMet host ++ next.loopMet host count
  loop : ∀ count,
    world.loop host.watched run (count + 1) = next.loop host.watched run count
  heard : next.heard = world.heard + (world.sliceMet host).length

section

variable (host : Host η) (run : Bool → World (Watched η) → Turn (Watched η) Nat)
  {limits : Limits} {start : Nat} {executed : List Machine} {world : World (Watched η)}
  (reachable : world.machine.Reachable) (progress : Progress limits start executed world)
  {passes : Nat}

include reachable progress

theorem pass_of_live (live : world.scheduler.state ≠ .stopped)
    (goesOn : world.PollsGoOn host.watched (passes + 1))
    (completed : ∀ machine ∈ world.loopMet host (passes + 1), machine.cycle.answer = .ok ()) :
    ∃ next, Pass host run limits start executed passes world next := by
  obtain ⟨same, heard, advance⟩ := slice_advance host live reachable progress run goesOn.1
  rw [loopMet, List.forall_mem_append] at completed
  obtain ⟨answer, next⟩ := advance completed.1
  simp only [answer] at completed
  refine ⟨(world.slice host.watched refuseRun).world, ?_, next, goesOn.2 answer, completed.2, ?_,
    ?_, heard⟩
  · exact host.watched.invariant_reachable.slice (fun _ _ held => held) reachable
  · intro count
    simp only [loopMet, answer]
  · intro count
    simp only [loop, same, answer]

variable (goesOn : world.PollsGoOn host.watched passes)
  (completed : ∀ machine ∈ world.loopMet host passes, machine.cycle.answer = .ok ())

include goesOn completed

/-- A run whose polls go on makes progress, and ends only when it is stopped. -/
theorem loop_progress :
    Progress limits start (executed ++ world.loopMet host passes)
        (world.loop host.watched run passes).world ∧
      ((world.loop host.watched run passes).answer = .error .exhausted ∨
        ((world.loop host.watched run passes).answer = .ok () ∧
          (world.loop host.watched run passes).world.scheduler.state = .stopped)) := by
  -- The instructions of the first pass join those executed before it.
  induction passes generalizing world executed with
  | zero =>
      rw [loopMet, List.append_nil]
      exact ⟨progress, .inl rfl⟩
  | succ passes ih =>
      by_cases stopped : world.scheduler.state = .stopped
      · rw [loopMet_of_stopped host _ stopped, List.append_nil,
          loop_of_stopped host.watched run passes stopped]
        exact ⟨progress.keep rfl rfl, .inr ⟨rfl, stopped⟩⟩
      · obtain ⟨next, pass⟩ :=
          pass_of_live host run reachable progress stopped goesOn completed
        rw [pass.met, pass.loop, ← List.append_assoc]
        exact ih pass.reachable pass.progress pass.goesOn pass.completed

/-- A run that has come to a limit executes nothing more, and ends with the next pass. -/
theorem loop_of_reached (reached : limits.Reached (executed ++ world.loopMet host passes))
    (more : Nat) :
    world.loopMet host (passes + more) = world.loopMet host passes ∧
      (world.loop host.watched run (passes + more + 1)).answer = .ok () ∧
      (world.loop host.watched run (passes + more + 1)).world.heard =
        world.heard + (world.loopMet host passes).length ∧
      Progress limits start (executed ++ world.loopMet host passes)
        (world.loop host.watched run (passes + more + 1)).world := by
  induction passes generalizing world executed with
  | zero =>
      rw [loopMet, List.append_nil] at reached
      have stopped := progress.stopped.mpr reached
      rw [loopMet_of_stopped host _ stopped, loopMet, List.append_nil,
        loop_of_stopped host.watched run _ stopped]
      exact ⟨rfl, rfl, rfl, progress.keep rfl rfl⟩
  | succ passes ih =>
      by_cases stopped : world.scheduler.state = .stopped
      · rw [loopMet_of_stopped host _ stopped, loopMet_of_stopped host _ stopped, List.append_nil,
          loop_of_stopped host.watched run _ stopped]
        exact ⟨rfl, rfl, rfl, progress.keep rfl rfl⟩
      · obtain ⟨next, pass⟩ :=
          pass_of_live host run reachable progress stopped goesOn completed
        rw [pass.met, ← List.append_assoc] at reached
        obtain ⟨met, answer, heard, ended⟩ :=
          ih pass.reachable pass.progress pass.goesOn pass.completed reached
        rw [Nat.add_right_comm passes 1 more, pass.met, pass.met, pass.loop, met,
          ← List.append_assoc, heard, pass.heard, List.length_append]
        exact ⟨rfl, answer, Nat.add_assoc _ _ _, ended⟩

end

def executed (host : Host η) (paused : Bool) (passes : Nat) (world : World (Watched η)) :
    List Machine :=
  (world.begin host.watched paused).world.loopMet host passes

/-- How a run comes to its limits. It is stopped exactly by the instruction that brings it to one
of them, executes none behind it, does not end before, and leaves the machine as this
instruction has left it, with the picture shown. -/
structure HaltLaw (host : Host η) (limits : Limits) (paused : Bool) (world : World (Watched η))
    (passes : Nat) : Prop where
  stopped : ((world.begin host.watched paused).world.loop host.watched
      (World.run host.watched passes) passes).world.scheduler.state = .stopped ↔
    limits.Reached (world.executed host paused passes)
  first : ∀ count < (world.executed host paused passes).length,
    ¬limits.Reached ((world.executed host paused passes).take count)
  onward : ¬limits.Reached (world.executed host paused passes) →
    (World.run host.watched (passes + 1) paused world).answer = .error .exhausted
  last : limits.Reached (world.executed host paused passes) → ∀ later, passes ≤ later →
    world.executed host paused later = world.executed host paused passes
  ended : limits.Reached (world.executed host paused passes) → ∀ bound, passes + 2 ≤ bound →
    let final := World.run host.watched bound paused world
    final.answer = .ok (world.executed host paused passes).length ∧
    final.world.heard = world.heard + (world.executed host paused passes).length ∧
    final.world.machine.processor.cycles =
      world.machine.processor.cycles + (world.executed host paused passes).length ∧
    ∃ machine, (world.executed host paused passes).getLast? = some machine ∧
      final.world.machine =
        { machine.cycle.state with screen := machine.cycle.state.screen.refresh.1 }

theorem begin_progress (host : Host η) (paused : Bool) {limits : Limits} {world : World η}
    (stopped : world.scheduler.state = .stopped)
    (cycleLimit : world.scheduler.cycleLimit = limits.cycles)
    (idleLimit : world.scheduler.idleLimit = limits.idle) :
    (world.begin host paused).answer = .ok () ∧
      (world.begin host paused).world.machine = world.machine ∧
      Progress limits world.machine.processor.cycles [] (world.begin host paused).world := by
  have live : (if paused then RunState.paused else .running) ≠ .stopped := by
    cases paused with
    | false => exact RunState.noConfusion
    | true => exact RunState.noConfusion
  have idle (count : Nat) : count ≤ 0 ↔ IdleFor [] count := by simp [IdleFor]
  simp only [begin, if_pos stopped]
  exact ⟨trivial, rfl, {
    counts := ⟨cycleLimit, idleLimit, rfl, fun _ => idle, rfl⟩
    cycles := rfl
    first := fun _ within => absurd within (Nat.not_lt_zero _)
    stopped := iff_of_false live limits.not_reached_nil
    left := fun stopped => absurd stopped live }⟩

theorem finish_of_progress (host : Host η) {limits : Limits} {start : Nat}
    {executed : List Machine} {turn : Turn (Watched η) Unit} (answer : turn.answer = .ok ())
    (progress : Progress limits start executed turn.world)
    (reached : limits.Reached executed) :
    (finish host.watched turn).answer = .ok executed.length ∧
      (finish host.watched turn).world.heard = turn.world.heard ∧
      (finish host.watched turn).world.machine.processor.cycles = start + executed.length ∧
      ∃ machine, executed.getLast? = some machine ∧
        (finish host.watched turn).world.machine =
          { machine.cycle.state with screen := machine.cycle.state.screen.refresh.1 } := by
  obtain ⟨_, scheduler, machine⟩ := refresh_eq host.watched turn.world
  have counts : (turn.world.refresh host.watched).scheduler.tally.Counts limits executed := by
    rw [scheduler]
    exact { progress.counts with }
  have kept : (turn.world.refresh host.watched).scheduler.discard = false := counts.discard
  have ended : finish host.watched turn =
      ⟨turn.world.refresh host.watched,
        .ok (turn.world.refresh host.watched).scheduler.cycles⟩ := by
    simp only [finish, answer, discardRun, kept]
    rfl
  obtain ⟨last, isLast, left⟩ := progress.left (progress.stopped.mpr reached)
  rw [ended]
  refine ⟨congrArg Except.ok counts.cycles, (refresh_attended host turn.world).heard, ?_, last,
    isLast, ?_⟩
  · rw [machine]
    exact progress.cycles
  · rw [machine, left]

/-- A run whose polls go on and whose instructions complete is ended by its limits alone, whatever
the clock shows, however fast it is to run, and whether it is paused or stepped on the way. -/
theorem run_halts (host : Host η) (limits : Limits) (paused : Bool) (world : World (Watched η))
    (passes : Nat) (reachable : world.machine.Reachable)
    (stopped : world.scheduler.state = .stopped)
    (cycleLimit : world.scheduler.cycleLimit = limits.cycles)
    (idleLimit : world.scheduler.idleLimit = limits.idle)
    (goesOn : (world.begin host.watched paused).world.PollsGoOn host.watched passes)
    (completed : ∀ machine ∈ world.executed host paused passes,
      machine.cycle.answer = .ok ()) :
    HaltLaw host limits paused world passes ∧
      ∀ bound, (World.run host.watched bound paused world).unwatch =
        World.run host bound paused world.unwatch := by
  obtain ⟨begun, machine, progress⟩ :=
    begin_progress host.watched paused stopped cycleLimit idleLimit
  have heard : (world.begin host.watched paused).world.heard = world.heard := by
    simp only [begin, if_pos stopped]
    rfl
  rw [← machine] at reachable
  have looped (bound : Nat) := loop_progress host (World.run host.watched bound) reachable progress
    goesOn completed
  have reached (bound : Nat) := loop_of_reached host (World.run host.watched bound) reachable
    progress goesOn completed
  have ran (bound : Nat) : World.run host.watched (bound + 1) paused world =
      finish host.watched ((world.begin host.watched paused).world.loop host.watched
        (World.run host.watched bound) bound) := by
    simp only [World.run, begun]
  refine ⟨?_, fun bound => unwatch_run host bound paused world⟩
  simp only [List.nil_append] at looped reached
  constructor
  · exact (looped passes).1.stopped
  · exact (looped passes).1.first
  · intro unreached
    obtain ⟨advanced, exhausted | ⟨_, halted⟩⟩ := looped passes
    · rw [ran, finish, exhausted]
    · exact absurd (advanced.stopped.mp halted) unreached
  · intro limit later within
    obtain ⟨more, rfl⟩ := Nat.exists_eq_add_of_le within
    exact (reached passes limit more).1
  · intro limit bound enough final
    obtain ⟨more, rfl⟩ := Nat.exists_eq_add_of_le enough
    obtain ⟨_, answer, told, advanced⟩ := reached (passes + more + 1) limit more
    have law := finish_of_progress host answer advanced limit
    rw [told, heard, ← ran, Nat.add_right_comm (passes + more) 1 1,
      Nat.add_right_comm passes more 1, Nat.add_right_comm (passes + 1) more 1] at law
    exact law

/-- A host whose clock shows how often it was read. Its third poll presses a key. -/
def presser : Host Nat where
  readClock := fun reads => (Float.ofNat reads, reads + 1)
  wait := fun _ reads => reads
  receive := fun _ reads => reads
  poll := fun frame =>
    if frame = 2 then .ask (.setKey 3 true) fun _ => .leave false else .leave false

/-- A machine that waits for a key and then jumps to itself. -/
def doorman : Machine :=
  (Machine.assemble .plain (.scripted [] 0) false).1.after
    [.loadRom [0xf1, 0x0a, 0x12, 0x02]]

def presserWorld (machine : Machine) : World (Watched Nat) where
  scheduler := { interval := none, idleLimit := 2 }
  machine := machine
  host := ⟨0, []⟩

theorem presser_goesOn (passes : Nat) (world : World (Watched Nat)) :
    world.PollsGoOn presser.watched passes := by
  induction passes generalizing world with
  | zero => trivial
  | succ passes ih =>
      refine ⟨?_, fun _ => ih _⟩
      intro _ _
      simp only [Host.poll_watched, presser]
      split
      · exact ⟨trivial, nofun, rfl⟩
      · rfl

theorem doorman_reachable : doorman.Reachable := by
  have assembled : (Machine.assemble .plain (.scripted [] 0) false).1.Reachable :=
    .assembled _ _ _
  rw [doorman]
  exact assembled.after _

theorem run_halts_presser :
    (World.run presser.watched 7 false (presserWorld doorman)).answer = .ok 5 := by
  have reachable (machine : Machine) (held : machine.Reachable) :
      (presserWorld machine).machine.Reachable := held
  -- Three key waits, of which the last one is answered, and two jumps.
  obtain ⟨completed, reached, length⟩ :
      (∀ machine ∈ (presserWorld doorman).executed presser false 5,
        machine.cycle.answer.toOption = some ()) ∧
      (⟨0, 2⟩ : Limits).Reached ((presserWorld doorman).executed presser false 5) ∧
      ((presserWorld doorman).executed presser false 5).length = 5 := by decide +kernel
  have law := (run_halts presser ⟨0, 2⟩ false (presserWorld doorman) 5
    (reachable doorman doorman_reachable) rfl rfl rfl (presser_goesOn 5 _)
    fun machine member => answer_eq_ok (completed machine member)).1
  have ended := (law.ended reached 7 (Nat.le_refl 7)).1
  rw [length] at ended
  exact ended

end Chip8.World
