import Chip8.Proofs.Scheduler.Frames
import Chip8.Proofs.Scheduler.Halt

/-!
# Runs that fail

A run fails when an instruction fails or the dialogue of a poll does. It ends
there with the same fault, stopped, and leaves everything as the failure left
it, whatever was asked for before.
-/

set_option autoImplicit false

namespace Chip8

variable {η : Type}

namespace World

/-- No instruction has failed and no poll. -/
structure Calm (executed : List Machine) (polls : List (Turn (Watched η) Bool)) : Prop where
  executed : ∀ machine ∈ executed, machine.cycle.answer = .ok ()
  polls : ∀ poll ∈ polls, ∃ quit, poll.answer = .ok quit

/-- The last instruction or the last poll has failed, and nothing has happened since. -/
inductive Broken (executed : List Machine) (polls : List (Turn (Watched η) Bool))
    (after : World (Watched η)) : Halt → Prop where
  | instruction {completed : List Machine} {last : Machine} {cause : Fault}
      {earlier : List Activity} : executed = completed ++ [last] → Calm completed polls →
      last.cycle.answer = .error cause → after.machine = last.cycle.state →
      after.told = earlier ++ .cycle :: last.cycle.signals.map .signal →
      Broken executed polls after (.fault cause)
  | inputs {calm : List (Turn (Watched η) Bool)} {poll : Turn (Watched η) Bool} {halt : Halt} :
      polls = calm ++ [poll] → Calm executed calm → poll.answer = .error halt →
      after = poll.world → Broken executed polls after halt

/-- An instruction or a poll has failed with this fault. -/
inductive Raised (executed : List Machine) (polls : List (Turn (Watched η) Bool))
    (cause : Fault) : Prop where
  | instruction {machine : Machine} : machine ∈ executed →
      machine.cycle.answer = .error cause → Raised executed polls cause
  | inputs {poll : Turn (Watched η) Bool} : poll ∈ polls →
      poll.answer = .error (.fault cause) → Raised executed polls cause

section

variable {executed later : List Machine} {polls others : List (Turn (Watched η) Bool)}
  {after : World (Watched η)} {halt : Halt} {cause : Fault}

theorem Calm.append (calm : Calm executed polls) (rest : Calm later others) :
    Calm (executed ++ later) (polls ++ others) where
  executed := List.forall_mem_append.mpr ⟨calm.executed, rest.executed⟩
  polls := List.forall_mem_append.mpr ⟨calm.polls, rest.polls⟩

theorem Calm.not_raised (calm : Calm executed polls) : ¬Raised executed polls cause := by
  intro raised
  cases raised with
  | instruction member failed => cases (calm.executed _ member).symm.trans failed
  | inputs member failed =>
      obtain ⟨quit, answer⟩ := calm.polls _ member
      cases answer.symm.trans failed

theorem Broken.prepend (calm : Calm executed polls) (broken : Broken later others after halt) :
    Broken (executed ++ later) (polls ++ others) after halt := by
  cases broken with
  | instruction last rest failed machine told =>
      rw [last, ← List.append_assoc]
      exact .instruction rfl (calm.append rest) failed machine told
  | inputs last rest failed world =>
      rw [last, ← List.append_assoc]
      exact .inputs rfl (calm.append rest) failed world

theorem Broken.raised (broken : Broken executed polls after (.fault cause)) :
    Raised executed polls cause := by
  cases broken with
  | instruction last _ failed =>
      rw [last]
      exact .instruction List.mem_concat_self failed
  | inputs last _ failed =>
      rw [last]
      exact .inputs List.mem_concat_self failed

/-- Nothing else fails in a run that is broken. -/
theorem Broken.halt_eq (broken : Broken executed polls after halt)
    (raised : Raised executed polls cause) : halt = .fault cause := by
  cases broken with
  | instruction last calm failed =>
      subst last
      cases raised with
      | instruction member other =>
          rcases List.mem_append.mp member with earlier | isLast
          · cases (calm.executed _ earlier).symm.trans other
          · cases List.mem_singleton.mp isLast
            cases failed.symm.trans other
            rfl
      | inputs member other =>
          obtain ⟨quit, answer⟩ := calm.polls _ member
          cases answer.symm.trans other
  | inputs last calm failed =>
      subst last
      cases raised with
      | instruction member other => cases (calm.executed _ member).symm.trans other
      | inputs member other =>
          rcases List.mem_append.mp member with earlier | isLast
          · obtain ⟨quit, answer⟩ := calm.polls _ earlier
            cases answer.symm.trans other
          · cases List.mem_singleton.mp isLast
            cases failed.symm.trans other
            rfl

end

/-- How a part of a run has ended, as far as its instructions and polls are concerned. -/
structure Account {α : Type} (before : World (Watched η)) (turn : Turn (Watched η) α)
    (executed : List Machine) (polls : List (Turn (Watched η) Bool)) : Prop where
  cycles : turn.world.scheduler.cycles =
    before.scheduler.cycles + executed.countP Machine.completes
  calm : ∀ value, turn.answer = .ok value → Calm executed polls
  broken : ∀ halt, turn.answer = .error halt →
    (halt = .exhausted ∧ Calm executed polls) ∨ Broken executed polls turn.world halt

theorem Account.of_cycles {α : Type} {before start : World (Watched η)} {turn : Turn (Watched η) α}
    {executed : List Machine} {polls : List (Turn (Watched η) Bool)}
    (account : Account start turn executed polls)
    (cycles : start.scheduler.cycles = before.scheduler.cycles) :
    Account before turn executed polls where
  cycles := by rw [account.cycles, cycles]
  calm := account.calm
  broken := account.broken

theorem met_behind {world start after : World (Watched η)} {before work : List Activity}
    (told : start.told = world.told ++ before) (still : ∀ activity ∈ before, activity.IsStill)
    (worked : Worked start after work) :
    start.machine.met (after.told.drop world.told.length) = start.machine.met work := by
  rw [worked.told, told, List.append_assoc, List.drop_left, Machine.met_append,
    Machine.met_of_still still, start.machine.carryOut_of_still still, List.nil_append]

section

variable (host : Host η)

theorem Movement.account {world : World (Watched η)} {turn : Turn (Watched η) Bool}
    {work : List Activity} {polls : List (Turn (Watched η) Bool)}
    (movement : Movement world turn work) (answered : ∀ poll ∈ polls, poll.answer = .ok false) :
    Account world turn (world.machine.met work) polls := by
  have calm : ∀ poll ∈ polls, ∃ quit, poll.answer = .ok quit :=
    fun poll member => ⟨false, answered poll member⟩
  refine ⟨movement.cycles, ?_, ?_⟩
  · intro more answer
    exact ⟨movement.completed more answer, calm⟩
  · intro halt answer
    obtain ⟨cause, last, earlier, rfl, met, failed, machine, told⟩ := movement.failed halt answer
    refine .inr (.instruction ?_ ⟨List.forall_mem_nil _, calm⟩ failed machine told)
    exact met

theorem dialogue_still {world asked : World (Watched η)}
    (poll : world.poll? host.watched = some asked) :
    ∃ before, (asked.dialogue host.watched refuseRun).world.told = world.told ++ before ∧
      (∀ activity ∈ before, activity.IsStill) ∧
      (asked.dialogue host.watched refuseRun).world.scheduler.cycles = world.scheduler.cycles := by
  obtain ⟨rates, talk, told, _, ratesTalk, isTalk, _⟩ := dialogue_told host poll
  obtain ⟨_, _, _, tally, _⟩ := poll?_eq_some host.watched poll
  have heeds := converse_heeds host.watched (host.poll asked.scheduler.frame).watched asked
  refine ⟨_, told, ?_, ?_⟩
  · rw [List.forall_mem_append, List.forall_mem_cons]
    exact ⟨fun activity member => (ratesTalk activity member).isStill, True.intro,
      fun activity member => (isTalk activity member).isStill⟩
  · have asks := congrArg Tally.cycles tally
    have kept := congrArg Tally.cycles heeds.tally
    exact kept.trans asks

theorem slice_account (world : World (Watched η)) :
    Account world (world.slice host.watched refuseRun) (world.sliceMet host)
      (world.slicePolls host.watched) := by
  have sliced := slice_sliced host.watched refuseRun world
  unfold sliceMet
  generalize world.slice host.watched refuseRun = turn at *
  cases sliced with
  | @unasked after _ poll waited moved =>
      obtain ⟨rates, rested, _, isTalk⟩ := waited.worked
      obtain ⟨work, movement⟩ := moved.movement
      obtain ⟨seen, seenWaited, polled⟩ := polled_of_none host.watched poll
      have same : (world.polled host.watched refuseRun).world.machine = after.machine := by
        rw [polled refuseRun, waited.machine]
        exact seenWaited.machine
      have met := met_behind rested.told (fun activity member => (isTalk activity member).isStill)
        movement.worked
      have cycles := congrArg Tally.cycles waited.tally
      have account := movement.account (List.forall_mem_nil _)
      rw [same, met, slicePolls, poll]
      exact account.of_cycles cycles
  | @shown asked _ poll answer moved =>
      obtain ⟨before, told, still, cycles⟩ := dialogue_still host poll
      obtain ⟨work, movement⟩ := moved.movement
      have polled : (world.polled host.watched refuseRun).world =
          (asked.dialogue host.watched refuseRun).world.shown host.watched := by
        rw [polled_of_some host.watched refuseRun poll]
        simp only [heed, answer]
      have shown := told_shown host (asked.dialogue host.watched refuseRun).world
      rw [told, List.append_assoc] at shown
      have met := met_behind shown
        (List.forall_mem_append.mpr ⟨still, List.forall_mem_singleton.mpr True.intro⟩)
        movement.worked
      have account := movement.account (List.forall_mem_singleton.mpr answer)
      rw [polled, met, slicePolls, poll]
      refine account.of_cycles (Eq.trans ?_ cycles)
      exact congrArg Tally.cycles (refresh_keeps host.watched _).1
  | @quit asked poll answer =>
      obtain ⟨before, told, still, cycles⟩ := dialogue_still host poll
      have polled : (world.polled host.watched refuseRun).world =
          (asked.dialogue host.watched refuseRun).world.stop := by
        rw [polled_of_some host.watched refuseRun poll]
        simp only [heed, answer]
      have stopped : (asked.dialogue host.watched refuseRun).world.stop.told =
          world.told ++ before := told
      have met := met_behind stopped still (.refl _)
      rw [polled, met, slicePolls, poll]
      constructor
      · exact cycles
      · intro _ _
        exact ⟨List.forall_mem_nil _, List.forall_mem_singleton.mpr ⟨true, answer⟩⟩
      · intro halt failed
        cases failed
  | @failed asked cause poll answer =>
      obtain ⟨before, told, still, cycles⟩ := dialogue_still host poll
      have polled : (world.polled host.watched refuseRun).world =
          (asked.dialogue host.watched refuseRun).world := by
        rw [polled_of_some host.watched refuseRun poll]
        simp only [heed, answer]
      have met := met_behind told still (.refl _)
      rw [polled, met, slicePolls, poll]
      constructor
      · exact cycles
      · intro value ended
        cases ended
      · intro halt failed
        cases failed
        exact .inr (.inputs rfl ⟨List.forall_mem_nil _, List.forall_mem_nil _⟩ answer rfl)

theorem loop_account (passes : Nat) (world : World (Watched η)) :
    Account world (world.loop host.watched refuseRun passes) (world.loopMet host passes)
      (world.gather host.watched refuseRun (slicePolls host.watched) passes) := by
  induction passes generalizing world with
  | zero =>
      have calm : Calm (world.loopMet host 0)
          (world.gather host.watched refuseRun (slicePolls host.watched) 0) :=
        ⟨List.forall_mem_nil _, List.forall_mem_nil _⟩
      constructor
      · rfl
      · intro value ended
        cases ended
      · intro halt exhausted
        cases exhausted
        exact .inl ⟨rfl, calm⟩
  | succ passes ih =>
      have first := slice_account host world
      simp only [gather, loop, loopMet]
      generalize world.slice host.watched refuseRun = turn at *
      obtain ⟨after, answer⟩ := turn
      cases answer with
      | error halt =>
          simp only [List.append_nil]
          constructor
          · exact first.cycles
          · intro value ended
            cases ended
          · intro other failed
            cases failed
            exact first.broken halt rfl
      | ok more =>
          have calm := first.calm more rfl
          cases more with
          | false =>
              simp only [List.append_nil]
              constructor
              · exact first.cycles
              · intro value ended
                exact calm
              · intro halt failed
                cases failed
          | true =>
              -- Only a slice that has failed nowhere lets the loop go on.
              have rest := ih after
              refine ⟨?_, ?_, ?_⟩
              · rw [rest.cycles, first.cycles, List.countP_append, Nat.add_assoc]
              · intro value answer
                exact calm.append (rest.calm value answer)
              · intro halt answer
                rcases rest.broken halt answer with ⟨exhausted, later⟩ | broken
                · exact .inl ⟨exhausted, calm.append later⟩
                · exact .inr (broken.prepend calm)

end

/-- What a fault leaves behind. The world is as the failure left it but for the state of the
scheduler, which takes no request but for another run. -/
structure FaultLaw (host : Host η) (executed : List Machine)
    (polls : List (Turn (Watched η) Bool)) (cause : Fault) (final : Turn (Watched η) Nat) :
    Prop where
  answer : final.answer = .error (.fault cause)
  stopped : final.world.scheduler.state = .stopped
  cycles : final.world.scheduler.cycles = executed.countP Machine.completes
  left : ∃ failed, Broken executed polls failed (.fault cause) ∧ final.world = failed.halt
  pause : (final.world.pause host.watched).answer = .error (.fault .pausedWhileStopped)
  resume : (final.world.resume host.watched).answer = .error (.fault .resumedWhileStopped)
  step : final.world.step.answer = .error (.fault .steppedWhileNotPaused)
  again : ∀ paused, (final.world.begin host.watched paused).answer = .ok ()

theorem run_account (host : Host η) (passes : Nat) (paused : Bool) {world : World (Watched η)}
    (stopped : world.scheduler.state = .stopped)
    (alone : Alone host.watched (passes + 1) paused world) :
    ∃ begun turn, begun.scheduler.cycles = 0 ∧
      Account begun turn (world.executed host paused passes)
        (world.polls host.watched paused passes) ∧
      World.run host.watched (passes + 1) paused world = finish host.watched turn := by
  obtain ⟨_, begun⟩ := begin_begun host.watched paused stopped
  refine ⟨(world.begin host.watched paused).world, _, congrArg Tally.cycles begun.tally, ?_,
    alone.run_eq stopped⟩
  exact loop_account host passes (world.begin host.watched paused).world

/-- A run raises the faults of its instructions and polls and no other. -/
theorem raised_of_run (host : Host η) (passes : Nat) (paused : Bool) {world : World (Watched η)}
    {cause : Fault} (stopped : world.scheduler.state = .stopped)
    (alone : Alone host.watched (passes + 1) paused world)
    (failed : (World.run host.watched (passes + 1) paused world).answer =
      .error (.fault cause)) :
    Raised (world.executed host paused passes) (world.polls host.watched paused passes) cause := by
  obtain ⟨_, ⟨after, answer⟩, _, account, run⟩ := run_account host passes paused stopped alone
  rw [run] at failed
  cases answer with
  | ok value => cases failed
  | error halt =>
      cases halt with
      | exhausted => cases failed
      | fault other =>
          cases failed
          rcases account.broken _ rfl with ⟨exhausted, _⟩ | broken
          · cases exhausted
          · exact broken.raised

/-- A run in which an instruction or a poll fails ends there, with the same fault. -/
theorem fault_of_run (host : Host η) (passes : Nat) (paused : Bool) {world : World (Watched η)}
    {cause : Fault} (stopped : world.scheduler.state = .stopped)
    (alone : Alone host.watched (passes + 1) paused world)
    (raised : Raised (world.executed host paused passes)
      (world.polls host.watched paused passes) cause) :
    let final := World.run host.watched (passes + 1) paused world
    FaultLaw host (world.executed host paused passes) (world.polls host.watched paused passes)
        cause final ∧
      final.unwatch = World.run host (passes + 1) paused world.unwatch := by
  intro final
  refine ⟨?_, unwatch_run host (passes + 1) paused world⟩
  obtain ⟨_, ⟨failed, answer⟩, fresh, account, run⟩ := run_account host passes paused stopped alone
  have same : final = finish host.watched ⟨failed, answer⟩ := run
  rw [same]
  cases answer with
  | ok value => exact absurd raised (account.calm value rfl).not_raised
  | error halt =>
      rcases account.broken halt rfl with ⟨_, calm⟩ | broken
      · exact absurd raised calm.not_raised
      · cases broken.halt_eq raised
        have halted : (finish host.watched ⟨failed, .error (.fault cause)⟩).world.scheduler.state =
            .stopped := rfl
        have counted : failed.scheduler.cycles =
            (world.executed host paused passes).countP Machine.completes := by
          rw [account.cycles, fresh, Nat.zero_add]
        exact {
          answer := rfl
          stopped := halted
          cycles := counted
          left := ⟨failed, broken, rfl⟩
          pause := rfl
          resume := rfl
          step := rfl
          again := fun paused => (begin_begun host.watched paused halted).1 }

def halt? {α : Type} (turn : Turn η α) : Option Halt :=
  match turn.answer with
  | .ok _ => none
  | .error halt => some halt

theorem answer_of_halt {α : Type} {turn : Turn η α} {halt : Halt}
    (halted : halt? turn = some halt) : turn.answer = .error halt := by
  obtain ⟨world, answer⟩ := turn
  cases answer with
  | ok value => cases halted
  | error other =>
      cases halted
      rfl

/-- A host whose clock shows how often it was read. Its second poll stops the run, and then fails
over a key that there is not. -/
def bungler : Host Nat where
  readClock := fun reads => (Float.ofNat reads, reads + 1)
  wait := fun _ reads => reads
  receive := fun _ reads => reads
  poll := fun frame =>
    if frame = 1 then
      .ask .stop fun _ => .ask (.setKey 16 true) fun
        | .error cause => .fail cause
        | .ok _ => .leave false
    else .leave false

theorem fault_of_run_bungler :
    (World.run bungler.watched 6 false (visited loader)).answer =
        .error (.fault (.noSuchKey 16)) ∧
      (World.run bungler.watched 6 false (visited loader)).world.scheduler.cycles = 1 ∧
      (World.run bungler.watched 6 false (visited loader)).world.scheduler.state = .stopped := by
  have stopped (machine : Machine) : (visited machine).scheduler.state = .stopped := rfl
  have alone : Alone bungler.watched (5 + 1) false (visited loader) := by decide +kernel
  obtain ⟨poll, member, halted⟩ : ∃ poll ∈ (visited loader).polls bungler.watched false 5,
      halt? poll = some (.fault (.noSuchKey 16)) := by decide +kernel
  have completed : ((visited loader).executed bungler false 5).countP Machine.completes = 1 := by
    decide +kernel
  have law := (fault_of_run bungler 5 false (stopped loader) alone
    (.inputs member (answer_of_halt halted))).1
  have cycles := law.cycles.trans completed
  simp only [Nat.reduceAdd] at law cycles
  exact ⟨law.answer, cycles, law.stopped⟩

end World

end Chip8
