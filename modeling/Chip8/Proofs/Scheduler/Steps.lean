import Chip8.Proofs.Scheduler.Fault

/-!
# Runs that step

A run that is held may be asked for single steps. The request is remembered in the state of the
scheduler and nowhere else, and the slice of the poll carries it out. So every step is accepted,
but those that one poll asks for are carried out as one: a run executes as many instructions as
it has polls that step.
-/

set_option autoImplicit false

namespace Chip8

variable {η : Type}

/-- The visit asks for steps alone, and for none if it quits. The flag says whether it has asked
already. No step is refused while a run is held, so what follows a refusal is left open. -/
def Visit.StepsOnly : Visit η → Bool → Prop
  | .leave quit, stepped => quit = true → stepped = false
  | .fail _, _ => False
  | .ask request next, _ => request = .step ∧ (next (.ok .done)).StepsOnly true
  | .consult next, stepped => ∀ world, (next world).StepsOnly stepped
  | .update _ next, stepped => next.StepsOnly stepped

def Host.StepsOnly (host : Host η) : Prop := ∀ frame, (host.poll frame).StepsOnly false

theorem Visit.StepsOnly.watched {visit : Visit η} {stepped : Bool}
    (stepsOnly : visit.StepsOnly stepped) : visit.watched.StepsOnly stepped := by
  induction visit generalizing stepped with
  | leave | fail => exact stepsOnly
  | ask request next ih => exact ⟨stepsOnly.1, ih _ stepsOnly.2⟩
  | consult next ih => exact fun world => ih world.unwatch (stepsOnly world.unwatch)
  | update change next ih => exact ih stepsOnly

/-- For each poll of a run, whether the steps that it asks for are accepted, and the machines that
meet the instructions of the run. Every step is accepted, and each poll that steps executes an
instruction. -/
structure StepLaw (steps : List (List Bool)) (executed : List Machine) : Prop where
  accepted : ∀ poll ∈ steps, ∀ step ∈ poll, step = true
  executed : executed.length = steps.countP (!·.isEmpty)

theorem countP_stepping (steps : List (List Bool)) :
    steps.countP (!·.isEmpty) ≤ steps.flatten.length ∧
      (steps.countP (!·.isEmpty) = steps.flatten.length ↔ ∀ poll ∈ steps, poll.length ≤ 1) := by
  induction steps with
  | nil => simp
  | cons poll rest ih =>
      obtain ⟨atMost, exact_iff⟩ := ih
      rw [List.forall_mem_cons, ← exact_iff, List.flatten_cons, List.length_append]
      cases poll with
      | nil =>
          rw [List.countP_cons_of_neg (by decide), List.length_nil]
          omega
      | cons step others =>
          rw [List.countP_cons_of_pos (by rfl), List.length_cons]
          omega

namespace StepLaw

variable {steps later : List (List Bool)} {executed others : List Machine}

theorem append (law : StepLaw steps executed) (rest : StepLaw later others) :
    StepLaw (steps ++ later) (executed ++ others) where
  accepted := List.forall_mem_append.mpr ⟨law.accepted, rest.accepted⟩
  executed := by rw [List.length_append, List.countP_append, law.executed, rest.executed]

/-- No step is lost if no poll asks for two, and otherwise some are. -/
theorem length_eq_iff (law : StepLaw steps executed) :
    executed.length = steps.flatten.count true ↔ ∀ poll ∈ steps, poll.length ≤ 1 := by
  have accepted : steps.flatten.count true = steps.flatten.length := by
    refine List.count_eq_length.mpr ?_
    intro step member
    obtain ⟨poll, isPoll, isStep⟩ := List.mem_flatten.mp member
    exact (law.accepted poll isPoll step isStep).symm
  rw [law.executed, accepted]
  exact (countP_stepping steps).2

end StepLaw

namespace World

def converseSteps (host : Host η) : Visit η → World η → List Bool
  | .leave _, _ | .fail _, _ => []
  | .ask request next, world =>
      let turn := world.perform host refuseRun request
      (if request = .step then [turn.answer.isOk] else []) ++
        match turn.answer with
        | .ok answer => converseSteps host (next (.ok answer)) turn.world
        | .error (.fault cause) => converseSteps host (next (.error cause)) turn.world
        | .error .exhausted => []
  | .consult next, world => converseSteps host (next world) world
  | .update change next, world =>
      converseSteps host next { world with host := change world.host }

def sliceSteps (host : Host η) (world : World η) : List (List Bool) :=
  match world.poll? host with
  | none => []
  | some asked => [asked.converseSteps host (host.poll asked.scheduler.frame)]

def steps (host : Host η) (paused : Bool) (passes : Nat) (world : World η) : List (List Bool) :=
  (world.begin host paused).world.gather host refuseRun (sliceSteps host) passes

def heldState (stepped : Bool) : RunState := if stepped then .stepping else .paused

/-- How a dialogue goes that only steps, and has perhaps asked for a step before. -/
structure Stepped (stepped : Bool) (steps : List Bool) (turn : Turn η Bool) : Prop where
  accepted : ∀ step ∈ steps, step = true
  answer : ∃ quit, turn.answer = .ok quit ∧ (quit = true → stepped = false ∧ steps = [])
  state : turn.world.scheduler.state = heldState (stepped || !steps.isEmpty)

theorem perform_step_of_held (host : Host η) (run : Bool → World η → Turn η Nat) {world : World η}
    {stepped : Bool} (state : world.scheduler.state = heldState stepped) :
    world.perform host run .step =
      (world.modifyScheduler fun scheduler => { scheduler with state := .stepping }).done := by
  cases stepped with
  | false => simp only [perform, step, state, heldState, Bool.false_eq_true, ↓reduceIte]
  | true => simp only [perform, step, state, heldState, ↓reduceIte]

theorem converse_of_stepsOnly (host : Host η) {visit : Visit η} {stepped : Bool}
    (stepsOnly : visit.StepsOnly stepped) {world : World η}
    (state : world.scheduler.state = heldState stepped) :
    (∀ run, converse host run visit world = converse host refuseRun visit world) ∧
      Stepped stepped (world.converseSteps host visit) (converse host refuseRun visit world) := by
  induction visit generalizing stepped world with
  | leave quit =>
      refine ⟨fun _ => rfl, List.forall_mem_nil _, ⟨quit, rfl, ?_⟩, ?_⟩
      · exact fun quits => ⟨stepsOnly quits, rfl⟩
      · rw [converseSteps, List.isEmpty_nil, Bool.not_true, Bool.or_false]
        exact state
  | fail => exact stepsOnly.elim
  | consult next ih => exact ih world (stepsOnly world) state
  | update change next ih => exact ih stepsOnly state
  | ask request next ih =>
      obtain ⟨rfl, later⟩ := stepsOnly
      have stepping : (world.modifyScheduler fun scheduler =>
        { scheduler with state := .stepping }).scheduler.state = heldState true := rfl
      obtain ⟨same, accepted, ⟨quit, answer, quits⟩, left⟩ := ih (.ok .done) later stepping
      simp only [converse, converseSteps, perform_step_of_held host _ state, done]
      refine ⟨same, ?_, ⟨quit, answer, ?_⟩, ?_⟩
      · exact List.forall_mem_cons.mpr ⟨rfl, accepted⟩
      · -- A dialogue that has asked for a step does not quit.
        exact fun quits' => Bool.noConfusion (quits quits').1
      · exact left.trans (congrArg heldState (Bool.or_true stepped).symm)

theorem state_report (host : Host η) (now : Float) (world : World η) :
    (world.report host now).scheduler.state = world.scheduler.state := by
  unfold report
  split
  · rfl
  · rfl

section

variable (host : Host η) {world : World η}

theorem state_asked {asked : World η} (poll : world.poll? host = some asked) :
    asked.scheduler.state = world.scheduler.state := by
  simp only [poll?] at poll
  split at poll
  case isTrue =>
    cases poll
    exact state_report host _ _
  case isFalse => cases poll

theorem state_polled (run : Bool → World η → Turn η Nat) (poll : world.poll? host = none) :
    (world.polled host run).world.scheduler.state = world.scheduler.state := by
  by_cases stopped : (world.readClock host).2.scheduler.state = .stopped
  · simp only [polled, stopped, ↓reduceIte]
    exact stopped.symm
  · have early : ¬((world.readClock host).2.report host
        (world.readClock host).1).scheduler.nextFrame ≤ (world.readClock host).1 := by
      intro due
      simp only [poll?] at poll
      rw [if_pos ⟨stopped, due⟩] at poll
      cases poll
    simp only [polled, stopped, ↓reduceIte, attend, early]
    exact state_report host _ _

/-- A run that is held, perhaps asked for a step, and has no limits. -/
structure Held (stepped : Bool) (world : World η) : Prop where
  state : world.scheduler.state = heldState stepped
  cycleLimit : world.scheduler.tally.cycleLimit = 0
  idleLimit : world.scheduler.tally.idleLimit = 0

theorem Held.of_tally {stepped asked discard : Bool} {after : World η} (held : world.Held stepped)
    (state : after.scheduler.state = heldState asked)
    (tally : after.scheduler.tally = { world.scheduler.tally with discard := discard }) :
    after.Held asked where
  state := state
  cycleLimit := by
    rw [tally]
    exact held.cycleLimit
  idleLimit := by
    rw [tally]
    exact held.idleLimit

theorem tally_stepOnce (completed : world.machine.cycle.answer = .ok ()) :
    (world.stepOnce host).world.scheduler.tally =
      world.scheduler.tally.next (idled (world.cycled host).machine) := by
  have waited := stepped_waited host (world.cycled host).count
  have counted := tally_count (world.cycled host)
  rw [(cycled_keeps host world).1] at counted
  simp only [stepOnce, execute_eq, completed]
  exact waited.tally.trans counted

/-- A run that is held executes the instruction that it has been asked for, if it has been. -/
theorem Held.move {stepped : Bool} (held : world.Held stepped) (now : Float) :
    ((world.move host now).answer = .ok true ∧ (world.move host now).world.Held false ∧
      (world.move host now).world.scheduler.cycles =
        world.scheduler.cycles + stepped.toNat) ∨
    ∃ cause, (world.move host now).answer = .error (.fault cause) := by
  obtain ⟨state, cycleLimit, idleLimit⟩ := held
  cases stepped with
  | false =>
      have paused : world.scheduler.state = .paused := state
      simp only [World.move, paused]
      exact .inl ⟨trivial, ⟨paused, cycleLimit, idleLimit⟩, rfl⟩
  | true =>
      have stepping : world.scheduler.state = .stepping := state
      simp only [World.move, stepping]
      cases completed : world.machine.cycle.answer with
      | error cause =>
          refine .inr ⟨cause, ?_⟩
          rw [answer_stepOnce, completed]
          rfl
      | ok _ =>
          have tally := tally_stepOnce host completed
          have cycleLimit := (congrArg Tally.cycleLimit tally).trans cycleLimit
          have idleLimit := (congrArg Tally.idleLimit tally).trans idleLimit
          have unlimited : ¬(world.stepOnce host).world.LimitReached := by
            rintro (⟨limited, _⟩ | ⟨limited, _⟩)
            · exact limited idleLimit
            · exact limited cycleLimit
          have left := state_stepOnce host stepping completed
          rw [if_neg unlimited] at left
          refine .inl ⟨?_, ⟨left, cycleLimit, idleLimit⟩, congrArg Tally.cycles tally⟩
          rw [answer_stepOnce, completed]
          rfl

end

def quitsAny (polls : List (Turn η Bool)) : Bool := polls.any fun poll => quitsRun poll.answer

theorem quitsAny_append (polls others : List (Turn η Bool)) :
    quitsAny (polls ++ others) = (quitsAny polls || quitsAny others) :=
  List.any_append

theorem quitsAny_of_shown {polls : List (Turn η Bool)}
    (shown : ∀ poll ∈ polls, poll.answer = .ok false) : quitsAny polls = false := by
  rw [quitsAny, List.any_eq_false]
  intro poll member
  rw [shown poll member]
  exact Bool.false_ne_true

/-- A run that is held goes on behind a slice unless its poll quits. -/
inductive Onward (polls : List (Turn η Bool)) : Turn η Bool → Prop where
  | held {after : World η} : quitsAny polls = false → after.Held false →
      Onward polls ⟨after, .ok true⟩
  | quit {after : World η} : quitsAny polls = true → Onward polls ⟨after, .ok false⟩

theorem Account.cycles_of_completed {α : Type} {before : World (Watched η)}
    {turn : Turn (Watched η) α} {executed : List Machine} {polls : List (Turn (Watched η) Bool)}
    (account : Account before turn executed polls)
    (completed : ∀ machine ∈ executed, machine.cycle.answer = .ok ()) :
    turn.world.scheduler.cycles = before.scheduler.cycles + executed.length := by
  rw [account.cycles, List.countP_eq_length.mpr]
  intro machine member
  rw [Machine.completes, completed machine member]
  rfl

section

variable (host : Host η) {world : World (Watched η)}
  (completed : ∀ machine ∈ world.sliceMet host, machine.cycle.answer = .ok ())

include completed

/-- A slice whose poll does not quit moves on from what the poll has left. -/
theorem slice_of_held {start : World (Watched η)} {stepped : Bool} {now : Float}
    (held : start.Held stepped) (cycles : start.scheduler.cycles = world.scheduler.cycles)
    (moves : world.slice host.watched refuseRun = start.move host.watched now)
    (polls : ∀ poll ∈ world.slicePolls host.watched, poll.answer = .ok false) :
    (world.sliceMet host).length = stepped.toNat ∧
      Onward (world.slicePolls host.watched) (world.slice host.watched refuseRun) := by
  have account := slice_account host world
  have counted := account.cycles_of_completed completed
  have moved := held.move host.watched now
  rw [← moves] at moved
  generalize world.slice host.watched refuseRun = turn at *
  obtain ⟨after, answer⟩ := turn
  rcases moved with ⟨rfl, still, executed⟩ | ⟨cause, rfl⟩
  · rw [counted, cycles, Nat.add_left_cancel_iff] at executed
    exact ⟨executed, .held (quitsAny_of_shown polls) still⟩
  · -- The slice fails in an instruction or in its poll, and neither has failed.
    rcases account.broken _ rfl with ⟨exhausted, _⟩ | broken
    · cases exhausted
    · cases broken.raised with
      | instruction member failed => cases (completed _ member).symm.trans failed
      | inputs member failed => cases (polls _ member).symm.trans failed

theorem slice_of_uncounted {turn : Turn (Watched η) Bool}
    (slice : world.slice host.watched refuseRun = turn)
    (cycles : turn.world.scheduler.cycles = world.scheduler.cycles) :
    (world.sliceMet host).length = 0 := by
  have counted := (slice_account host world).cycles_of_completed completed
  rw [slice, cycles] at counted
  exact Nat.left_eq_add.mp counted

omit completed in
theorem tally_dialogue {asked : World (Watched η)} (poll : world.poll? host.watched = some asked) :
    (asked.dialogue host.watched refuseRun).world.scheduler.tally =
      { world.scheduler.tally with
        discard := (asked.dialogue host.watched refuseRun).world.scheduler.discard } := by
  obtain ⟨_, _, _, tally, _⟩ := poll?_eq_some host.watched poll
  rw [← tally]
  exact (converse_heeds host.watched (host.watched.poll asked.scheduler.frame) asked).tally

variable (stepsOnly : host.StepsOnly) (held : world.Held false)

include stepsOnly held

omit completed in
theorem dialogue_stepped {asked : World (Watched η)}
    (poll : world.poll? host.watched = some asked) :
    (∀ run, asked.dialogue host.watched run = asked.dialogue host.watched refuseRun) ∧
      Stepped false (asked.converseSteps host.watched (host.watched.poll asked.scheduler.frame))
        (asked.dialogue host.watched refuseRun) :=
  converse_of_stepsOnly host.watched (stepsOnly asked.scheduler.frame).watched
    ((state_asked host.watched poll).trans held.state)

omit stepsOnly in
theorem steps_of_unasked (poll : world.poll? host.watched = none) :
    StepLaw (world.sliceSteps host.watched) (world.sliceMet host) ∧
      Onward (world.slicePolls host.watched) (world.slice host.watched refuseRun) := by
  obtain ⟨start, waited, polled⟩ := polled_of_none host.watched poll
  have state := state_polled host.watched refuseRun poll
  rw [polled] at state
  have still : start.Held false := held.of_tally (state.trans held.state) waited.tally
  have moves : world.slice host.watched refuseRun =
      start.move host.watched (world.readClock host.watched).1 := by
    rw [slice_eq, polled]
  have polls : world.slicePolls host.watched = [] := by
    rw [slicePolls, poll]
  have steps : world.sliceSteps host.watched = [] := by
    rw [sliceSteps, poll]
  obtain ⟨met, onward⟩ := slice_of_held host completed still
    (congrArg Tally.cycles waited.tally) moves (polls ▸ List.forall_mem_nil _)
  rw [steps]
  exact ⟨⟨List.forall_mem_nil _, met⟩, onward⟩

theorem steps_of_asked {asked : World (Watched η)} (poll : world.poll? host.watched = some asked) :
    StepLaw (world.sliceSteps host.watched) (world.sliceMet host) ∧
      Onward (world.slicePolls host.watched) (world.slice host.watched refuseRun) := by
  obtain ⟨_, accepted, ⟨quit, answer, quits⟩, state⟩ := dialogue_stepped host stepsOnly held poll
  have kept := tally_dialogue host poll
  have polls : world.slicePolls host.watched = [asked.dialogue host.watched refuseRun] := by
    rw [slicePolls, poll]
  have steps : world.sliceSteps host.watched =
      [asked.converseSteps host.watched (host.watched.poll asked.scheduler.frame)] := by
    rw [sliceSteps, poll]
  have polled := polled_of_some host.watched refuseRun poll
  rw [polls, steps]
  generalize asked.converseSteps host.watched _ = requests at *
  generalize asked.dialogue host.watched refuseRun = turn at *
  cases quit with
  | false =>
      obtain ⟨refreshed, _, same⟩ := refresh_keeps host.watched
        (turn.world.modifyScheduler fun scheduler =>
          { scheduler with frame := scheduler.frame + 1 })
      have stepping : (turn.world.shown host.watched).Held !requests.isEmpty :=
        held.of_tally (same.trans state) (refreshed.trans kept)
      have moves : world.slice host.watched refuseRun = (turn.world.shown host.watched).move
          host.watched (world.readClock host.watched).1 := by
        rw [slice_eq, polled, heed, answer]
      have shown : ∀ poll ∈ world.slicePolls host.watched, poll.answer = .ok false := by
        rw [polls]
        exact List.forall_mem_singleton.mpr answer
      obtain ⟨met, onward⟩ := slice_of_held host completed stepping
        (congrArg Tally.cycles (refreshed.trans kept)) moves shown
      rw [polls] at onward
      refine ⟨⟨List.forall_mem_singleton.mpr accepted, ?_⟩, onward⟩
      rw [met, List.countP_singleton]
      cases requests.isEmpty with
      | false => rfl
      | true => rfl
  | true =>
      -- A poll that quits has asked for nothing, and nothing is executed behind it.
      obtain ⟨_, rfl⟩ := quits rfl
      have ended : world.slice host.watched refuseRun = ⟨turn.world.stop, .ok false⟩ := by
        rw [slice_eq, polled, heed, answer]
        exact move_of_stopped host.watched _ rfl
      have met := slice_of_uncounted host completed ended (congrArg Tally.cycles kept)
      have quit : quitsAny [turn] = true := by
        simp only [quitsAny, List.any_cons, answer, quitsRun, Bool.true_or]
      rw [ended]
      exact ⟨⟨List.forall_mem_singleton.mpr accepted, met⟩, .quit quit⟩

theorem slice_steps :
    (∀ run, world.slice host.watched run = world.slice host.watched refuseRun) ∧
      StepLaw (world.sliceSteps host.watched) (world.sliceMet host) ∧
      Onward (world.slicePolls host.watched) (world.slice host.watched refuseRun) := by
  constructor
  · intro run
    exact slice_of_dialogue host.watched run
      fun asked poll => (dialogue_stepped host stepsOnly held poll).1 run
  · cases poll : world.poll? host.watched with
    | none => exact steps_of_unasked host completed held poll
    | some asked => exact steps_of_asked host completed stepsOnly held poll

end

theorem loop_steps (host : Host η) (stepsOnly : host.StepsOnly) (passes : Nat)
    {world : World (Watched η)} (held : world.Held false)
    (completed : ∀ machine ∈ world.loopMet host passes, machine.cycle.answer = .ok ()) :
    (∀ run, world.loop host.watched run passes = world.loop host.watched refuseRun passes) ∧
      StepLaw (world.gather host.watched refuseRun (sliceSteps host.watched) passes)
        (world.loopMet host passes) ∧
      (world.loop host.watched refuseRun passes).answer =
        if quitsAny (world.gather host.watched refuseRun (slicePolls host.watched) passes) then
          .ok ()
        else .error .exhausted := by
  induction passes generalizing world with
  | zero => exact ⟨fun _ => rfl, ⟨List.forall_mem_nil _, rfl⟩, rfl⟩
  | succ passes ih =>
      rw [loopMet, List.forall_mem_append] at completed
      obtain ⟨first, later⟩ := completed
      obtain ⟨same, law, onward⟩ := slice_steps host first stepsOnly held
      simp only [loop, gather, loopMet, same, quitsAny_append]
      generalize world.slice host.watched refuseRun = turn at *
      cases onward with
      | quit quits =>
          simp only [quits, List.append_nil, Bool.true_or, ↓reduceIte]
          exact ⟨fun _ => trivial, law, trivial⟩
      | held shown still =>
          obtain ⟨alone, rest, answer⟩ := ih still later
          simp only [shown, Bool.false_or]
          exact ⟨alone, law.append rest, answer⟩

/-- A run that is held from its beginning, whose polls only step and whose instructions complete,
accepts every step and executes an instruction for each poll that steps, however often it does.
It ends when a poll quits. -/
theorem steps_of_run (host : Host η) (stepsOnly : host.StepsOnly) (passes : Nat)
    {world : World (Watched η)} (stopped : world.scheduler.state = .stopped)
    (cycleLimit : world.scheduler.cycleLimit = 0) (idleLimit : world.scheduler.idleLimit = 0)
    (completed : ∀ machine ∈ world.executed host true passes, machine.cycle.answer = .ok ()) :
    let steps := world.steps host.watched true passes
    let executed := world.executed host true passes
    let final := World.run host.watched (passes + 1) true world
    StepLaw steps executed ∧
      (executed.length = steps.flatten.count true ↔ ∀ poll ∈ steps, poll.length ≤ 1) ∧
      final.answer =
        (if quitsAny (world.polls host.watched true passes) then .ok executed.length
        else .error .exhausted) ∧
      final.unwatch = World.run host (passes + 1) true world.unwatch := by
  intro steps executed final
  obtain ⟨_, begun⟩ := begin_begun host.watched true stopped
  have paused : (world.begin host.watched true).world.scheduler.state = .paused := by
    simp only [begin, if_pos stopped]
    rfl
  have held : (world.begin host.watched true).world.Held false := by
    refine ⟨paused, ?_, ?_⟩
    · rw [begun.tally]
      exact cycleLimit
    · rw [begun.tally]
      exact idleLimit
  obtain ⟨alone, law, answer⟩ := loop_steps host stepsOnly passes held completed
  have counted := (loop_account host passes _).cycles_of_completed completed
  have fresh : (world.begin host.watched true).world.scheduler.cycles = 0 :=
    congrArg Tally.cycles begun.tally
  have run : final = finish host.watched
      ((world.begin host.watched true).world.loop host.watched refuseRun passes) := by
    rw [← alone]
    exact run_of_stopped host.watched passes true stopped
  refine ⟨law, law.length_eq_iff, ?_, unwatch_run host (passes + 1) true world⟩
  rw [run]
  generalize World.loop host.watched refuseRun passes _ = turn at *
  obtain ⟨ended, answered⟩ := turn
  cases quits : quitsAny (world.polls host.watched true passes) with
  | false =>
      have same : answered = .error .exhausted := answer.trans (if_neg (ne_true_of_eq_false quits))
      rw [same]
      rfl
  | true =>
      have same : answered = .ok () := answer.trans (if_pos quits)
      have refreshed := congrArg Tally.cycles (refresh_keeps host.watched ended).1
      have cycles : (ended.refresh host.watched).scheduler.cycles = executed.length :=
        refreshed.trans (counted.trans (by rw [fresh, Nat.zero_add]; rfl))
      rw [same, finish, if_pos rfl]
      simp only [scheduler_discardRun, cycles]

/-- A host whose clock shows how often it was read. Its first poll steps twice, its second once, and
its third quits. -/
def nudger : Host Nat where
  readClock := fun reads => (Float.ofNat reads, reads + 1)
  wait := fun _ reads => reads
  receive := fun _ reads => reads
  poll := fun frame =>
    if frame = 0 then .ask .step fun _ => .ask .step fun _ => .leave false
    else if frame = 1 then .ask .step fun _ => .leave false
    else .leave true

theorem nudger_stepsOnly : nudger.StepsOnly := by
  intro frame
  simp only [nudger]
  split
  · exact ⟨rfl, rfl, Bool.noConfusion⟩
  · split
    · exact ⟨rfl, Bool.noConfusion⟩
    · exact fun _ => rfl

def adder : Machine :=
  (Machine.assemble .plain (.scripted [] 0) false).1.after [.loadRom [0x70, 0x01, 0x12, 0x00]]

theorem steps_of_run_nudger :
    (World.run nudger.watched 6 true (visited adder)).answer = .ok 2 ∧
      ((visited adder).executed nudger true 5).length ≠
        ((visited adder).steps nudger.watched true 5).flatten.count true := by
  have stopped (machine : Machine) : (visited machine).scheduler.state = .stopped := rfl
  obtain ⟨completed, length, quits, twice⟩ :
      (∀ machine ∈ (visited adder).executed nudger true 5,
        machine.cycle.answer.toOption = some ()) ∧
      ((visited adder).executed nudger true 5).length = 2 ∧
      quitsAny ((visited adder).polls nudger.watched true 5) = true ∧
      ¬∀ poll ∈ (visited adder).steps nudger.watched true 5, poll.length ≤ 1 := by
    decide +kernel
  obtain ⟨_, exact_iff, answer, _⟩ := steps_of_run nudger nudger_stepsOnly 5 (stopped adder) rfl rfl
    fun machine member => answer_eq_ok (completed machine member)
  rw [if_pos quits, length] at answer
  exact ⟨answer, mt exact_iff.mp twice⟩

/-- Two steps that one poll asks for are both accepted, and one instruction is executed. -/
theorem not_every_step :
    nudger.StepsOnly ∧
      (World.run nudger.watched 6 true (visited adder)).answer = .ok 2 ∧
      (visited adder).steps nudger.watched true 5 = [[true, true], [true], []] ∧
      ((visited adder).executed nudger true 5).length ≠
        ((visited adder).steps nudger.watched true 5).flatten.count true := by
  have answer : (World.run nudger.watched 6 true (visited adder)).answer = .ok 2 :=
    answer_eq_ok (by decide +kernel)
  refine ⟨nudger_stepsOnly, answer, by decide +kernel, by decide +kernel⟩

end World

end Chip8
