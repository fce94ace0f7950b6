import Chip8.Proofs.Machine.Stuck
import Chip8.Proofs.Scheduler.Parts

/-!
# Runs that end idle

A run that is limited to some instructions in a row that idle takes so many of
them for a machine that will not go on. If there are more of them than calls
fit on the stack, it is right: the machine jumps to itself, and will do so
whatever timers count and keys change.
-/

set_option autoImplicit false

namespace Chip8.World

open Machine

variable {η : Type}

/-- The machine bears out the count of idle instructions, and was not told to reset by the time
that the count has come to its limit. -/
structure Patient (world : World η) : Prop where
  reachable : world.machine.Reachable
  deep : callDepth < world.scheduler.idleLimit
  hasIdled : world.machine.HasIdled world.scheduler.idleCycles
  live : world.scheduler.state ≠ .stopped →
    world.scheduler.discard = false ∧
      world.scheduler.idleCycles < world.scheduler.idleLimit
  ended : world.scheduler.idleLimit ≤ world.scheduler.idleCycles →
    world.scheduler.discard = false ∧ world.machine.Stuck

theorem countTimers_unmoved (host : Host η) (now : Float) (world : World η) :
    Unmoved world.machine (world.countTimers host now).machine := by
  rw [countTimers_eq]
  exact ⟨rfl, rfl, rfl, rfl, rfl, rfl⟩

theorem count_idle (world : World η) (limited : world.scheduler.idleLimit ≠ 0) :
    world.count.scheduler.idleLimit = world.scheduler.idleLimit ∧
      world.count.scheduler.idleCycles =
        (if idled world.machine then world.scheduler.idleCycles + 1 else 0) ∧
      world.count.scheduler.discard = world.scheduler.discard ∧
      (world.count.scheduler.state ≠ .stopped → idled world.machine = true →
        world.count.scheduler.idleCycles < world.count.scheduler.idleLimit) := by
  have tally := tally_count world
  have state := state_count world
  have unlimited : world.scheduler.tally.idleLimit ≠ 0 := limited
  simp only [Tally.next, if_neg unlimited] at tally
  have idleLimit : world.count.scheduler.idleLimit = world.scheduler.idleLimit :=
    congrArg Tally.idleLimit tally
  refine ⟨idleLimit, congrArg Tally.idleCycles tally, congrArg Tally.discard tally, ?_⟩
  intro live idles
  refine Int.not_le.mp ?_
  intro enough
  have reached : world.count.LimitReached := .inl ⟨by rw [idleLimit]; exact limited, idles, enough⟩
  rw [if_pos reached] at state
  exact live state

namespace Patient

variable {host : Host η} {before after : World η} (patient : Patient before)

include patient

theorem of_below (below : before.scheduler.idleCycles < before.scheduler.idleLimit)
    (reachable : after.machine.Reachable)
    (memory : after.machine.memory = before.machine.memory)
    (stack : after.machine.stack = before.machine.stack)
    (counter : after.machine.processor.counter = before.machine.processor.counter)
    (tally : after.scheduler.tally =
      { before.scheduler.tally with discard := after.scheduler.discard })
    (stays : after.scheduler.state ≠ .stopped → after.scheduler.discard = false) :
    Patient after := by
  have idleLimit : after.scheduler.idleLimit = before.scheduler.idleLimit :=
    congrArg Tally.idleLimit tally
  have idleCycles : after.scheduler.idleCycles = before.scheduler.idleCycles :=
    congrArg Tally.idleCycles tally
  constructor
  · exact reachable
  · rw [idleLimit]
    exact patient.deep
  · rw [idleCycles]
    exact patient.hasIdled.of_same memory stack counter
  · intro still
    rw [idleLimit, idleCycles]
    exact ⟨stays still, below⟩
  · intro enough
    rw [idleLimit, idleCycles] at enough
    exact absurd enough (Int.not_le.mpr below)

theorem of_screen (screen : Screen) (reachable : after.machine.Reachable)
    (machine : after.machine = { before.machine with screen := screen })
    (tally : after.scheduler.tally = before.scheduler.tally)
    (stopped : after.scheduler.state = .stopped ↔ before.scheduler.state = .stopped) :
    Patient after := by
  have idleLimit : after.scheduler.idleLimit = before.scheduler.idleLimit :=
    congrArg Tally.idleLimit tally
  have idleCycles : after.scheduler.idleCycles = before.scheduler.idleCycles :=
    congrArg Tally.idleCycles tally
  have discard : after.scheduler.discard = before.scheduler.discard :=
    congrArg Tally.discard tally
  constructor
  · exact reachable
  · rw [idleLimit]
    exact patient.deep
  · rw [idleCycles, machine]
    exact patient.hasIdled.of_same rfl rfl rfl
  · intro live
    rw [idleLimit, idleCycles, discard]
    exact patient.live (mt stopped.mpr live)
  · intro enough
    rw [idleLimit, idleCycles] at enough
    rw [discard, machine]
    obtain ⟨kept, stuck⟩ := patient.ended enough
    exact ⟨kept, stuck.of_same rfl rfl rfl rfl⟩

theorem waited (waited : Waited host before after) : Patient after := by
  refine patient.of_screen before.machine.screen ?_ waited.machine waited.tally waited.stopped
  rw [waited.machine]
  exact patient.reachable

theorem refresh : Patient (before.refresh host) := by
  obtain ⟨tally, _, state⟩ := refresh_keeps host before
  obtain ⟨_, _, machine⟩ := refresh_eq host before
  refine patient.of_screen _ ?_ machine tally (by rw [state])
  rw [machine]
  exact patient.reachable.refreshed

theorem due (due : before.Due host after) : Patient after := by
  cases due with
  | untimed => exact patient
  | timed now live =>
      obtain ⟨_, scheduler⟩ := scheduler_countTimers host now before
      have unmoved := countTimers_unmoved host now before
      have reachable := host.invariant_reachable.countTimers now patient.reachable
      refine patient.of_below (patient.live live).2 reachable unmoved.memory unmoved.stack
        unmoved.counter ?_ ?_
      · rw [scheduler]
        rfl
      · intro _
        rw [scheduler]
        exact (patient.live live).1

/-- The instruction that brings the count to the limit leaves a machine that is stuck. -/
theorem executed (live : before.scheduler.state ≠ .stopped)
    (completed : before.machine.cycle.answer = .ok ()) :
    Patient (before.cycled host).count := by
  obtain ⟨scheduler, machine⟩ := cycled_keeps host before
  have deep := patient.deep
  have positive : (0 : Int) < before.scheduler.idleLimit := Int.lt_of_le_of_lt (by decide) deep
  have counted := count_idle (before.cycled host) (by
    rw [scheduler]
    exact Int.ne_of_gt positive)
  have sameMachine : (before.cycled host).count.machine = before.machine.cycle.state := machine
  rw [scheduler, machine] at counted
  obtain ⟨idleLimit, idleCycles, discard, below⟩ := counted
  rw [(patient.live live).1] at discard
  have reachable : (before.cycled host).count.machine.Reachable := by
    rw [sameMachine]
    exact patient.reachable.operated .cycle
  rw [← idleLimit] at deep positive
  cases idles : idled before.machine.cycle.state with
  | false =>
      simp only [idles, Bool.false_eq_true, ↓reduceIte] at idleCycles
      refine ⟨reachable, deep, ?_, fun _ => ⟨discard, ?_⟩, fun enough => ?_⟩
      · rw [idleCycles]
        exact .never
      · rw [idleCycles]
        exact positive
      · rw [idleCycles] at enough
        exact absurd enough (Int.not_le.mpr positive)
  | true =>
      -- At the limit more instructions have idled than there are calls on the stack.
      simp only [idles, ↓reduceIte] at idleCycles
      obtain ⟨hasIdled, stuck⟩ :=
        patient.hasIdled.cycle patient.reachable.wellFormed completed idles
      refine ⟨reachable, deep, ?_, fun still => ⟨discard, below still idles⟩,
        fun enough => ⟨discard, ?_⟩⟩
      · rw [idleCycles, sameMachine]
        exact hasIdled
      · rw [sameMachine]
        rw [idleCycles] at enough
        exact stuck (by omega)

theorem moved {turn : Turn η Bool} (moved : Moved host before turn) {more : Bool}
    (answer : turn.answer = .ok more) : Patient turn.world := by
  cases moved with
  | stopped => exact patient
  | rested due waited => exact (patient.due due).waited waited
  | failed => cases answer
  | executed due completed waited =>
      have counted : Patient (World.count (cycled host _)) :=
        (patient.due due).executed due.keeps.2.2 completed
      exact counted.waited waited

/-- A dialogue can neither bring the count to the limit nor have a run that goes on reset. -/
theorem dialogue (controls : host.Controls) (run : Bool → World η → Turn η Nat)
    (poll : before.poll? host = some after) :
    Patient (after.dialogue host run).world ∧
      (after.dialogue host run).world.scheduler.idleCycles <
        (after.dialogue host run).world.scheduler.idleLimit := by
  obtain ⟨live, waited, seen, tally, _, state, machine, _⟩ := poll?_eq_some host poll
  have askedLive : after.scheduler.state ≠ .stopped := by
    rw [state]
    exact mt seen.stopped.mp live
  have asked : Patient after := by
    refine patient.of_screen before.machine.screen ?_ machine tally (iff_of_false askedLive live)
    rw [machine]
    exact patient.reachable
  have visit := controls after.scheduler.frame
  have runs (paused : Bool) (world : World η) (held : world.machine.Reachable) :
      (refuseRun paused world).world.machine.Reachable := held
  have reachable := host.invariant_reachable.converse runs
    (host.poll after.scheduler.frame).keeps_reachable asked.reachable
  have heeds := converse_heeds host (host.poll after.scheduler.frame) after
  have below := (asked.live askedLive).2
  obtain ⟨keypad, dialect, changed⟩ := (converse_controlled host refuseRun visit after).machine
  rw [World.dialogue, converse_of_controls host run visit]
  constructor
  · refine asked.of_below below reachable ?_ ?_ ?_ heeds.tally ?_
    · rw [changed]
    · rw [changed]
    · rw [changed]
    · intro still
      rcases heeds.discard with same | ⟨_, stopped⟩
      · exact same.trans (asked.live askedLive).1
      · exact absurd stopped still
  · have idleLimit := congrArg Tally.idleLimit heeds.tally
    have idleCycles := congrArg Tally.idleCycles heeds.tally
    exact lt_of_eq_of_lt (congrArg Nat.cast idleCycles) (lt_of_lt_of_eq below idleLimit.symm)

theorem slice (controls : host.Controls) (run : Bool → World η → Turn η Nat) {more : Bool}
    (answer : (before.slice host run).answer = .ok more) :
    Patient (before.slice host run).world := by
  have sliced := slice_sliced host run before
  generalize before.slice host run = turn at *
  cases sliced with
  | unasked _ waited moved => exact (patient.waited waited).moved moved answer
  | failed => cases answer
  | @shown asked _ poll _ moved =>
      obtain ⟨conversed, _⟩ := patient.dialogue controls run poll
      have counted : Patient ((asked.dialogue host run).world.modifyScheduler fun scheduler =>
          { scheduler with frame := scheduler.frame + 1 }) :=
        conversed.of_screen _ conversed.reachable rfl rfl Iff.rfl
      have shown : Patient ((asked.dialogue host run).world.shown host) := counted.refresh
      exact shown.moved moved answer
  | quit poll =>
      obtain ⟨conversed, below⟩ := patient.dialogue controls run poll
      exact conversed.of_below below conversed.reachable rfl rfl rfl rfl (absurd rfl)

end Patient

theorem begin_patient (host : Host η) (paused : Bool) {world : World η}
    (reachable : world.machine.Reachable) (deep : callDepth < world.scheduler.idleLimit)
    (stopped : world.scheduler.state = .stopped) : Patient (world.begin host paused).world := by
  obtain ⟨_, begun⟩ := begin_begun host paused stopped
  have idleLimit : (world.begin host paused).world.scheduler.idleLimit =
      world.scheduler.idleLimit := congrArg Tally.idleLimit begun.tally
  have idleCycles : (world.begin host paused).world.scheduler.idleCycles = 0 :=
    congrArg Tally.idleCycles begun.tally
  have discard : (world.begin host paused).world.scheduler.discard = false :=
    congrArg Tally.discard begun.tally
  rw [← idleLimit] at deep
  have positive : 0 < (world.begin host paused).world.scheduler.idleLimit :=
    Int.lt_of_le_of_lt (by decide) deep
  refine ⟨?_, deep, ?_, fun _ => ⟨discard, ?_⟩, fun enough => ?_⟩
  · rw [begun.machine]
    exact reachable
  · rw [idleCycles]
    exact .never
  · rw [idleCycles]
    exact positive
  · rw [idleCycles] at enough
    exact absurd enough (Int.not_le.mpr positive)

/-- A run that has come to its limit of idle instructions is not reset. -/
theorem run_patient (host : Host η) (controls : host.Controls) (passes : Nat) (paused : Bool)
    {world : World η} (reachable : world.machine.Reachable)
    (deep : callDepth < world.scheduler.idleLimit) {cycles : Nat}
    (ended : (World.run host passes paused world).answer = .ok cycles)
    (idle : (World.run host passes paused world).world.scheduler.idleLimit ≤
      (World.run host passes paused world).world.scheduler.idleCycles) :
    Patient (World.run host passes paused world).world := by
  obtain ⟨passes, rfl, stopped⟩ := run_accepted ended
  rw [run_of_stopped host passes paused stopped] at ended idle ⊢
  obtain ⟨looped, final⟩ := finish_of_ok host ended
  have begun := begin_patient host paused reachable deep stopped
  have kept := loop_of_slices host (World.run host passes)
    (fun _ _ patient => patient.slice controls _) passes begun looped
  have refreshed : Patient (World.refresh host _) := kept.refresh
  rw [final, scheduler_discardRun] at idle
  rw [final, discardRun, if_neg (by simp [(refreshed.ended idle).1])]
  exact refreshed

/-- A run that has ended with more idle instructions in a row than calls fit on the stack leaves a
machine that no later cycle moves, whatever timers count and keys change. -/
theorem unmoved_of_idle_halt (host : Host η) (controls : host.Controls) (passes : Nat)
    (paused : Bool) {world : World η} (reachable : world.machine.Reachable)
    (deep : 16 < world.scheduler.idleLimit) {cycles : Nat}
    (ended : (World.run host passes paused world).answer = .ok cycles)
    (idle : (World.run host passes paused world).world.scheduler.idleLimit ≤
      (World.run host passes paused world).world.scheduler.idleCycles)
    {history : List Operation} (ambient : ∀ operation ∈ history, operation.isAmbient) :
    let halted := (World.run host passes paused world).world.machine
    (halted.after history).cycle.answer = .ok () ∧ Unmoved halted (halted.after history) := by
  intro halted
  have patient := run_patient host controls passes paused reachable deep ended idle
  obtain ⟨_, stuck⟩ := patient.ended idle
  obtain ⟨unmoved, still⟩ := stuck.after patient.reachable.wellFormed ambient
  have later := patient.reachable.after history
  exact ⟨(still.cycle later.wellFormed).1, unmoved⟩

def typist : Host Unit where
  readClock := fun _ => (0.0, ())
  wait := fun _ _ => ()
  receive := fun _ _ => ()
  poll := fun _ => .ask (.setKey 3 true) fun _ => .leave false

/-- A machine that jumps to itself, about to run until it has idled so often. -/
def treadmill (idleLimit : Int) (machine : Machine) : World Unit where
  scheduler := { interval := none, idleLimit := idleLimit }
  machine := machine
  host := ()

def hamster : Machine :=
  (Machine.assemble .plain (.scripted [] 0) false).1.after [.loadRom [0x12, 0x00]]

theorem unmoved_of_idle_halt_typist :
    (World.run typist 20 false (treadmill 17 hamster)).answer = .ok 17 ∧
      let halted := (World.run typist 20 false (treadmill 17 hamster)).world.machine
      Unmoved halted (halted.after [.tick, .cycle, .setKey 7 true, .cycle]) := by
  have controls : typist.Controls := fun _ => ⟨trivial, fun _ => trivial⟩
  have assembled : (Machine.assemble .plain (.scripted [] 0) false).1.Reachable :=
    .assembled _ _ _
  have reachable (machine : Machine) (held : machine.Reachable) :
      (treadmill 17 machine).machine.Reachable := held
  have loaded : hamster.Reachable := by
    rw [hamster]
    exact assembled.after _
  have above : (16 : Int) < 17 := by decide
  have deep (machine : Machine) : 16 < (treadmill 17 machine).scheduler.idleLimit := above
  have ended : (World.run typist 20 false (treadmill 17 hamster)).answer = .ok 17 :=
    Turn.answer_eq_ok (by decide +kernel)
  have idle : (World.run typist 20 false (treadmill 17 hamster)).world.scheduler.idleLimit ≤
      (World.run typist 20 false (treadmill 17 hamster)).world.scheduler.idleCycles := by
    decide +kernel
  have ambient : ∀ operation ∈ [Operation.tick, .cycle, .setKey 7 true, .cycle],
      operation.isAmbient = true := by decide
  exact ⟨ended, (unmoved_of_idle_halt typist controls 20 false (reachable hamster loaded)
    (deep hamster) ended idle ambient).2⟩

end Chip8.World
