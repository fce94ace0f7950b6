import Chip8.Proofs.Machine.Effects
import Chip8.Proofs.Machine.Load

/-!
# Sound

One instruction starts and stops the sound timer, ticks count it down and
resets clear it, and each of them tells the host by itself whether the buzzer
is on. Taken together they keep the buzzer in step with the timer, and each
start of the timer is marked by one beep.
-/

set_option autoImplicit false

namespace Chip8

namespace Sounder

theorem receiveAll_append (sounder : Sounder) (first second : List Signal) :
    sounder.receiveAll (first ++ second) = (sounder.receiveAll first).receiveAll second :=
  List.foldl_append

theorem buzzer_receiveAll_of_quiet (sounder : Sounder) {signals : List Signal}
    (quiet : ∀ signal ∈ signals, signal.isSound = false) :
    (sounder.receiveAll signals).buzzer = sounder.buzzer := by
  induction signals generalizing sounder with
  | nil => rfl
  | cons signal rest ih =>
      obtain ⟨first, others⟩ := List.forall_mem_cons.mp quiet
      cases signal with
      | beep | buzzer => cases first
      | _ => exact ih sounder others

def Follows (sounder : Sounder) (time : Int) : Prop := sounder.buzzer = true ↔ 0 < time

end Sounder

/-- What is told of sound while the sound timer goes from one time to another without a tick. -/
inductive Heard (before : Int) : Int → List Signal → Prop where
  | nothing {signals : List Signal} (quiet : ∀ signal ∈ signals, signal.isSound = false) :
      Heard before before signals
  | set {signals : List Signal} (quiet : ∀ signal ∈ signals, signal.isSound = false)
      (ticks : UInt8) :
      Heard before ticks.toNat
        (signals ++ ((if 0 < ticks ∧ before = 0 then [.beepFor ticks] else []) ++
          [.buzzer (0 < ticks)]))

theorem runs_iff (ticks : UInt8) : 0 < ticks ↔ (0 : Int) < ticks.toNat := by
  rw [UInt8.lt_iff_toNat_lt]
  exact Int.natCast_pos.symm

namespace Heard

variable {before after : Int} {signals : List Signal} (heard : Heard before after signals)

include heard

theorem behind {lines : List Signal} (quiet : ∀ signal ∈ lines, signal.isSound = false) :
    Heard before after (lines ++ signals) := by
  cases heard with
  | nothing others => exact .nothing (List.forall_mem_append.mpr ⟨quiet, others⟩)
  | set others ticks =>
      rw [← List.append_assoc]
      exact .set (List.forall_mem_append.mpr ⟨quiet, others⟩) ticks

theorem follows {sounder : Sounder} (follows : sounder.Follows before) :
    (sounder.receiveAll signals).Follows after := by
  cases heard with
  | nothing quiet =>
      rw [Sounder.Follows, sounder.buzzer_receiveAll_of_quiet quiet]
      exact follows
  | set quiet ticks =>
      rw [Sounder.receiveAll_append, Sounder.receiveAll_append]
      exact decide_eq_true_iff.trans (runs_iff ticks)

theorem beep_mem_iff : (∃ seconds, Signal.beep seconds ∈ signals) ↔ before = 0 ∧ 0 < after := by
  cases heard with
  | nothing quiet =>
      constructor
      · rintro ⟨seconds, member⟩
        cases quiet _ member
      · omega
  | @set others quiet ticks =>
      constructor
      · rintro ⟨sounded, member⟩
        rcases List.mem_append.mp member with other | sound
        · cases quiet _ other
        · split at sound
          · next start => exact ⟨start.2, (runs_iff ticks).mp start.1⟩
          · cases List.mem_singleton.mp sound
      · rintro ⟨stopped, started⟩
        refine ⟨Float.ofNat ticks.toNat / Signal.timerFrequency, List.mem_append_right _ ?_⟩
        rw [if_pos ⟨(runs_iff ticks).mpr started, stopped⟩]
        exact List.mem_cons_self

theorem of_start (stopped : before = 0) (started : 0 < after) :
    ∃ (lines : List Signal) (ticks : UInt8), (∀ line ∈ lines, line.isSound = false) ∧
      signals = lines ++ [.beepFor ticks, .buzzer true] ∧ after = ticks.toNat := by
  cases heard with
  | nothing => omega
  | @set others quiet ticks =>
      have runs := (runs_iff ticks).mpr started
      refine ⟨others, ticks, quiet, ?_, rfl⟩
      rw [if_pos ⟨runs, stopped⟩, decide_eq_true runs]
      rfl

end Heard

namespace Machine

section

variable {machine next : Machine} {instruction : Instruction} {told : List Signal}

theorem isSound_execute (executed : machine.execute instruction = .ok (next, told))
    (other : ∀ x, instruction ≠ .setSound x) : ∀ signal ∈ told, signal.isSound = false :=
  fun signal member => Signal.isSound_of_isPixel (isPixel_execute executed other signal member)

theorem heard_execute (executed : machine.execute instruction = .ok (next, told)) :
    Heard machine.processor.sound next.processor.sound told := by
  have after := congrArg Context.sound (context_execute executed)
  cases instruction with
  | setSound x =>
      cases executed
      exact .set (List.forall_mem_nil _) (machine.register x)
  | _ =>
      have same : next.processor.sound = machine.processor.sound := after
      rw [same]
      exact .nothing (isSound_execute executed nofun)

end

variable (machine : Machine)

theorem isSound_liveLines (instruction : Instruction) :
    ∀ signal ∈ machine.liveLines instruction, signal.isSound = false := by
  intro signal member
  obtain ⟨text, rfl⟩ := machine.line_of_liveLines instruction signal member
  rfl

theorem heard_perform :
    Heard machine.processor.sound machine.perform.state.processor.sound
      machine.perform.signals := by
  unfold perform
  cases Instruction.decode? machine.processor.opcode with
  | none => exact .nothing (List.forall_mem_nil _)
  | some instruction =>
      have lines := machine.isSound_liveLines instruction
      simp only
      cases executed : machine.execute instruction with
      | error cause => exact .nothing lines
      | ok ran => exact (heard_execute executed).behind lines

theorem heard_cycle :
    Heard machine.processor.sound machine.cycle.state.processor.sound machine.cycle.signals := by
  cases fetch : machine.fetch with
  | error cause =>
      simp only [cycle, fetch]
      exact .nothing (List.forall_mem_nil _)
  | ok opcode =>
      have performed := (machine.fetched opcode).heard_perform
      rw [signals_cycle fetch, state_cycle fetch]
      split
      · exact performed
      · exact performed

theorem heard_reset :
    Heard machine.processor.sound machine.reset.1.processor.sound machine.reset.2 := by
  have quiet : ∀ signal ∈ machine.screen.clear.signals, signal.isSound = false := by
    intro signal member
    exact Signal.isSound_of_isPixel (machine.screen.isPixel_clear signal member)
  exact .set quiet 0

theorem heard_operate {operation : Operation} (other : operation ≠ .tick) :
    Heard machine.processor.sound (machine.operate operation).state.processor.sound
      (machine.operate operation).signals := by
  cases operation with
  | tick => exact absurd rfl other
  | cycle => exact machine.heard_cycle
  | reset => exact machine.heard_reset
  | loadRom rom =>
      obtain ⟨memory, state, signals⟩ := machine.operate_loadRom rom
      rw [state, signals]
      exact machine.heard_reset
  | setKey number pressed =>
      obtain ⟨keypad, state, signals⟩ := machine.operate_setKey number pressed
      rw [state, signals]
      exact .nothing (List.forall_mem_nil _)
  | setDialect dialect => exact .nothing (List.forall_mem_nil _)

/-- A tick tells of sound only if the sound timer runs out, and answers whether it does. -/
theorem tick_answer :
    machine.tick.2 =
      if machine.processor.sound = 1 then ([.buzzer false], true) else ([], false) := by
  by_cases last : machine.processor.sound = 1
  · rw [if_pos last]
    simp only [tick, last, decide_true, ↓reduceIte]
  · rw [if_neg last]
    simp only [tick, last, decide_false, Bool.false_eq_true, ↓reduceIte]

theorem follows_tick {sounder : Sounder} (follows : sounder.Follows machine.processor.sound) :
    (sounder.receiveAll machine.tick.2.1).Follows machine.tick.1.processor.sound := by
  have sound : machine.tick.1.processor.sound =
      if 0 < machine.processor.sound then machine.processor.sound - 1
      else machine.processor.sound := rfl
  rw [tick_answer, sound]
  by_cases last : machine.processor.sound = 1
  · rw [last]
    exact ⟨nofun, nofun⟩
  · rw [if_neg last]
    refine follows.trans ?_
    omega

theorem follows_operate {sounder : Sounder} (follows : sounder.Follows machine.processor.sound)
    (operation : Operation) :
    (sounder.receiveAll (machine.operate operation).signals).Follows
      (machine.operate operation).state.processor.sound := by
  by_cases ticks : operation = .tick
  · subst ticks
    exact machine.follows_tick follows
  · exact (machine.heard_operate ticks).follows follows

def told (history : List Operation) : List Signal := (machine.outcomes history).flatMap (·.signals)

theorem follows_told {sounder : Sounder} (follows : sounder.Follows machine.processor.sound)
    (history : List Operation) :
    (sounder.receiveAll (machine.told history)).Follows
      (machine.after history).processor.sound := by
  induction history generalizing machine sounder with
  | nil => exact follows
  | cons operation rest ih =>
      have first := machine.follows_operate follows operation
      rw [told, outcomes, List.flatMap_cons, Sounder.receiveAll_append]
      exact ih _ first

theorem sound_operate {operation : Operation} (other : operation ≠ .cycle)
    (stopped : machine.processor.sound = 0) :
    (machine.operate operation).state.processor.sound = 0 := by
  cases operation with
  | cycle => exact absurd rfl other
  | reset => rfl
  | loadRom rom =>
      obtain ⟨memory, state, _⟩ := machine.operate_loadRom rom
      rw [state]
      rfl
  | setKey number pressed =>
      obtain ⟨keypad, state, _⟩ := machine.operate_setKey number pressed
      rw [state]
      exact stopped
  | tick =>
      simp only [operate, tick, stopped]
      rfl
  | setDialect dialect => exact stopped

theorem beep_mem_operate_iff (operation : Operation) :
    (∃ seconds, Signal.beep seconds ∈ (machine.operate operation).signals) ↔
      operation = .cycle ∧ machine.processor.sound = 0 ∧
        0 < machine.cycle.state.processor.sound := by
  by_cases cycles : operation = .cycle
  · subst cycles
    simp only [true_and]
    exact machine.heard_cycle.beep_mem_iff
  · constructor
    · intro beeps
      have stopped : machine.processor.sound = 0 ∧
          0 < (machine.operate operation).state.processor.sound := by
        by_cases ticks : operation = .tick
        · subst ticks
          obtain ⟨_, member⟩ := beeps
          have signals : (machine.operate .tick).signals = machine.tick.2.1 := rfl
          rw [signals, tick_answer] at member
          split at member
          · cases List.mem_singleton.mp member
          · cases member
        · exact (machine.heard_operate ticks).beep_mem_iff.mp beeps
      have still := machine.sound_operate cycles stopped.1
      omega
    · exact fun starts => absurd starts.1 cycles

structure TicksLaw (machine : Machine) (count : Nat) : Prop where
  delay : (machine.after (.replicate count .tick)).processor.delay =
    max (machine.processor.delay - count) 0
  sound : (machine.after (.replicate count .tick)).processor.sound =
    max (machine.processor.sound - count) 0
  told : machine.told (.replicate count .tick) =
    if 0 < machine.processor.sound ∧ machine.processor.sound ≤ count then [.buzzer false] else []

structure SoundLaw (machine : Machine) : Prop where
  beeps : ∀ operation, (∃ seconds, Signal.beep seconds ∈ (machine.operate operation).signals) ↔
    operation = .cycle ∧ machine.processor.sound = 0 ∧ 0 < machine.cycle.state.processor.sound
  starts : machine.processor.sound = 0 → 0 < machine.cycle.state.processor.sound →
    ∃ (lines : List Signal) (ticks : UInt8), (∀ line ∈ lines, line.isSound = false) ∧
      machine.cycle.signals =
        lines ++ [.beep (Float.ofNat ticks.toNat / 60.0), .buzzer true] ∧
      machine.cycle.state.processor.sound = ticks.toNat
  tick : machine.tick.2 =
    if machine.processor.sound = 1 then ([.buzzer false], true) else ([], false)
  ticks : ∀ count, machine.TicksLaw count

namespace WellFormed

variable {machine : Machine} (wellFormed : machine.WellFormed)

include wellFormed

theorem ticksLaw (count : Nat) : machine.TicksLaw count := by
  induction count generalizing machine with
  | zero =>
      have delay := wellFormed.delay.1
      have sound := wellFormed.sound.1
      have same : machine.after (.replicate 0 .tick) = machine := rfl
      refine ⟨?_, ?_, ?_⟩
      · rw [same]
        omega
      · rw [same]
        omega
      · rw [if_neg (by omega)]
        rfl
  | succ count ih =>
      have delay := wellFormed.delay_tick
      have sound := wellFormed.sound_tick
      have others := ih wellFormed.tick
      have signals : machine.told (.replicate (count + 1) .tick) =
          machine.tick.2.1 ++ machine.tick.1.told (.replicate count .tick) := rfl
      refine ⟨?_, ?_, ?_⟩
      · refine others.delay.trans ?_
        omega
      · refine others.sound.trans ?_
        omega
      · rw [signals, tick_answer, others.told, sound]
        -- The timer runs out at the first tick, at a later one, or not at all.
        by_cases last : machine.processor.sound = 1
        · rw [if_pos last, if_neg (by omega), if_pos (by omega)]
          rfl
        · have due : 0 < max (machine.processor.sound - 1) 0 ∧
                max (machine.processor.sound - 1) 0 ≤ count ↔
              0 < machine.processor.sound ∧ machine.processor.sound ≤ (count + 1 : Nat) := by
            omega
          rw [if_neg last, List.nil_append]
          simp only [due]

theorem soundLaw : machine.SoundLaw where
  beeps := machine.beep_mem_operate_iff
  starts := machine.heard_cycle.of_start
  tick := machine.tick_answer
  ticks := wellFormed.ticksLaw

end WellFormed

/-- Whatever has been done to a machine, the buzzer of its host is on exactly while its sound
timer runs. -/
theorem sound_after (dialect : Dialect) (random : RandomSource) (live : Bool)
    (history : List Operation) :
    let start := assemble dialect random live
    let machine := start.1.after history
    (∀ sounder : Sounder,
      (sounder.receiveAll (start.2 ++ start.1.told history)).buzzer = true ↔
        0 < machine.processor.sound) ∧
    (∀ seconds, Signal.beep seconds ∉ start.2) ∧ machine.SoundLaw := by
  intro start machine
  refine ⟨?_, ?_, (wellFormed_after dialect random live history).soundLaw⟩
  · intro sounder
    rw [Sounder.receiveAll_append]
    apply follows_told
    have opening : start.2 = Screen.opening Screen.columns Screen.rowCount ++ resetSignals := rfl
    rw [opening, Sounder.receiveAll_append, Sounder.Follows, buzzer_resetSignals]
    exact ⟨nofun, nofun⟩
  · intro seconds member
    rcases List.mem_append.mp member with opening | reset
    · simp [Screen.opening] at opening
    · rcases List.mem_append.mp reset with cleared | buzzer
      · cases Signal.isSound_of_isPixel (blankScreen.isPixel_clear _ cleared)
      · cases List.mem_singleton.mp buzzer

end Machine

end Chip8
