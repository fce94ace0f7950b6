import Chip8.Proofs.Machine.Context
import Chip8.Proofs.Machine.History

/-!
# Interleavings of cycles, ticks and keys

Four instructions look at the keys or at the delay timer. As long as a program
meets none of them, it does not notice when timers count and keys change: with
any of these in between, the same number of cycles executes the same
instructions, fails in the same way, and leaves the same machine but for the
keys and the timers.
-/

set_option autoImplicit false

namespace Chip8

/-- A part that begins somewhere in a list either begins with its last element or ends with it. -/
theorem concat_eq_append_cons {α : Type} {list earlier rest : List α} {first last : α}
    (split : list ++ [last] = earlier ++ first :: rest) :
    (list = earlier ∧ last = first ∧ rest = []) ∨
      ∃ between, list = earlier ++ first :: between ∧ rest = between ++ [last] := by
  rcases List.eq_nil_or_concat rest with rfl | ⟨between, final, rfl⟩
  · obtain ⟨same, lasts⟩ := List.append_inj' split rfl
    exact .inl ⟨same, List.singleton_inj.mp lasts, rfl⟩
  · rw [List.concat_eq_append, ← List.cons_append, ← List.append_assoc] at split
    obtain ⟨same, lasts⟩ := List.append_inj' split rfl
    refine .inr ⟨between, same, ?_⟩
    rw [List.concat_eq_append, lasts]

def Instruction.isTimed : Instruction → Bool
  | readDelay _ | skipIfDown _ | skipIfUp _ | awaitKey _ => true
  | _ => false

/-- A fault without the timers that its report shows. -/
def Fault.untimed : Fault → Fault
  | invalidOpcode readout address =>
      invalidOpcode { readout with delay := 0, sound := 0 } address
  | cause => cause

/-- A cycle that was carried out: where it fetched, the number that was the one fetched last when it
was over, and how it ended. A fetch that fails leaves that number as the cycle before has set it. -/
structure Executed where
  address : Int
  opcode : Int
  ending : Except Fault Unit

def Executed.isTimed (executed : Executed) : Bool :=
  (Instruction.decode? executed.opcode).any Instruction.isTimed

namespace Machine

/-- What happens between the instructions of a program: timers count and keys change. -/
def Operation.isAmbient : Operation → Bool
  | .cycle | .tick | .setKey .. => true
  | .reset | .loadRom _ | .setDialect _ => false

def Operation.isCycle : Operation → Bool
  | .cycle => true
  | _ => false

def Operation.isTick : Operation → Bool
  | .tick => true
  | _ => false

/-- What the next cycle of a machine carries out. -/
def executed (machine : Machine) : Executed where
  address := machine.processor.counter
  opcode := machine.cycle.state.processor.opcode
  ending := machine.cycle.answer.mapError Fault.untimed

def course (machine : Machine) : List Operation → List Executed
  | [] => []
  | .cycle :: rest => machine.executed :: machine.cycle.state.course rest
  | operation :: rest => (machine.operate operation).state.course rest

def retimed (machine : Machine) (keypad : Keypad) (delay sound : Int) : Machine :=
  { machine with
    keypad := keypad
    processor := { machine.processor with delay := delay, sound := sound } }

section

variable (machine : Machine) (keypad : Keypad) (delay sound : Int)

theorem execute_retimed {instruction : Instruction} (free : instruction.isTimed = false) :
    match machine.execute instruction with
    | .error cause => (machine.retimed keypad delay sound).execute instruction = .error cause
    | .ok (next, _) => ∃ delay' sound' told,
        (machine.retimed keypad delay sound).execute instruction =
          .ok (next.retimed keypad delay' sound', told) := by
  let context : Context :=
    { machine.context with keypad := keypad, delay := delay, sound := sound }
  have kept (agrees : instruction.Agrees machine context)
      (unwritten : ∀ other : Context, other.after machine instruction = other) :
      match machine.execute instruction with
      | .error cause => (machine.retimed keypad delay sound).execute instruction = .error cause
      | .ok (next, _) => ∃ delay' sound' told,
          (machine.retimed keypad delay sound).execute instruction =
            .ok (next.retimed keypad delay' sound', told) := by
    have retimed : machine.retimed keypad delay sound = machine.under context := rfl
    rw [retimed, execute_under machine context agrees, unwritten]
    cases executed : machine.execute instruction with
    | error cause => rfl
    | ok ran =>
        obtain ⟨next, told⟩ := ran
        have same := context_execute executed
        rw [unwritten] at same
        refine ⟨delay, sound, told, ?_⟩
        simp only [Except.map, context, ← same]
        rfl
  -- The two that set a timer leave both machines with the same time on it.
  cases instruction with
  | readDelay | skipIfDown | skipIfUp | awaitKey => cases free
  | setDelay x => exact ⟨_, sound, _, rfl⟩
  | setSound x => exact ⟨delay, _, _, rfl⟩
  | bitOr | bitAnd | bitXor | shiftRight | shiftLeft | jumpOffset | storeBlock | loadBlock =>
      exact kept rfl fun _ => rfl
  | _ => exact kept trivial fun _ => rfl

theorem opcode_perform :
    machine.perform.state.processor.opcode = machine.processor.opcode := by
  obtain ⟨delay, sound, awaitingKey, same⟩ := machine.context_perform
  exact congrArg Context.opcode same

theorem opcode_cycle :
    machine.cycle.state.processor.opcode =
      match machine.fetch with
      | .ok opcode => opcode
      | .error _ => machine.processor.opcode := by
  cases fetched : machine.fetch with
  | error cause =>
      simp only [cycle, fetched]
      rfl
  | ok opcode =>
      have same := (machine.fetched opcode).opcode_perform
      rw [state_cycle fetched]
      split
      · exact same
      · exact same

theorem isTimed_executed_retimed :
    (machine.retimed keypad delay sound).executed.isTimed = machine.executed.isTimed := by
  simp only [Executed.isTimed, executed, opcode_cycle]
  rfl

theorem perform_retimed
    (free : (Instruction.decode? machine.processor.opcode).any Instruction.isTimed = false) :
    ∃ delay' sound',
      (machine.retimed keypad delay sound).perform.state =
        machine.perform.state.retimed keypad delay' sound' ∧
      (machine.retimed keypad delay sound).perform.answer.mapError Fault.untimed =
        machine.perform.answer.mapError Fault.untimed := by
  have opcode : (machine.retimed keypad delay sound).processor.opcode =
      machine.processor.opcode := rfl
  simp only [perform, opcode]
  cases decoded : Instruction.decode? machine.processor.opcode with
  | none => exact ⟨delay, sound, rfl, rfl⟩
  | some instruction =>
      rw [decoded] at free
      have ran := machine.execute_retimed keypad delay sound free
      simp only
      cases executed : machine.execute instruction with
      | error cause =>
          simp only [executed] at ran
          rw [ran]
          exact ⟨delay, sound, rfl, rfl⟩
      | ok outcome =>
          obtain ⟨next, told⟩ := outcome
          simp only [executed] at ran
          obtain ⟨delay', sound', told', retimed⟩ := ran
          rw [retimed]
          exact ⟨delay', sound', rfl, rfl⟩

theorem isOk_mapError {α : Type} (change : Fault → Fault) (answer : Except Fault α) :
    (answer.mapError change).isOk = answer.isOk := by
  cases answer with
  | error cause => rfl
  | ok value => rfl

theorem cycle_retimed (free : machine.executed.isTimed = false) :
    (machine.retimed keypad delay sound).executed = machine.executed ∧
    ∃ delay' sound', (machine.retimed keypad delay sound).cycle.state =
      machine.cycle.state.retimed keypad delay' sound' := by
  have opcodes : (machine.retimed keypad delay sound).cycle.state.processor.opcode =
      machine.cycle.state.processor.opcode := by
    simp only [opcode_cycle]
    rfl
  simp only [executed, opcodes, Executed.mk.injEq, true_and]
  cases fetched : machine.fetch with
  | error cause =>
      have retimed : (machine.retimed keypad delay sound).fetch = .error cause := fetched
      simp only [cycle, fetched, retimed]
      exact ⟨⟨rfl, rfl⟩, delay, sound, rfl⟩
  | ok opcode =>
      have retimed : (machine.retimed keypad delay sound).fetch = .ok opcode := fetched
      simp only [Executed.isTimed, executed, opcode_cycle, fetched] at free
      obtain ⟨delay', sound', state, answer⟩ :=
        (machine.fetched opcode).perform_retimed keypad delay sound free
      have same : (machine.retimed keypad delay sound).fetched opcode =
          (machine.fetched opcode).retimed keypad delay sound := rfl
      rw [← same] at state answer
      rw [answer_cycle retimed, answer_cycle fetched]
      refine ⟨⟨rfl, answer⟩, delay', sound', ?_⟩
      have alike := congrArg Except.isOk answer
      rw [isOk_mapError, isOk_mapError] at alike
      rw [state_cycle fetched, state_cycle retimed, alike, state]
      split
      · rfl
      · rfl

theorem setKey_retimed (number : Int) (pressed : Bool) :
    ∃ keypad', ((machine.retimed keypad delay sound).operate (.setKey number pressed)).state =
      machine.retimed keypad' delay sound := by
  obtain ⟨keypad', state, _⟩ :=
    (machine.retimed keypad delay sound).operate_setKey number pressed
  exact ⟨keypad', state⟩

/-- An interleaving that meets no timed instruction runs as its cycles alone, with other keys
and timers at the start. -/
theorem course_retimed {history : List Operation}
    (ambient : ∀ operation ∈ history, operation.isAmbient)
    (free : (∀ executed ∈ machine.course (.replicate (history.countP Operation.isCycle) .cycle),
        executed.isTimed = false) ∨
      ∀ executed ∈ (machine.retimed keypad delay sound).course history, executed.isTimed = false) :
    (machine.retimed keypad delay sound).course history =
      machine.course (.replicate (history.countP Operation.isCycle) .cycle) ∧
    ∃ keypad' delay' sound', (machine.retimed keypad delay sound).after history =
      (machine.after (.replicate (history.countP Operation.isCycle) .cycle)).retimed
        keypad' delay' sound' := by
  induction history generalizing machine keypad delay sound with
  | nil => exact ⟨rfl, keypad, delay, sound, rfl⟩
  | cons operation rest ih =>
      obtain ⟨first, others⟩ := List.forall_mem_cons.mp ambient
      cases operation with
      | reset | loadRom | setDialect => cases first
      | tick => exact ih _ _ _ _ others free
      | setKey number pressed =>
          obtain ⟨keypad', set⟩ := machine.setKey_retimed keypad delay sound number pressed
          simp only [course, after, List.foldl_cons, set] at free ⊢
          exact ih _ _ _ _ others free
      | cycle =>
          rw [List.countP_cons_of_pos rfl, List.replicate_succ] at free ⊢
          simp only [course, List.forall_mem_cons, isTimed_executed_retimed] at free
          have now : machine.executed.isTimed = false := by
            rcases free with ⟨now, _⟩ | ⟨now, _⟩
            · exact now
            · exact now
          obtain ⟨same, delay', sound', state⟩ := machine.cycle_retimed keypad delay sound now
          rw [state] at free
          obtain ⟨course, later⟩ := ih _ _ _ _ others (free.imp And.right And.right)
          simp only [Machine.course, after, List.foldl_cons, operate, same, state]
          exact ⟨congrArg (machine.executed :: ·) course, later⟩

end

theorem length_course (machine : Machine) (history : List Operation) :
    (machine.course history).length = history.countP Operation.isCycle := by
  induction history generalizing machine with
  | nil => rfl
  | cons operation rest ih =>
      cases operation with
      | cycle =>
          rw [List.countP_cons_of_pos rfl]
          exact congrArg (· + 1) (ih machine.cycle.state)
      | _ => exact ih _

/-- The same number of cycles from the same machine does the same, whatever timers and keys do
in between, if one of the two interleavings meets no instruction that looks at them. -/
theorem course_of_interleaving {machine : Machine} {first second : List Operation} {cycles : Nat}
    (firstAmbient : ∀ operation ∈ first, operation.isAmbient)
    (secondAmbient : ∀ operation ∈ second, operation.isAmbient)
    (firstCycles : first.countP Operation.isCycle = cycles)
    (secondCycles : second.countP Operation.isCycle = cycles)
    (free : ∀ executed ∈ machine.course first, executed.isTimed = false) :
    machine.course second = machine.course first ∧ (machine.course first).length = cycles ∧
    ∃ keypad delay sound, machine.after second =
      { machine.after first with
        keypad := keypad
        processor := { (machine.after first).processor with delay := delay, sound := sound } } := by
  have here : machine.retimed machine.keypad machine.processor.delay machine.processor.sound =
      machine := rfl
  obtain ⟨firstCourse, keypad₁, delay₁, sound₁, firstState⟩ := course_retimed
    machine machine.keypad machine.processor.delay machine.processor.sound firstAmbient (.inr free)
  rw [here, firstCycles] at firstCourse firstState
  rw [firstCourse, ← secondCycles] at free
  obtain ⟨secondCourse, keypad₂, delay₂, sound₂, secondState⟩ := course_retimed
    machine machine.keypad machine.processor.delay machine.processor.sound secondAmbient (.inl free)
  rw [here, secondCycles] at secondCourse secondState
  refine ⟨secondCourse.trans firstCourse.symm, ?_, keypad₂, delay₂, sound₂, ?_⟩
  · rw [length_course, firstCycles]
  · rw [secondState, firstState]
    rfl

/-- A machine with a program that starts the delay timer, draws a byte and returns from no call. -/
def gambler : Machine :=
  (assemble .plain (.scripted [7] 0) false).1.after
    [.loadRom [0x6a, 0x05, 0xfa, 0x15, 0xc0, 0xff, 0x00, 0xee]]

theorem course_of_interleaving_gambler :
    let first : List Operation := [.cycle, .cycle, .tick, .setKey 3 true, .cycle, .cycle]
    let second : List Operation := [.setKey 20 true, .tick, .cycle, .cycle, .cycle, .cycle, .tick]
    (∀ executed ∈ gambler.course first, executed.isTimed = false) ∧
    gambler.course second = gambler.course first ∧
    (gambler.after second).register 0 = 7 ∧
    (gambler.after second).processor.delay = 4 ∧ (gambler.after first).processor.delay = 4 := by
  intro first second
  obtain ⟨free, drawn, delays⟩ :
      (∀ executed ∈ gambler.course first, executed.isTimed = false) ∧
      (gambler.after second).register 0 = 7 ∧
      (gambler.after second).processor.delay = 4 ∧ (gambler.after first).processor.delay = 4 := by
    decide +kernel
  have firstAmbient : ∀ operation ∈ first, operation.isAmbient := by decide
  have secondAmbient : ∀ operation ∈ second, operation.isAmbient := by decide
  have law := course_of_interleaving firstAmbient secondAmbient (rfl : _ = 4) rfl free
  exact ⟨free, law.1, drawn, delays⟩

end Machine

end Chip8
