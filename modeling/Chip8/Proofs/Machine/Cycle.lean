import Chip8.Proofs.Instruction.RoundTrip
import Chip8.Proofs.Machine.WellFormed

/-!
# Cycles of well-formed machines

What one cycle does is settled by the word at the counter and by the depth of
the stack. A cycle that fails leaves the machine as the fetch left it and tells
the host nothing but a line of live debugging; every other one completes.
-/

set_option autoImplicit false

namespace Chip8.Machine

def nextWord (machine : Machine) : Nat :=
  (machine.memory.byteAt machine.processor.counter).toNat * 256 +
    (machine.memory.byteAt (wrapAddress (machine.processor.counter + 1))).toNat

theorem nextWord_lt (machine : Machine) : machine.nextWord < 65536 := by
  have high := (machine.memory.byteAt machine.processor.counter).toNat_lt
  have low := (machine.memory.byteAt (wrapAddress (machine.processor.counter + 1))).toNat_lt
  simp only [nextWord]
  omega

/-- The fault of the next cycle of a well-formed machine. -/
def fault? (machine : Machine) : Option Fault :=
  match Instruction.decode? machine.nextWord with
  | none =>
      some (.invalidOpcode (machine.fetched machine.nextWord).readout machine.processor.counter)
  | some instruction => machine.refusal? instruction

/-- Where a cycle fails, with which fault, and what it leaves behind then. -/
structure CycleLaw (machine : Machine) : Prop where
  invalidOpcode :
    (∃ readout address, machine.cycle.answer = .error (.invalidOpcode readout address)) ↔
      ∀ instruction : Instruction, instruction.word ≠ machine.nextWord
  stackOverflow :
    (∃ limit, machine.cycle.answer = .error (.stackOverflow limit)) ↔
      (∃ target, (Instruction.call target).word = machine.nextWord) ∧ machine.stack.depth = 16
  stackUnderflow :
    machine.cycle.answer = .error .stackUnderflow ↔
      Instruction.ret.word = machine.nextWord ∧ machine.stack.depth = 0
  cause : ∀ cause, machine.cycle.answer = .error cause →
    (∃ readout, cause = .invalidOpcode readout machine.processor.counter ∧
      readout.opcode = machine.nextWord) ∨
    cause = .stackOverflow 16 ∨ cause = .stackUnderflow
  state : ∀ cause, machine.cycle.answer = .error cause →
    machine.cycle.state =
      { machine with
        processor := { machine.processor with
          opcode := machine.nextWord
          origin := machine.processor.counter
          counter := (machine.processor.counter + 2) % 4096 } }
  silent : ∀ cause, machine.cycle.answer = .error cause →
    ∀ signal ∈ machine.cycle.signals, ∃ text, signal = .line text

namespace WellFormed

variable {machine : Machine} (wellFormed : machine.WellFormed)

include wellFormed

theorem fetch_eq : machine.fetch = .ok (machine.nextWord : Int) := by
  have high := Memory.read_of_inRange (wellFormed.inRange wellFormed.counter)
  have low := Memory.read_of_inRange
    (wellFormed.inRange (isAddress_wrapAddress (machine.processor.counter + 1)))
  simp only [fetch, high, low, bind, Except.bind]
  rfl

theorem fetched : (machine.fetched machine.nextWord).WellFormed :=
  { wellFormed with
    counter := isAddress_wrapAddress _
    origin := wellFormed.counter
    opcode := ⟨Int.natCast_nonneg _, Int.ofNat_lt.mpr machine.nextWord_lt⟩ }

theorem cycle_spec :
    match machine.fault? with
    | some cause =>
        machine.cycle.answer = .error cause ∧
        machine.cycle.state = machine.fetched machine.nextWord ∧
        ∀ signal ∈ machine.cycle.signals, ∃ text, signal = .line text
    | none => machine.cycle.answer = .ok () ∧ machine.cycle.state.WellFormed := by
  have next := wellFormed.fetched
  have fetch := wellFormed.fetch_eq
  have opcode : (machine.fetched machine.nextWord).processor.opcode = machine.nextWord := rfl
  cases decoded : Instruction.decode? machine.nextWord with
  | none =>
      simp only [fault?, decoded, cycle, fetch, perform, opcode]
      exact ⟨rfl, rfl, by simp [Outcome.fault]⟩
  | some instruction =>
      have executed := next.execute instruction
      simp only [fault?, decoded]
      -- A refusal depends on the stack alone, and a fetch does not touch it.
      have same : (machine.fetched machine.nextWord).refusal? instruction =
          machine.refusal? instruction := by
        cases instruction <;> rfl
      rw [same] at executed
      cases refused : machine.refusal? instruction with
      | some cause =>
          simp only [refused] at executed
          simp only [cycle, fetch, perform, opcode, decoded, executed]
          refine ⟨trivial, trivial, fun signal member => ?_⟩
          simp only [liveLines] at member
          split at member
          · exact ⟨_, List.mem_singleton.mp member⟩
          · cases member
      | none =>
          simp only [refused] at executed
          obtain ⟨following, signals, executed, kept⟩ := executed
          simp only [cycle, fetch, perform, opcode, decoded, executed]
          exact ⟨trivial, { kept with }⟩

/-- A cycle fails at a word of no instruction, at a call beyond the depth limit and at a
return without a call, and nowhere else. -/
theorem cycle_answer :
    (machine.cycle.answer = .error
        (.invalidOpcode (machine.fetched machine.nextWord).readout machine.processor.counter) ∧
      ∀ instruction : Instruction, instruction.word ≠ machine.nextWord) ∨
    (machine.cycle.answer = .error (.stackOverflow callDepth) ∧
      machine.stack.depth = callDepth ∧
      ∃ target, (Instruction.call target).word = machine.nextWord) ∨
    (machine.cycle.answer = .error .stackUnderflow ∧ machine.stack.depth = 0 ∧
      Instruction.ret.word = machine.nextWord) ∨
    (machine.cycle.answer = .ok () ∧
      ∃ instruction : Instruction, instruction.word = machine.nextWord ∧
        (∀ target, instruction = .call target → machine.stack.depth ≠ callDepth) ∧
        (instruction = .ret → machine.stack.depth ≠ 0)) := by
  have spec := wellFormed.cycle_spec
  have bound := machine.nextWord_lt
  cases decoded : Instruction.decode? machine.nextWord with
  | none =>
      simp only [fault?, decoded] at spec
      exact .inl ⟨spec.1, (Instruction.decode?_eq_none_iff bound).mp decoded⟩
  | some instruction =>
      have word := (Instruction.decode?_eq_some_iff bound).mp decoded
      simp only [fault?, decoded] at spec
      cases instruction with
      | call target =>
          rw [refusal?_call] at spec
          by_cases full : machine.stack.depth = callDepth
          · rw [if_pos full] at spec
            exact .inr (.inl ⟨spec.1, full, target, word⟩)
          · rw [if_neg full] at spec
            exact .inr (.inr (.inr ⟨spec.1, _, word, fun _ _ => full, nofun⟩))
      | ret =>
          rw [refusal?_ret] at spec
          by_cases empty : machine.stack.depth = 0
          · rw [if_pos empty] at spec
            exact .inr (.inr (.inl ⟨spec.1, empty, word⟩))
          · rw [if_neg empty] at spec
            exact .inr (.inr (.inr ⟨spec.1, _, word, nofun, fun _ => empty⟩))
      | _ => exact .inr (.inr (.inr ⟨spec.1, _, word, nofun, nofun⟩))

theorem cycle_invalidOpcode_iff :
    (∃ readout address, machine.cycle.answer = .error (.invalidOpcode readout address)) ↔
      ∀ instruction : Instruction, instruction.word ≠ machine.nextWord := by
  rcases wellFormed.cycle_answer with ⟨answer, unknown⟩ | ⟨answer, _, target, word⟩ |
    ⟨answer, _, word⟩ | ⟨answer, instruction, word, _⟩
  · exact ⟨fun _ => unknown, fun _ => ⟨_, _, answer⟩⟩
  · refine ⟨fun ⟨_, _, invalid⟩ => ?_, fun unknown => absurd word (unknown _)⟩
    cases answer.symm.trans invalid
  · refine ⟨fun ⟨_, _, invalid⟩ => ?_, fun unknown => absurd word (unknown _)⟩
    cases answer.symm.trans invalid
  · refine ⟨fun ⟨_, _, invalid⟩ => ?_, fun unknown => absurd word (unknown _)⟩
    cases answer.symm.trans invalid

theorem cycle_stackOverflow_iff :
    (∃ limit, machine.cycle.answer = .error (.stackOverflow limit)) ↔
      (∃ target, (Instruction.call target).word = machine.nextWord) ∧
        machine.stack.depth = callDepth := by
  rcases wellFormed.cycle_answer with ⟨answer, unknown⟩ | ⟨answer, full, target, word⟩ |
    ⟨answer, _, word⟩ | ⟨answer, instruction, word, room, _⟩
  · refine ⟨fun ⟨_, overflow⟩ => ?_, fun ⟨⟨_, word⟩, _⟩ => absurd word (unknown _)⟩
    cases answer.symm.trans overflow
  · exact ⟨fun _ => ⟨⟨target, word⟩, full⟩, fun _ => ⟨_, answer⟩⟩
  · refine ⟨fun ⟨_, overflow⟩ => ?_, fun ⟨⟨_, call⟩, _⟩ => ?_⟩
    · cases answer.symm.trans overflow
    · cases Instruction.word_injective (word.trans call.symm)
  · refine ⟨fun ⟨_, overflow⟩ => ?_, fun ⟨⟨target, call⟩, full⟩ => ?_⟩
    · cases answer.symm.trans overflow
    · exact absurd full (room target (Instruction.word_injective (word.trans call.symm)))

theorem cycle_stackUnderflow_iff :
    machine.cycle.answer = .error .stackUnderflow ↔
      Instruction.ret.word = machine.nextWord ∧ machine.stack.depth = 0 := by
  rcases wellFormed.cycle_answer with ⟨answer, unknown⟩ | ⟨answer, _, target, word⟩ |
    ⟨answer, empty, word⟩ | ⟨answer, instruction, word, _, held⟩
  · refine ⟨fun underflow => ?_, fun ⟨word, _⟩ => absurd word (unknown _)⟩
    cases answer.symm.trans underflow
  · refine ⟨fun underflow => ?_, fun ⟨ret, _⟩ => ?_⟩
    · cases answer.symm.trans underflow
    · cases Instruction.word_injective (word.trans ret.symm)
  · exact ⟨fun _ => ⟨word, empty⟩, fun _ => answer⟩
  · refine ⟨fun underflow => ?_, fun ⟨ret, empty⟩ => ?_⟩
    · cases answer.symm.trans underflow
    · exact absurd empty (held (Instruction.word_injective (word.trans ret.symm)))

theorem cycle_of_error {cause : Fault} (failed : machine.cycle.answer = .error cause) :
    ((∃ readout, cause = .invalidOpcode readout machine.processor.counter ∧
        readout.opcode = machine.nextWord) ∨
      cause = .stackOverflow callDepth ∨ cause = .stackUnderflow) ∧
    machine.cycle.state = machine.fetched machine.nextWord ∧
    ∀ signal ∈ machine.cycle.signals, ∃ text, signal = .line text := by
  constructor
  · rcases wellFormed.cycle_answer with ⟨answer, _⟩ | ⟨answer, _⟩ | ⟨answer, _⟩ | ⟨answer, _⟩
    · cases failed.symm.trans answer
      exact .inl ⟨_, rfl, rfl⟩
    · cases failed.symm.trans answer
      exact .inr (.inl rfl)
    · cases failed.symm.trans answer
      exact .inr (.inr rfl)
    · cases failed.symm.trans answer
  · have spec := wellFormed.cycle_spec
    cases expected : machine.fault? with
    | none =>
        simp only [expected, failed] at spec
        cases spec.1
    | some _ =>
        simp only [expected] at spec
        exact spec.2

theorem cycleLaw : machine.CycleLaw where
  invalidOpcode := wellFormed.cycle_invalidOpcode_iff
  stackOverflow := wellFormed.cycle_stackOverflow_iff
  stackUnderflow := wellFormed.cycle_stackUnderflow_iff
  cause := fun _ failed => (wellFormed.cycle_of_error failed).1
  state := fun _ failed => (wellFormed.cycle_of_error failed).2.1
  silent := fun _ failed => (wellFormed.cycle_of_error failed).2.2

theorem cycle : machine.cycle.state.WellFormed := by
  have spec := wellFormed.cycle_spec
  cases expected : machine.fault? with
  | none =>
      simp only [expected] at spec
      exact spec.2
  | some _ =>
      simp only [expected] at spec
      rw [spec.2.1]
      exact wellFormed.fetched

end WellFormed

end Chip8.Machine
