import Chip8.Instruction.Decode
import Chip8.Instruction.Wording
import Chip8.Machine.Execute

/-!
# Cycles

One cycle fetches the number at the counter, moves the counter on, and carries
out the instruction that the number stands for. A cycle that fails has moved
the counter on and remembers the number and where it was fetched, and has
changed nothing else. A fetch that fails remembers only the address.

Live debugging prints each instruction before it takes effect, so the line
shows the processor as the instruction found it. Nothing is printed for a
number that is no instruction.
-/

set_option autoImplicit false

namespace Chip8.Machine

/-- The number at the counter: two bytes, the higher one first, the second one
from the start of memory when the first is the last. -/
def fetch (machine : Machine) : Except Fault Int := do
  let counter := machine.processor.counter
  let high ← machine.memory.read counter
  let low ← machine.memory.read (wrapAddress (counter + 1))
  return high.toNat * 256 + low.toNat

def liveLines (machine : Machine) (instruction : Instruction) : List Signal :=
  if machine.live then
    [.line (machine.readout.short machine.processor.origin
      (instruction.wording machine.dialect))]
  else []

/-- Carry out the number fetched last. -/
def perform (machine : Machine) : Outcome Machine Unit :=
  match Instruction.decode? machine.processor.opcode with
  | none => .fault machine (.invalidOpcode machine.readout machine.processor.origin)
  | some instruction =>
      let lines := machine.liveLines instruction
      match machine.execute instruction with
      | .error cause => { state := machine, signals := lines, answer := .error cause }
      | .ok (next, signals) => { state := next, signals := lines ++ signals, answer := .ok () }

def fetched (machine : Machine) (opcode : Int) : Machine :=
  { machine with processor.opcode := opcode, processor.origin := machine.processor.counter }.advance

/-- Fetch a number and carry it out. Only a completed cycle is counted. -/
def cycle (machine : Machine) : Outcome Machine Unit :=
  match machine.fetch with
  | .error cause =>
      .fault { machine with processor.origin := machine.processor.counter } cause
  | .ok opcode =>
      let performed := (machine.fetched opcode).perform
      match performed.answer with
      | .error _ => performed
      | .ok () =>
          { performed with
            state := { performed.state with
              processor.cycles := performed.state.processor.cycles + 1 } }

section

variable {machine : Machine} {opcode : Int} (fetched : machine.fetch = .ok opcode)

include fetched

theorem answer_cycle : machine.cycle.answer = (machine.fetched opcode).perform.answer := by
  simp only [cycle, fetched]
  split
  · rfl
  · rfl

theorem signals_cycle : machine.cycle.signals = (machine.fetched opcode).perform.signals := by
  simp only [cycle, fetched]
  split
  · rfl
  · rfl

/-- Behind its instruction a cycle does nothing but count, and only if it has completed. -/
theorem state_cycle :
    machine.cycle.state =
      if (machine.fetched opcode).perform.answer.isOk then
        { (machine.fetched opcode).perform.state with
          processor.cycles := (machine.fetched opcode).perform.state.processor.cycles + 1 }
      else (machine.fetched opcode).perform.state := by
  simp only [cycle, fetched]
  cases (machine.fetched opcode).perform.answer with
  | error cause => rfl
  | ok _ => rfl

end

end Chip8.Machine
