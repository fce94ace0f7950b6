import Chip8.Proofs.Machine.Interleaving

/-!
# Programs in two dialects

A trait decides about the few instructions that interpreters disagree on, and about some of them
only for some operands. Until a program meets an instruction that two dialects understand
differently, it cannot tell them apart: machines that differ in the dialect alone go through the
same states and execute the same instructions with the same endings.
-/

set_option autoImplicit false

namespace Chip8

/-- The two dialects disagree about the instruction. A shift within one register and an offset
jump that names the first register are the same in all of them. -/
def Instruction.isDisputed (first second : Dialect) : Instruction → Bool
  | shiftRight x y | shiftLeft x y => first.shift != second.shift && x != y
  | jumpOffset target => first.jump != second.jump && offsetRegister target != firstRegister
  | bitOr .. | bitAnd .. | bitXor .. => first.logic != second.logic
  | storeBlock _ | loadBlock _ => first.load != second.load
  | _ => false

def Executed.isDisputed (first second : Dialect) (executed : Executed) : Bool :=
  (Instruction.decode? executed.opcode).any (Instruction.isDisputed first second)

namespace Machine

def Operation.isSetDialect : Operation → Bool
  | .setDialect _ => true
  | _ => false

def speaking (machine : Machine) (dialect : Dialect) : Machine :=
  { machine with dialect := dialect }

section

variable (machine : Machine) (dialect : Dialect)

theorem agrees_of_undisputed {instruction : Instruction}
    (undisputed : instruction.isDisputed machine.dialect dialect = false) :
    instruction.Agrees machine { machine.context with dialect := dialect } := by
  cases instruction with
  | bitOr | bitAnd | bitXor | storeBlock | loadBlock =>
      exact (bne_eq_false_iff_eq.mp undisputed).symm
  | shiftRight x y | shiftLeft x y =>
      rcases Bool.and_eq_false_iff.mp undisputed with sameTrait | sameRegister
      · have same := bne_eq_false_iff_eq.mp sameTrait
        simp only [Instruction.Agrees, shifted, under, ← same]
        rfl
      · cases bne_eq_false_iff_eq.mp sameRegister
        simp only [Instruction.Agrees, shifted, ite_self, register_under]
  | jumpOffset target =>
      rcases Bool.and_eq_false_iff.mp undisputed with sameTrait | sameRegister
      · have same := bne_eq_false_iff_eq.mp sameTrait
        simp only [Instruction.Agrees, offset, under, ← same]
        rfl
      · have named := bne_eq_false_iff_eq.mp sameRegister
        simp only [Instruction.Agrees, offset, named, ite_self, register_under]
  | skipIfDown | skipIfUp | awaitKey | readDelay | setSound => rfl
  | _ => trivial

theorem execute_speaking {instruction : Instruction}
    (undisputed : instruction.isDisputed machine.dialect dialect = false) :
    (machine.speaking dialect).execute instruction =
      (machine.execute instruction).map fun ran => (ran.1.speaking dialect, ran.2) := by
  let context : Context := { machine.context with dialect := dialect }
  have spoken : machine.speaking dialect = machine.under context := rfl
  rw [spoken, execute_under machine context (machine.agrees_of_undisputed dialect undisputed)]
  cases executed : machine.execute instruction with
  | error cause => rfl
  | ok ran =>
      obtain ⟨next, told⟩ := ran
      have kept := context_execute executed
      have after : context.after machine instruction =
          { next.context with dialect := dialect } := by
        rw [kept]
        cases instruction with
        | _ => rfl
      simp only [Except.map, after]
      rfl

theorem perform_speaking
    (undisputed : (Instruction.decode? machine.processor.opcode).any
      (Instruction.isDisputed machine.dialect dialect) = false) :
    (machine.speaking dialect).perform.state = machine.perform.state.speaking dialect ∧
    (machine.speaking dialect).perform.answer = machine.perform.answer := by
  have opcode : (machine.speaking dialect).processor.opcode = machine.processor.opcode := rfl
  unfold perform
  rw [opcode]
  cases decoded : Instruction.decode? machine.processor.opcode with
  | none => exact ⟨rfl, rfl⟩
  | some instruction =>
      rw [decoded] at undisputed
      simp only [machine.execute_speaking dialect undisputed]
      cases machine.execute instruction with
      | error cause => exact ⟨rfl, rfl⟩
      | ok ran => exact ⟨rfl, rfl⟩

theorem cycle_speaking (undisputed : machine.executed.isDisputed machine.dialect dialect = false) :
    (machine.speaking dialect).cycle.state = machine.cycle.state.speaking dialect ∧
    (machine.speaking dialect).cycle.answer = machine.cycle.answer := by
  simp only [Executed.isDisputed, executed, opcode_cycle] at undisputed
  cases fetched : machine.fetch with
  | error cause =>
      have spoken : (machine.speaking dialect).fetch = .error cause := fetched
      simp only [cycle, fetched, spoken]
      exact ⟨rfl, rfl⟩
  | ok opcode =>
      have spoken : (machine.speaking dialect).fetch = .ok opcode := fetched
      have same : (machine.speaking dialect).fetched opcode =
          (machine.fetched opcode).speaking dialect := rfl
      rw [fetched] at undisputed
      obtain ⟨state, answer⟩ := (machine.fetched opcode).perform_speaking dialect undisputed
      rw [← same] at state answer
      rw [state_cycle fetched, state_cycle spoken, answer_cycle fetched, answer_cycle spoken, state,
        answer]
      refine ⟨?_, rfl⟩
      split
      · rfl
      · rfl

theorem executed_speaking
    (undisputed : machine.executed.isDisputed machine.dialect dialect = false) :
    (machine.speaking dialect).executed = machine.executed := by
  obtain ⟨state, answer⟩ := machine.cycle_speaking dialect undisputed
  simp only [executed, state, answer]
  rfl

theorem operate_speaking {operation : Operation} (otherThanCycle : operation ≠ .cycle)
    (kept : operation.isSetDialect = false) :
    ((machine.speaking dialect).operate operation).state =
      (machine.operate operation).state.speaking dialect := by
  cases operation with
  | cycle => exact absurd rfl otherThanCycle
  | setDialect => cases kept
  | reset | tick => rfl
  | loadRom rom =>
      have fresh : (machine.speaking dialect).reset =
          (machine.reset.1.speaking dialect, machine.reset.2) := rfl
      have memory : (machine.reset.1.speaking dialect).memory = machine.reset.1.memory := rfl
      simp only [operate, loadRom, fresh, memory]
      cases machine.reset.1.memory.loadRom rom programStart with
      | error cause => rfl
      | ok loaded => rfl
  | setKey number pressed =>
      have keypad : (machine.speaking dialect).keypad = machine.keypad := rfl
      simp only [operate, setKey, keypad]
      cases machine.keypad.set number pressed with
      | error cause => rfl
      | ok changed => rfl

theorem dialect_operate {operation : Operation} (kept : operation.isSetDialect = false) :
    (machine.operate operation).state.dialect = machine.dialect := by
  cases operation with
  | setDialect => cases kept
  | reset | tick => rfl
  | loadRom rom =>
      obtain ⟨_, state, _⟩ := machine.operate_loadRom rom
      rw [state]
      rfl
  | setKey number pressed =>
      obtain ⟨_, state, _⟩ := machine.operate_setKey number pressed
      rw [state]
  | cycle =>
      obtain ⟨_, _, _, _, _, same⟩ := machine.context_cycle
      exact congrArg Context.dialect same

theorem course_cons_of_ne {operation : Operation} (otherThanCycle : operation ≠ .cycle)
    {rest : List Operation} :
    machine.course (operation :: rest) = (machine.operate operation).state.course rest := by
  cases operation with
  | cycle => exact absurd rfl otherThanCycle
  | _ => rfl

theorem course_speaking {history : List Operation}
    (kept : ∀ operation ∈ history, operation.isSetDialect = false)
    (undisputed : ∀ executed ∈ machine.course history,
      executed.isDisputed machine.dialect dialect = false) :
    (machine.speaking dialect).course history = machine.course history ∧
    (machine.speaking dialect).after history = (machine.after history).speaking dialect := by
  induction history generalizing machine with
  | nil => exact ⟨rfl, rfl⟩
  | cons operation rest ih =>
      obtain ⟨first, others⟩ := List.forall_mem_cons.mp kept
      have same := machine.dialect_operate first
      rw [← same] at undisputed
      by_cases cycles : operation = .cycle
      · subst cycles
        obtain ⟨now, later⟩ := List.forall_mem_cons.mp undisputed
        rw [same] at now
        have executed := machine.executed_speaking dialect now
        have state := (machine.cycle_speaking dialect now).1
        obtain ⟨course, final⟩ := ih _ others later
        simp only [Machine.course, after, List.foldl_cons, operate, executed, state]
        exact ⟨congrArg (machine.executed :: ·) course, final⟩
      · have state := machine.operate_speaking dialect cycles first
        rw [machine.course_cons_of_ne cycles] at undisputed
        obtain ⟨course, final⟩ := ih _ others undisputed
        rw [course_cons_of_ne _ cycles, course_cons_of_ne _ cycles, after, after, List.foldl_cons,
          List.foldl_cons, state]
        exact ⟨course, final⟩

end

/-- Two machines that differ in nothing but the dialect stay so, and execute the same, as long as
no instruction has been met that the dialects disagree about. -/
theorem course_of_dialects {first second : Machine} {history : List Operation}
    (alike : second = { first with dialect := second.dialect })
    (kept : ∀ operation ∈ history, operation.isSetDialect = false)
    (undisputed : ∀ executed ∈ first.course history,
      executed.isDisputed first.dialect second.dialect = false) :
    second.course history = first.course history ∧
    second.after history = { first.after history with dialect := second.dialect } := by
  obtain ⟨course, final⟩ := first.course_speaking second.dialect kept undisputed
  have spoken : first.speaking second.dialect = second := alike.symm
  rw [spoken] at course final
  exact ⟨course, final⟩

/-- A machine with a program that shifts a register in place and then jumps by one that its
address names. -/
def speaker : Machine :=
  (assemble .plain (.scripted [7] 0) false).1.after
    [.loadRom [0x60, 0x05, 0x80, 0x0e, 0x61, 0x01, 0xb1, 0x00]]

theorem course_of_dialects_speaker :
    let first := speaker
    let second := speaker.speaking { shift := true, jump := true, logic := true, load := true }
    let history : List Operation := [.cycle, .tick, .cycle, .setKey 3 true, .cycle]
    second.course history = first.course history ∧
    second.after history = { first.after history with dialect := second.dialect } ∧
    (second.after history).register 0 = 10 ∧
    (first.after (history ++ [.cycle])).processor.counter = 0x10a ∧
    (second.after (history ++ [.cycle])).processor.counter = 0x101 := by
  intro first second history
  obtain ⟨undisputed, kept, jumps⟩ :
      (∀ executed ∈ first.course history,
        executed.isDisputed first.dialect second.dialect = false) ∧
      (∀ operation ∈ history, operation.isSetDialect = false) ∧
      (second.after history).register 0 = 10 ∧
      (first.after (history ++ [.cycle])).processor.counter = 0x10a ∧
      (second.after (history ++ [.cycle])).processor.counter = 0x101 := by
    decide +kernel
  obtain ⟨course, state⟩ := course_of_dialects (rfl : second = _) kept undisputed
  exact ⟨course, state, jumps⟩

end Machine

end Chip8
