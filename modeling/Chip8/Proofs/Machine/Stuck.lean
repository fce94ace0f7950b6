import Chip8.Proofs.Machine.Counter
import Chip8.Proofs.Machine.Interleaving
import Chip8.Proofs.Machine.Reachable

/-!
# Machines that are stuck

An instruction that leaves the counter at its own address is a jump, a call or
a return, unless it waits for a key. A machine that has jumped to itself does
so for ever, whatever timers count and keys change. A call that leads to itself
fills the stack and a return to itself empties it, so neither can be repeated
more often than the stack is deep.
-/

set_option autoImplicit false

namespace Chip8

namespace Instruction

def isJump : Instruction → Bool
  | jump _ | jumpOffset _ => true
  | _ => false

def transfers : Instruction → Bool
  | jump _ | jumpOffset _ | call _ | ret => true
  | _ => false

end Instruction

namespace Machine

/-- What a program has brought about is the same in both machines, and so is its next address. -/
structure Unmoved (before after : Machine) : Prop where
  counter : after.processor.counter = before.processor.counter
  registers : after.processor.registers = before.processor.registers
  index : after.processor.index = before.processor.index
  stack : after.stack = before.stack
  memory : after.memory = before.memory
  screen : after.screen = before.screen

namespace Unmoved

theorem refl (machine : Machine) : Unmoved machine machine := ⟨rfl, rfl, rfl, rfl, rfl, rfl⟩

theorem trans {first second third : Machine} (before : Unmoved first second)
    (after : Unmoved second third) : Unmoved first third where
  counter := after.counter.trans before.counter
  registers := after.registers.trans before.registers
  index := after.index.trans before.index
  stack := after.stack.trans before.stack
  memory := after.memory.trans before.memory
  screen := after.screen.trans before.screen

end Unmoved

theorem nextWord_of_same {before after : Machine} (memory : after.memory = before.memory)
    (counter : after.processor.counter = before.processor.counter) :
    after.nextWord = before.nextWord := by
  simp only [nextWord, memory, counter]

def Stuck (machine : Machine) : Prop :=
  ∃ instruction, Instruction.decode? machine.nextWord = some instruction ∧
    instruction.isJump = true ∧ machine.destination instruction = machine.processor.counter

theorem Stuck.of_same {before after : Machine} (stuck : before.Stuck)
    (memory : after.memory = before.memory)
    (counter : after.processor.counter = before.processor.counter)
    (registers : after.processor.registers = before.processor.registers)
    (dialect : after.dialect = before.dialect) : after.Stuck := by
  obtain ⟨instruction, decoded, jumps, stays⟩ := stuck
  have destination : after.destination instruction = before.destination instruction := by
    cases instruction with
    | jump => rfl
    | jumpOffset target =>
        have same : after.offset target = before.offset target := by
          rw [offset, offset, register, register, dialect, registers]
        exact congrArg (fun value : UInt8 => wrapAddress (value.toNat + target.val)) same
    | _ => cases jumps
  refine ⟨instruction, ?_, jumps, ?_⟩
  · rw [nextWord_of_same memory counter]
    exact decoded
  · rw [destination, counter]
    exact stays

variable {machine : Machine}

theorem counter_cycle_of_completed (wellFormed : machine.WellFormed) {instruction : Instruction}
    (decoded : Instruction.decode? machine.nextWord = some instruction)
    (completed : machine.cycle.answer = .ok ()) :
    machine.cycle.state.processor.counter =
      (machine.fetched machine.nextWord).destination instruction := by
  obtain ⟨other, next, told, sameWord, executed, state⟩ := wellFormed.cycle_completed completed
  cases decoded.symm.trans sameWord
  have counter := counter_execute executed
  rw [state]
  exact counter

theorem cycle_of_jump (wellFormed : machine.WellFormed) {instruction : Instruction}
    (decoded : Instruction.decode? machine.nextWord = some instruction)
    (jumps : instruction.isJump = true) : machine.cycle.answer = .ok () := by
  have spec := wellFormed.cycle_spec
  cases instruction with
  | jump | jumpOffset =>
      simp only [fault?, decoded] at spec
      exact spec.1
  | _ => cases jumps

theorem Stuck.cycle (wellFormed : machine.WellFormed) (stuck : machine.Stuck) :
    machine.cycle.answer = .ok () ∧ Unmoved machine machine.cycle.state := by
  obtain ⟨instruction, decoded, jumps, stays⟩ := stuck
  have completed := cycle_of_jump wellFormed decoded jumps
  have counter := counter_cycle_of_completed wellFormed decoded completed
  have same : (machine.fetched machine.nextWord).destination instruction =
      machine.destination instruction := by
    cases instruction with
    | jump | jumpOffset => rfl
    | _ => cases jumps
  rw [same, stays] at counter
  obtain ⟨other, next, told, sameWord, executed, state⟩ := wellFormed.cycle_completed completed
  cases decoded.symm.trans sameWord
  refine ⟨completed, counter, ?_, ?_, ?_, ?_, ?_⟩
  all_goals
    rw [state]
    cases instruction with
    | jump | jumpOffset =>
        cases executed
        rfl
    | _ => cases jumps

theorem Stuck.operate (wellFormed : machine.WellFormed) (stuck : machine.Stuck)
    {operation : Operation} (ambient : operation.isAmbient) :
    Unmoved machine (machine.operate operation).state ∧
      (machine.operate operation).state.Stuck := by
  have unmoved : Unmoved machine (machine.operate operation).state ∧
      (machine.operate operation).state.dialect = machine.dialect := by
    cases operation with
    | reset | loadRom | setDialect => cases ambient
    | tick => exact ⟨⟨rfl, rfl, rfl, rfl, rfl, rfl⟩, rfl⟩
    | setKey number pressed =>
        obtain ⟨keypad, state, _⟩ := machine.operate_setKey number pressed
        rw [state]
        exact ⟨⟨rfl, rfl, rfl, rfl, rfl, rfl⟩, rfl⟩
    | cycle =>
        obtain ⟨_, _, _, _, _, context⟩ := machine.context_cycle
        exact ⟨(stuck.cycle wellFormed).2, congrArg Context.dialect context⟩
  obtain ⟨unmoved, dialect⟩ := unmoved
  exact ⟨unmoved, stuck.of_same unmoved.memory unmoved.counter unmoved.registers dialect⟩

/-- A machine that is stuck stays so, whatever timers count and keys change. -/
theorem Stuck.after (wellFormed : machine.WellFormed) (stuck : machine.Stuck)
    {history : List Operation} (ambient : ∀ operation ∈ history, operation.isAmbient) :
    Unmoved machine (machine.after history) ∧ (machine.after history).Stuck := by
  induction history generalizing machine with
  | nil => exact ⟨.refl machine, stuck⟩
  | cons operation rest ih =>
      obtain ⟨first, others⟩ := List.forall_mem_cons.mp ambient
      obtain ⟨unmoved, still⟩ := stuck.operate wellFormed first
      obtain ⟨later, final⟩ := ih (wellFormed.operate operation) still others
      exact ⟨unmoved.trans later, final⟩

/-- So many instructions in a row have left the counter where it is. They were all the one that is
still next, since none of them has touched the memory. -/
inductive HasIdled (machine : Machine) : Nat → Prop where
  | never : HasIdled machine 0
  | jumped {instruction : Instruction} {count : Nat} :
      Instruction.decode? machine.nextWord = some instruction → instruction.isJump = true →
      HasIdled machine count
  | called {target : Address} {count : Nat} :
      Instruction.decode? machine.nextWord = some (.call target) →
      count ≤ machine.stack.depth → HasIdled machine count
  | returned {count : Nat} :
      Instruction.decode? machine.nextWord = some .ret →
      machine.stack.depth + count ≤ callDepth → HasIdled machine count

theorem HasIdled.of_same {before after : Machine} {count : Nat} (idled : before.HasIdled count)
    (memory : after.memory = before.memory) (stack : after.stack = before.stack)
    (counter : after.processor.counter = before.processor.counter) : after.HasIdled count := by
  have word := nextWord_of_same memory counter
  cases idled with
  | never => exact .never
  | jumped decoded jumps => exact .jumped (by rw [word]; exact decoded) jumps
  | called decoded held =>
      exact .called (by rw [word]; exact decoded) (by rw [stack]; exact held)
  | returned decoded room =>
      exact .returned (by rw [word]; exact decoded) (by rw [stack]; exact room)

/-- An instruction that sets no counter passes over the next one or leads to it. -/
theorem destination_of_onward {instruction : Instruction}
    (onward : instruction.transfers = false) (answered : ∀ x, instruction ≠ .awaitKey x) :
    machine.destination instruction =
      if machine.skips instruction then wrapAddress (machine.processor.counter + 2)
      else machine.processor.counter := by
  cases instruction with
  | jump | jumpOffset | call | ret => cases onward
  | awaitKey x => exact absurd rfl (answered x)
  | _ => rfl

theorem transfers_of_idled (wellFormed : machine.WellFormed) {instruction : Instruction}
    (decoded : Instruction.decode? machine.nextWord = some instruction)
    (completed : machine.cycle.answer = .ok ()) (idled : World.idled machine.cycle.state = true) :
    instruction.transfers = true := by
  simp only [World.idled, Bool.and_eq_true, beq_iff_eq, Bool.not_eq_true', origin_cycle] at idled
  obtain ⟨stays, answered⟩ := idled
  have counter := counter_cycle_of_completed wellFormed decoded completed
  have behind : (machine.fetched machine.nextWord).processor.counter =
      wrapAddress (machine.processor.counter + 2) := rfl
  have bounds := wellFormed.counter.bounds
  rw [stays] at counter
  cases transfers : instruction.transfers with
  | true => rfl
  | false =>
      exfalso
      by_cases waits : ∃ x, instruction = .awaitKey x
      · obtain ⟨x, rfl⟩ := waits
        have flag := wellFormed.awaitingKey_cycle decoded completed
        have pressed : ¬machine.keypad.first?.isNone = true :=
          Bool.eq_false_iff.mp (flag.symm.trans answered)
        have next : machine.processor.counter = wrapAddress (machine.processor.counter + 2) :=
          counter.trans (if_neg pressed)
        simp only [wrapAddress, memorySize] at next
        omega
      · rw [destination_of_onward transfers fun x same => waits ⟨x, same⟩, behind] at counter
        simp only [wrapAddress, memorySize] at counter
        split at counter <;> omega

theorem depth_cycle_of_call (wellFormed : machine.WellFormed) {target : Address}
    (decoded : Instruction.decode? machine.nextWord = some (.call target))
    (completed : machine.cycle.answer = .ok ()) :
    machine.cycle.state.memory = machine.memory ∧
      machine.cycle.state.stack.depth = machine.stack.depth + 1 := by
  obtain ⟨other, next, told, sameWord, executed, state⟩ := wellFormed.cycle_completed completed
  cases decoded.symm.trans sameWord
  obtain ⟨stack, pushed, rfl⟩ := of_callTo (of_silent executed).1
  rw [state]
  exact ⟨rfl, congrArg List.length (CallStack.frames_of_push pushed)⟩

theorem depth_cycle_of_ret (wellFormed : machine.WellFormed)
    (decoded : Instruction.decode? machine.nextWord = some .ret)
    (completed : machine.cycle.answer = .ok ()) :
    machine.cycle.state.memory = machine.memory ∧
      machine.cycle.state.stack.depth + 1 = machine.stack.depth := by
  obtain ⟨other, next, told, sameWord, executed, state⟩ := wellFormed.cycle_completed completed
  cases decoded.symm.trans sameWord
  obtain ⟨address, stack, popped, rfl⟩ := of_returnBack (of_silent executed).1
  rw [state]
  exact ⟨rfl, (congrArg List.length (CallStack.frames_of_pop popped)).symm⟩

/-- One more instruction that idles. Beyond the depth of the stack it can only be a jump. -/
theorem HasIdled.cycle (wellFormed : machine.WellFormed) {count : Nat}
    (before : machine.HasIdled count) (completed : machine.cycle.answer = .ok ())
    (idled : World.idled machine.cycle.state = true) :
    machine.cycle.state.HasIdled (count + 1) ∧
      (callDepth < count + 1 → machine.cycle.state.Stuck) := by
  obtain ⟨instruction, _, _, decoded, _, _⟩ := wellFormed.cycle_completed completed
  have transfers := transfers_of_idled wellFormed decoded completed idled
  have counter := counter_cycle_of_completed wellFormed decoded completed
  have stays : machine.cycle.state.processor.counter = machine.processor.counter := by
    simp only [World.idled, Bool.and_eq_true, beq_iff_eq, origin_cycle] at idled
    exact idled.1
  have depth := wellFormed.stack.depth_le
  have depthLater := wellFormed.cycle.stack.depth_le
  -- Each call that idles takes a place on the stack, and each return gives one back.
  cases instruction with
  | jump | jumpOffset =>
      have stuck : machine.Stuck := ⟨_, decoded, rfl, counter.symm.trans stays⟩
      have ambient : Operation.cycle.isAmbient = true := rfl
      have still : machine.cycle.state.Stuck := (stuck.operate wellFormed ambient).2
      have ⟨_, decodedLater, jumps, _⟩ := still
      exact ⟨.jumped decodedLater jumps, fun _ => still⟩
  | call target =>
      obtain ⟨memory, pushed⟩ := depth_cycle_of_call wellFormed decoded completed
      have held : count ≤ machine.stack.depth := by
        cases before with
        | never => exact Nat.zero_le _
        | called _ held => exact held
        | returned other => cases decoded.symm.trans other
        | jumped other jumps =>
            cases decoded.symm.trans other
            cases jumps
      rw [← nextWord_of_same memory stays] at decoded
      exact ⟨.called decoded (by omega), fun deeper => by omega⟩
  | ret =>
      obtain ⟨memory, popped⟩ := depth_cycle_of_ret wellFormed decoded completed
      have room : machine.stack.depth + count ≤ callDepth := by
        cases before with
        | never => exact depth
        | called other => cases decoded.symm.trans other
        | returned _ room => exact room
        | jumped other jumps =>
            cases decoded.symm.trans other
            cases jumps
      rw [← nextWord_of_same memory stays] at decoded
      exact ⟨.returned decoded (by omega), fun deeper => by omega⟩
  | _ => cases transfers

end Machine

end Chip8
