import Chip8.Proofs.Machine.Stuck

/-!
# The flow of control

Where the counter of a machine is behind a cycle. The fetch has moved it on by one word when the
instruction is carried out. From there a skip moves it on by another word and a key wait without an
answer moves it back; a jump, a call and a return set it; and every other instruction leaves it.
-/

set_option autoImplicit false

namespace Chip8.Machine

inductive Skips (machine : Machine) : Instruction → Prop where
  | ifByte {x : Register} {byte : UInt8} :
      machine.register x = byte → Skips machine (.skipIfByte x byte)
  | unlessByte {x : Register} {byte : UInt8} :
      machine.register x ≠ byte → Skips machine (.skipUnlessByte x byte)
  | ifSame {x y : Register} :
      machine.register x = machine.register y → Skips machine (.skipIfSame x y)
  | unlessSame {x y : Register} :
      machine.register x ≠ machine.register y → Skips machine (.skipUnlessSame x y)
  | ifDown {x : Register} {key : Key} : key.val = (machine.register x).toNat % 16 →
      machine.keypad.isDown key = true → Skips machine (.skipIfDown x)
  | ifUp {x : Register} {key : Key} : key.val = (machine.register x).toNat % 16 →
      machine.keypad.isDown key = false → Skips machine (.skipIfUp x)

def GoesOn (machine : Machine) (instruction : Instruction) : Prop :=
  instruction.transfers = false ∧
    (∀ x, instruction = .awaitKey x → ∃ key, machine.keypad.isDown key = true) ∧
    ¬machine.Skips instruction

/-- The counter to which an instruction leads that is met at the counter of a machine. -/
structure Flow (machine : Machine) (instruction : Instruction) (counter : Int) : Prop where
  jump : ∀ target, instruction = .jump target → counter = target.val
  call : ∀ target, instruction = .call target → counter = target.val
  offset : ∀ target, instruction = .jumpOffset target →
    counter =
      (target.val + (machine.register
        (if machine.dialect.jump then Instruction.lastDigit (target / 256) else 0)).toNat) % 4096
  ret : instruction = .ret → machine.stack.toList.getLast? = some counter
  wait : ∀ x, instruction = .awaitKey x → (∀ key, machine.keypad.isDown key = false) →
    counter = machine.processor.counter
  skip : machine.Skips instruction → counter = (machine.processor.counter + 4) % 4096
  onward : machine.GoesOn instruction → counter = (machine.processor.counter + 2) % 4096

variable {machine : Machine} {instruction : Instruction}

theorem skips_iff : machine.Skips instruction ↔ machine.skips instruction = true := by
  constructor
  · intro skips
    cases skips with
    | ifByte equal | ifSame equal => exact beq_iff_eq.mpr equal
    | unlessByte differ | unlessSame differ => exact bne_iff_ne.mpr differ
    | ifDown named down =>
        rw [Fin.ext (b := machine.namedKey _) named] at down
        exact down
    | ifUp named up =>
        rw [Fin.ext (b := machine.namedKey _) named] at up
        exact congrArg not up
  · intro skips
    cases instruction with
    | skipIfByte => exact .ifByte (beq_iff_eq.mp skips)
    | skipUnlessByte => exact .unlessByte (bne_iff_ne.mp skips)
    | skipIfSame => exact .ifSame (beq_iff_eq.mp skips)
    | skipUnlessSame => exact .unlessSame (bne_iff_ne.mp skips)
    | skipIfDown => exact .ifDown rfl skips
    | skipIfUp x => exact .ifUp (rfl : (machine.namedKey x).val = _) (Bool.not_inj skips)
    | _ => cases skips

theorem skips_fetched (machine : Machine) (opcode : Int) (instruction : Instruction) :
    (machine.fetched opcode).skips instruction = machine.skips instruction := by
  cases instruction with
  | _ => rfl

theorem goesOn_fetched (opcode : Int) (goesOn : machine.GoesOn instruction) :
    (machine.fetched opcode).GoesOn instruction := by
  obtain ⟨onward, answered, still⟩ := goesOn
  refine ⟨onward, answered, fun skips => still (skips_iff.mpr ?_)⟩
  exact (skips_fetched machine opcode instruction).symm.trans (skips_iff.mp skips)

theorem transfers_of_skips (skips : machine.Skips instruction) :
    instruction.transfers = false ∧ ∀ x, instruction ≠ .awaitKey x := by
  cases skips with
  | _ => exact ⟨rfl, nofun⟩

theorem destination_awaitKey_of_down {x : Register} {key : Key}
    (down : machine.keypad.isDown key = true) :
    machine.destination (.awaitKey x) = machine.processor.counter := by
  have answered : ¬machine.keypad.first?.isNone = true := by
    rw [Option.isNone_iff_eq_none, Keypad.first?_eq_none_iff]
    intro up
    cases down.symm.trans (up key)
  exact if_neg answered

theorem destination_of_goesOn (goesOn : machine.GoesOn instruction) :
    machine.destination instruction = machine.processor.counter := by
  obtain ⟨onward, answered, still⟩ := goesOn
  by_cases waits : ∃ x, instruction = .awaitKey x
  · obtain ⟨x, rfl⟩ := waits
    obtain ⟨key, down⟩ := answered x rfl
    exact destination_awaitKey_of_down down
  · rw [destination_of_onward onward fun x same => waits ⟨x, same⟩]
    exact if_neg (mt skips_iff.mpr still)

namespace WellFormed

variable (wellFormed : machine.WellFormed)

include wellFormed

theorem newest_of_ret (decoded : Instruction.decode? machine.nextWord = some .ret)
    (completed : machine.cycle.answer = .ok ()) :
    machine.stack.toList.getLast? = some machine.cycle.state.processor.counter := by
  obtain ⟨other, next, told, sameWord, executed, state⟩ := wellFormed.cycle_completed completed
  cases decoded.symm.trans sameWord
  obtain ⟨address, stack, popped, rfl⟩ := of_returnBack (of_silent executed).1
  have held : machine.stack.toList = stack.toList ++ [address] := CallStack.toList_pop popped
  rw [held, state, List.getLast?_concat]

theorem flow (decoded : Instruction.decode? machine.nextWord = some instruction)
    (completed : machine.cycle.answer = .ok ()) :
    machine.Flow instruction machine.cycle.state.processor.counter := by
  have counter := counter_cycle_of_completed wellFormed decoded completed
  have behind : (machine.fetched machine.nextWord).processor.counter =
      wrapAddress (machine.processor.counter + 2) := rfl
  -- Registers and keys are those before the fetch, which moves the counter on alone.
  constructor
  case jump | call =>
    rintro target rfl
    exact counter
  case offset =>
    rintro target rfl
    rw [counter, Int.add_comm]
    rfl
  case ret =>
    rintro rfl
    exact wellFormed.newest_of_ret decoded completed
  case wait =>
    rintro x rfl up
    rw [wellFormed.state_cycle_of_unanswered decoded (machine.keypad.first?_eq_none_iff.mpr up)]
  case skip =>
    intro skips
    obtain ⟨onward, answered⟩ := transfers_of_skips skips
    have holds := (skips_fetched machine machine.nextWord instruction).trans (skips_iff.mp skips)
    rw [counter, destination_of_onward onward answered, if_pos holds, behind]
    simp only [wrapAddress, memorySize]
    omega
  case onward =>
    intro goesOn
    rw [counter, destination_of_goesOn (goesOn_fetched machine.nextWord goesOn), behind]
    rfl

end WellFormed

/-- A cycle that completes leads where the instruction of the word at the counter leads. -/
theorem flow_of_cycle (reachable : machine.Reachable) (completed : machine.cycle.answer = .ok ()) :
    ∃ instruction : Instruction, instruction.word = machine.nextWord ∧
      machine.Flow instruction machine.cycle.state.processor.counter := by
  obtain ⟨instruction, _, _, decoded, _⟩ := reachable.wellFormed.cycle_completed completed
  exact ⟨instruction, (Instruction.decode?_eq_some_iff machine.nextWord_lt).mp decoded,
    reachable.wellFormed.flow decoded completed⟩

/-- A machine about to jump beyond the end of memory, by the register that the target names. -/
def vaulter : Machine :=
  (assemble { jump := true } (.scripted [] 0) false).1.after
    [.loadRom [0x6f, 0x05, 0xbf, 0xff], .cycle]

theorem flow_of_cycle_vaulter :
    vaulter.cycle.answer = .ok () ∧ vaulter.cycle.state.processor.counter = 4 ∧
    ∃ instruction : Instruction, instruction.word = vaulter.nextWord ∧
      vaulter.Flow instruction 4 := by
  obtain ⟨completed, counter⟩ : vaulter.cycle.answer.toOption = some () ∧
      vaulter.cycle.state.processor.counter = 4 := by decide +kernel
  have reachable : vaulter.Reachable := Reachable.after (.assembled _ _ _) _
  have flow := flow_of_cycle reachable (answer_eq_ok completed)
  rw [counter] at flow
  exact ⟨answer_eq_ok completed, counter, flow⟩

end Chip8.Machine
