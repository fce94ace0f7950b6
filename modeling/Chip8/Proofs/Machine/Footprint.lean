import Chip8.Proofs.Machine.Context

/-!
# Footprints

Each operation of a machine writes to a few of its parts. What it leaves is the
machine before with other values in these parts, so everything else about the
operation can be read off that form.
-/

set_option autoImplicit false

namespace Chip8

namespace Instruction

def brackets : Instruction → Bool
  | call _ | ret => true
  | _ => false

def draws : Instruction → Bool
  | clearScreen | draw .. => true
  | _ => false

end Instruction

theorem CallStack.frames_of_pop {stack popped : CallStack} {address : Int}
    (taken : stack.pop = .ok (address, popped)) : stack.frames = address :: popped.frames := by
  unfold pop at taken
  split at taken
  · cases taken
  · next frames =>
      cases taken
      exact frames

theorem CallStack.frames_of_push {stack pushed : CallStack} {address : Int}
    (accepted : stack.push address = .ok pushed) : pushed.frames = address :: stack.frames := by
  unfold push at accepted
  split at accepted
  · cases accepted
  · cases accepted
    rfl

namespace Machine

theorem of_map {α β : Type} {result : Except Fault α} {change : α → β} {next : β}
    (mapped : result.map change = .ok next) :
    ∃ value, result = .ok value ∧ change value = next := by
  cases result with
  | error cause => cases mapped
  | ok value =>
      cases mapped
      exact ⟨value, rfl, rfl⟩

section

variable (machine : Machine)

theorem skipIf_eq (condition : Bool) :
    machine.skipIf condition =
      { machine with
        processor.counter :=
          if condition then wrapAddress (machine.processor.counter + 2)
          else machine.processor.counter } := by
  cases condition with
  | false => rfl
  | true => rfl

theorem setBitwise_eq (x : Register) (value : UInt8) :
    ∃ registers, machine.setBitwise x value =
      { machine with processor.registers := registers } := by
  unfold setBitwise
  split
  · exact ⟨_, rfl⟩
  · exact ⟨_, rfl⟩

theorem passBlock_eq (x : Register) :
    ∃ index, machine.passBlock x = { machine with processor.index := index } := by
  unfold passBlock
  split
  · exact ⟨_, rfl⟩
  · exact ⟨_, rfl⟩

theorem answerKey_eq (x : Register) :
    machine.answerKey x =
      { machine with
        processor := { machine.processor with
          registers :=
            match machine.keypad.first? with
            | none => machine.processor.registers
            | some key => (machine.setRegister x (UInt8.ofNat key)).processor.registers
          counter :=
            if machine.keypad.first?.isNone then wrapAddress (machine.processor.counter - 2)
            else machine.processor.counter
          awaitingKey := machine.keypad.first?.isNone } } := by
  unfold answerKey
  cases machine.keypad.first? with
  | none => rfl
  | some key => rfl

end

variable {machine next : Machine} {x y : Register} {told : List Signal}

theorem of_clearScreen (cleared : machine.execute .clearScreen = .ok (next, told)) :
    next = { machine with screen := machine.screen.clear.state } ∧
      told = machine.screen.clear.signals := by
  simp only [execute, bind, Except.bind] at cleared
  split at cleared
  · cases cleared
  · cases cleared
    exact ⟨rfl, rfl⟩

theorem of_drawSprite {rows : Nat} (drawn : machine.drawSprite x y rows = .ok (next, told)) :
    ∃ positions hit, next =
        { machine with screen := (machine.screen.toggleAll positions).state }.setFlag hit ∧
      told = (machine.screen.toggleAll positions).signals := by
  simp only [drawSprite, bind, Except.bind] at drawn
  split at drawn
  · cases drawn
  · split at drawn
    · cases drawn
    · cases drawn
      exact ⟨_, _, rfl, rfl⟩

theorem of_storeDelay (stored : machine.storeDelay x = .ok next) :
    next = machine.setRegister x (UInt8.ofNat machine.processor.delay.toNat) := by
  simp only [storeDelay] at stored
  split at stored
  · cases stored
    rfl
  · cases stored

theorem of_storeDigits {value : Nat} (stored : machine.storeDigits value = .ok next) :
    ∃ memory, next = { machine with memory := memory } := by
  simp only [storeDigits, bind, Except.bind] at stored
  split at stored
  · cases stored
  · split at stored
    · cases stored
    · split at stored
      · cases stored
      · cases stored
        exact ⟨_, rfl⟩

theorem of_storeRegisters (stored : machine.storeRegisters x = .ok next) :
    ∃ memory index, next = { machine with memory := memory, processor.index := index } := by
  simp only [storeRegisters, bind, Except.bind] at stored
  split at stored
  · cases stored
  case h_2 memory _ =>
    cases stored
    obtain ⟨index, passed⟩ := passBlock_eq { machine with memory := memory } x
    exact ⟨memory, index, passed⟩

theorem of_loadRegisters (loaded : machine.loadRegisters x = .ok next) :
    ∃ registers index, next =
      { machine with
        processor := { machine.processor with registers := registers, index := index } } := by
  rw [loadRegisters_eq] at loaded
  obtain ⟨registers, _, rfl⟩ := of_map loaded
  obtain ⟨index, passed⟩ := passBlock_eq { machine with processor.registers := registers } x
  exact ⟨registers, index, passed⟩

theorem of_callTo {target : Address} (called : machine.callTo target = .ok next) :
    ∃ stack, machine.stack.push machine.processor.counter = .ok stack ∧
      next = { machine with stack := stack, processor.counter := target.val } := by
  obtain ⟨stack, pushed, rfl⟩ := of_map called
  exact ⟨stack, pushed, rfl⟩

theorem of_returnBack (returned : machine.returnBack = .ok next) :
    ∃ address stack, machine.stack.pop = .ok (address, stack) ∧
      next = { machine with stack := stack, processor.counter := address } := by
  obtain ⟨⟨address, stack⟩, popped, rfl⟩ := of_map returned
  exact ⟨address, stack, popped, rfl⟩

/-- What only some instructions write to is left alone by the others. -/
structure Footprint (machine : Machine) (instruction : Instruction) (next : Machine) : Prop where
  stack : instruction.brackets = false → next.stack = machine.stack
  screen : instruction.draws = false → next.screen = machine.screen

theorem footprint_execute {instruction : Instruction}
    (executed : machine.execute instruction = .ok (next, told)) :
    Footprint machine instruction next := by
  cases instruction with
  | clearScreen =>
      obtain ⟨rfl, _⟩ := of_clearScreen executed
      exact ⟨fun _ => rfl, nofun⟩
  | draw =>
      obtain ⟨positions, hit, rfl, _⟩ := of_drawSprite executed
      exact ⟨fun _ => rfl, nofun⟩
  | call =>
      obtain ⟨stack, _, rfl⟩ := of_callTo (of_silent executed).1
      exact ⟨nofun, fun _ => rfl⟩
  | ret =>
      obtain ⟨address, stack, _, rfl⟩ := of_returnBack (of_silent executed).1
      exact ⟨nofun, fun _ => rfl⟩
  | skipIfByte | skipUnlessByte | skipIfSame | skipUnlessSame | skipIfDown | skipIfUp =>
      cases executed
      rw [skipIf_eq]
      exact ⟨fun _ => rfl, fun _ => rfl⟩
  | bitOr | bitAnd | bitXor =>
      cases executed
      obtain ⟨registers, same⟩ := setBitwise_eq machine _ _
      rw [same]
      exact ⟨fun _ => rfl, fun _ => rfl⟩
  | readDelay =>
      rw [of_storeDelay (of_silent executed).1]
      exact ⟨fun _ => rfl, fun _ => rfl⟩
  | awaitKey =>
      cases executed
      rw [answerKey_eq]
      exact ⟨fun _ => rfl, fun _ => rfl⟩
  | storeDecimal =>
      obtain ⟨memory, rfl⟩ := of_storeDigits (of_silent executed).1
      exact ⟨fun _ => rfl, fun _ => rfl⟩
  | storeBlock =>
      obtain ⟨memory, index, rfl⟩ := of_storeRegisters (of_silent executed).1
      exact ⟨fun _ => rfl, fun _ => rfl⟩
  | loadBlock =>
      obtain ⟨registers, index, rfl⟩ := of_loadRegisters (of_silent executed).1
      exact ⟨fun _ => rfl, fun _ => rfl⟩
  | _ =>
      cases executed
      exact ⟨fun _ => rfl, fun _ => rfl⟩

end Machine

end Chip8
