import Chip8.Proofs.Machine.Footprint

/-!
# Where instructions lead

An instruction is carried out by a machine whose counter is already behind it.
It leaves the counter there unless it transfers control: a jump, a call or a
return sets it, a skip moves it on, and a key wait without an answer moves it
back. What else an instruction does makes no difference to the counter.
-/

set_option autoImplicit false

namespace Chip8.Machine

def skips (machine : Machine) : Instruction → Bool
  | .skipIfByte x byte => machine.register x == byte
  | .skipUnlessByte x byte => machine.register x != byte
  | .skipIfSame x y => machine.register x == machine.register y
  | .skipUnlessSame x y => machine.register x != machine.register y
  | .skipIfDown x => machine.keypad.isDown (machine.namedKey x)
  | .skipIfUp x => !machine.keypad.isDown (machine.namedKey x)
  | _ => false

def destination (machine : Machine) : Instruction → Int
  | .jump target | .call target => target.val
  | .jumpOffset target => wrapAddress ((machine.offset target).toNat + target.val)
  | .ret => machine.stack.frames.headD machine.processor.counter
  | .awaitKey _ =>
      if machine.keypad.first?.isNone then wrapAddress (machine.processor.counter - 2)
      else machine.processor.counter
  | instruction =>
      if machine.skips instruction then wrapAddress (machine.processor.counter + 2)
      else machine.processor.counter

variable {machine next : Machine} {told : List Signal}

theorem counter_returnBack (returned : machine.returnBack = .ok next) :
    next.processor.counter = machine.destination .ret := by
  obtain ⟨address, stack, popped, rfl⟩ := of_returnBack returned
  unfold destination
  rw [CallStack.frames_of_pop popped]
  rfl

theorem counter_execute {instruction : Instruction}
    (executed : machine.execute instruction = .ok (next, told)) :
    next.processor.counter = machine.destination instruction := by
  cases instruction with
  | clearScreen =>
      obtain ⟨rfl, _⟩ := of_clearScreen executed
      rfl
  | draw =>
      obtain ⟨positions, hit, rfl, _⟩ := of_drawSprite executed
      rfl
  | ret => exact counter_returnBack (of_silent executed).1
  | call =>
      obtain ⟨stack, _, rfl⟩ := of_callTo (of_silent executed).1
      rfl
  | readDelay =>
      rw [of_storeDelay (of_silent executed).1]
      rfl
  | storeDecimal =>
      obtain ⟨memory, rfl⟩ := of_storeDigits (of_silent executed).1
      rfl
  | storeBlock =>
      obtain ⟨memory, index, rfl⟩ := of_storeRegisters (of_silent executed).1
      rfl
  | loadBlock =>
      obtain ⟨registers, index, rfl⟩ := of_loadRegisters (of_silent executed).1
      rfl
  | skipIfByte | skipUnlessByte | skipIfSame | skipUnlessSame | skipIfDown | skipIfUp =>
      cases executed
      rw [skipIf_eq]
      rfl
  | bitOr | bitAnd | bitXor =>
      cases executed
      obtain ⟨registers, same⟩ := setBitwise_eq machine _ _
      rw [same]
      rfl
  | awaitKey =>
      cases executed
      rw [answerKey_eq]
      rfl
  | _ =>
      cases executed
      rfl

end Chip8.Machine
