import Chip8.Machine.Cycle
import Chip8.Proofs.Results
import Chip8.Proofs.Screen

/-!
# Well-formed machines

The ranges that running programs keep: addresses of twelve bits in the
counter, the index and the stack, bytes in the timers, a memory of full size
and a well-formed screen. From such a machine every instruction succeeds and
keeps the ranges, but for a call beyond the depth limit and a return without a
call.
-/

set_option autoImplicit false

namespace Chip8

def IsAddress (address : Int) : Prop := 0 ≤ address ∧ address < memorySize

def IsByte (value : Int) : Prop := 0 ≤ value ∧ value ≤ 255

theorem IsAddress.bounds {address : Int} (isAddress : IsAddress address) :
    0 ≤ address ∧ address ≤ 0xfff := by
  simp only [IsAddress, memorySize] at isAddress
  omega

theorem isAddress_wrapAddress (address : Int) : IsAddress (wrapAddress address) := by
  simp only [IsAddress, wrapAddress, memorySize]
  omega

theorem isAddress_val (address : Address) : IsAddress address.val := by
  simp only [IsAddress, memorySize]
  omega

theorem isByte_toNat (byte : UInt8) : IsByte byte.toNat := by
  have := byte.toNat_lt
  simp only [IsByte]
  omega

structure CallStack.WellFormed (stack : CallStack) : Prop where
  limit_eq : stack.limit = callDepth
  depth_le : stack.depth ≤ callDepth
  addresses : ∀ address ∈ stack.frames, IsAddress address

namespace CallStack.WellFormed

variable {stack : CallStack} (wellFormed : stack.WellFormed)

include wellFormed

theorem push {address : Int} (room : stack.depth ≠ callDepth) (isAddress : IsAddress address) :
    ∃ pushed, stack.push address = .ok pushed ∧ pushed.WellFormed := by
  have limit := wellFormed.limit_eq
  have depth := wellFormed.depth_le
  have accepted : stack.push address = .ok { stack with frames := address :: stack.frames } := by
    rw [CallStack.push, if_neg (by omega)]
  refine ⟨_, accepted, limit, ?_, List.forall_mem_cons.mpr ⟨isAddress, wellFormed.addresses⟩⟩
  simp only [CallStack.depth, List.length_cons] at room depth ⊢
  omega

theorem push_of_full {address : Int} (full : stack.depth = callDepth) :
    stack.push address = .error (.stackOverflow callDepth) := by
  have limit := wellFormed.limit_eq
  rw [CallStack.push, if_pos (by omega), limit]

theorem pop (held : stack.depth ≠ 0) :
    ∃ address popped, stack.pop = .ok (address, popped) ∧ popped.WellFormed ∧
      IsAddress address := by
  have depth := wellFormed.depth_le
  have addresses := wellFormed.addresses
  cases frames : stack.frames with
  | nil => simp [CallStack.depth, frames] at held
  | cons address older =>
      have taken : stack.pop = .ok (address, { stack with frames := older }) := by
        simp only [CallStack.pop, frames]
      rw [frames, List.forall_mem_cons] at addresses
      refine ⟨_, _, taken, ⟨wellFormed.limit_eq, ?_, addresses.2⟩, addresses.1⟩
      simp only [CallStack.depth, frames, List.length_cons] at depth ⊢
      omega

end CallStack.WellFormed

theorem CallStack.pop_of_empty {stack : CallStack} (empty : stack.depth = 0) :
    stack.pop = .error .stackUnderflow := by
  have frames : stack.frames = [] := List.eq_nil_of_length_eq_zero empty
  simp only [CallStack.pop, frames]

namespace Machine

structure WellFormed (machine : Machine) : Prop where
  memory_size : machine.memory.size = memorySize
  stack : machine.stack.WellFormed
  screen : machine.screen.WellFormed
  resolution : machine.screen.resolution = ⟨Screen.columns, Screen.rowCount⟩
  counter : IsAddress machine.processor.counter
  origin : IsAddress machine.processor.origin
  index : IsAddress machine.processor.index
  delay : IsByte machine.processor.delay
  sound : IsByte machine.processor.sound
  opcode : 0 ≤ machine.processor.opcode ∧ machine.processor.opcode < 65536

private theorem write_of_size {memory : Memory} (size : memory.size = memorySize)
    {address : Int} (isAddress : IsAddress address) {value : Int} (isByte : IsByte value) :
    ∃ written, memory.write address value = .ok written ∧ written.size = memorySize := by
  have inRange : memory.InRange address := by
    rw [Memory.InRange, size]
    exact isAddress
  obtain ⟨written, stored, same, -⟩ := Memory.write_of_inRange inRange isByte
  exact ⟨written, stored, same.trans size⟩

theorem isAddress_indexed (machine : Machine) (places : Nat) :
    IsAddress (machine.indexed places) :=
  isAddress_wrapAddress _

def refusal? (machine : Machine) : Instruction → Option Fault
  | .call _ => if machine.stack.depth = callDepth then some (.stackOverflow callDepth) else none
  | .ret => if machine.stack.depth = 0 then some .stackUnderflow else none
  | _ => none

theorem returnBack_of_empty {machine : Machine} (empty : machine.stack.depth = 0) :
    machine.returnBack = .error .stackUnderflow :=
  congrArg (Except.map _) (CallStack.pop_of_empty empty)

theorem refusal?_call (machine : Machine) (target : Address) :
    machine.refusal? (.call target) =
      if machine.stack.depth = callDepth then some (.stackOverflow callDepth) else none :=
  rfl

theorem refusal?_ret (machine : Machine) :
    machine.refusal? .ret = if machine.stack.depth = 0 then some .stackUnderflow else none :=
  rfl

namespace WellFormed

variable {machine : Machine} (wellFormed : machine.WellFormed)

include wellFormed

theorem inRange {address : Int} (isAddress : IsAddress address) :
    machine.memory.InRange address := by
  rw [Memory.InRange, wellFormed.memory_size]
  exact isAddress

theorem setRegister (x : Register) (value : UInt8) : (machine.setRegister x value).WellFormed :=
  { wellFormed with }

theorem setIndex {index : Int} (isAddress : IsAddress index) :
    (machine.setIndex index).WellFormed :=
  { wellFormed with index := isAddress }

theorem jumpTo {target : Int} (isAddress : IsAddress target) :
    (machine.jumpTo target).WellFormed :=
  { wellFormed with counter := isAddress }

theorem advance : machine.advance.WellFormed :=
  { wellFormed with counter := isAddress_wrapAddress _ }

theorem skipIf (condition : Bool) : (machine.skipIf condition).WellFormed := by
  cases condition with
  | false => exact wellFormed
  | true => exact wellFormed.advance

theorem setBitwise (x : Register) (value : UInt8) : (machine.setBitwise x value).WellFormed := by
  simp only [Machine.setBitwise]
  split
  · exact (wellFormed.setRegister x value).setRegister _ _
  · exact wellFormed.setRegister x value

theorem answerKey (x : Register) : (machine.answerKey x).WellFormed := by
  simp only [Machine.answerKey]
  split
  · exact { wellFormed with counter := isAddress_wrapAddress _ }
  · exact { wellFormed with }

theorem storeDelay (x : Register) :
    ∃ next, machine.storeDelay x = .ok next ∧ next.WellFormed := by
  refine ⟨machine.setRegister x (UInt8.ofNat machine.processor.delay.toNat), ?_,
    wellFormed.setRegister x _⟩
  exact if_pos wellFormed.delay

theorem sprite_eq (rows : Nat) :
    machine.sprite rows =
      .ok ((List.range rows).map fun row => machine.memory.byteAt (machine.indexed row)) := by
  have read (row : Nat) : machine.memory.read (machine.indexed row) =
      .ok (machine.memory.byteAt (machine.indexed row)) :=
    Memory.read_of_inRange (wellFormed.inRange (isAddress_wrapAddress _))
  simp only [sprite, read]
  exact List.mapM_pure

theorem drawSprite (x y : Register) (rows : Nat) :
    ∃ next signals, machine.drawSprite x y rows = .ok (next, signals) ∧ next.WellFormed := by
  obtain ⟨hit, answer, drawn, resolution⟩ := wellFormed.screen.toggleAll
    (spriteCells (machine.register x).toNat (machine.register y).toNat
      ((List.range rows).map fun row => machine.memory.byteAt (machine.indexed row)))
  simp only [Machine.drawSprite, wellFormed.sprite_eq, answer, bind, Except.bind]
  exact ⟨_, _, rfl, { wellFormed with
    screen := drawn
    resolution := resolution.trans wellFormed.resolution }⟩

theorem storeDigits {value : Nat} (small : value < 256) :
    ∃ next, machine.storeDigits value = .ok next ∧ next.WellFormed := by
  have highest : IsByte (value / 100 : Nat) := ⟨by omega, by omega⟩
  have middle : IsByte (value / 10 % 10 : Nat) := ⟨by omega, by omega⟩
  have lowest : IsByte (value % 10 : Nat) := ⟨by omega, by omega⟩
  obtain ⟨first, hundreds, size⟩ :=
    write_of_size wellFormed.memory_size wellFormed.index highest
  obtain ⟨second, tens, size⟩ := write_of_size size (machine.isAddress_indexed 1) middle
  obtain ⟨third, ones, size⟩ := write_of_size size (machine.isAddress_indexed 2) lowest
  refine ⟨{ machine with memory := third }, ?_, { wellFormed with memory_size := size }⟩
  simp only [Machine.storeDigits, hundreds, tens, ones, bind, Except.bind]
  rfl

theorem passBlock (x : Register) : (machine.passBlock x).WellFormed := by
  simp only [Machine.passBlock]
  split
  · exact wellFormed.setIndex (machine.isAddress_indexed _)
  · exact wellFormed

theorem storeRegisters (x : Register) :
    ∃ next, machine.storeRegisters x = .ok next ∧ next.WellFormed := by
  obtain ⟨memory, stored, size⟩ := foldlM_of_step
    (fun memory y (size : Memory.size memory = memorySize) =>
      write_of_size size (machine.isAddress_indexed y.val) (isByte_toNat (machine.register y)))
    (registersTo x) wellFormed.memory_size
  have held : ({ machine with memory := memory } : Machine).WellFormed :=
    { wellFormed with memory_size := size }
  refine ⟨_, ?_, held.passBlock x⟩
  simp only [Machine.storeRegisters, stored, bind, Except.bind]
  rfl

theorem loadRegisters (x : Register) :
    ∃ next, machine.loadRegisters x = .ok next ∧ next.WellFormed := by
  have read (y : Register) := Memory.read_of_inRange
    (wellFormed.inRange (machine.isAddress_indexed y.val))
  obtain ⟨loaded, folded, kept⟩ := foldlM_of_step
    (fun (loaded : Machine) (y : Register) (kept : loaded.WellFormed) =>
      ⟨_, congrArg (Except.map (loaded.setRegister y)) (read y), kept.setRegister y _⟩)
    (registersTo x) wellFormed
  refine ⟨_, ?_, kept.passBlock x⟩
  simp only [Machine.loadRegisters, folded, bind, Except.bind]
  rfl

theorem callTo {target : Address} (room : machine.stack.depth ≠ callDepth) :
    ∃ next, machine.callTo target = .ok next ∧ next.WellFormed := by
  obtain ⟨pushed, accepted, kept⟩ := wellFormed.stack.push room wellFormed.counter
  exact ⟨_, congrArg (Except.map _) accepted,
    { wellFormed with stack := kept, counter := isAddress_val target }⟩

theorem callTo_of_full {target : Address} (full : machine.stack.depth = callDepth) :
    machine.callTo target = .error (.stackOverflow callDepth) :=
  congrArg (Except.map _) (wellFormed.stack.push_of_full full)

theorem returnBack (held : machine.stack.depth ≠ 0) :
    ∃ next, machine.returnBack = .ok next ∧ next.WellFormed := by
  obtain ⟨address, popped, taken, kept, isAddress⟩ := wellFormed.stack.pop held
  exact ⟨_, congrArg (Except.map _) taken,
    { wellFormed with stack := kept, counter := isAddress }⟩

theorem execute (instruction : Instruction) :
    match machine.refusal? instruction with
    | some cause => machine.execute instruction = .error cause
    | none => ∃ next signals,
        machine.execute instruction = .ok (next, signals) ∧ next.WellFormed := by
  -- Only a return and a call can be refused, so only these two look at the depth of the stack.
  cases instruction with
  | clearScreen =>
      have cleared := wellFormed.screen.clear
      have accepted : machine.screen.clear.answer = .ok () := by rw [wellFormed.screen.clear_eq]
      have same : machine.screen.clear.state.resolution = machine.screen.resolution := by
        rw [wellFormed.screen.clear_eq]
        rfl
      refine ⟨{ machine with screen := machine.screen.clear.state }, machine.screen.clear.signals,
        ?_, { wellFormed with screen := cleared, resolution := same.trans wellFormed.resolution }⟩
      simp only [Machine.execute, accepted, bind, Except.bind]
      rfl
  | ret =>
      by_cases empty : machine.stack.depth = 0
      · rw [refusal?_ret, if_pos empty]
        exact congrArg silent (returnBack_of_empty empty)
      · obtain ⟨next, returned, kept⟩ := wellFormed.returnBack empty
        rw [refusal?_ret, if_neg empty]
        exact ⟨next, [], congrArg silent returned, kept⟩
  | jump target => exact ⟨_, _, rfl, wellFormed.jumpTo (isAddress_val target)⟩
  | call target =>
      by_cases full : machine.stack.depth = callDepth
      · rw [refusal?_call, if_pos full]
        exact congrArg silent (wellFormed.callTo_of_full full)
      · obtain ⟨next, called, kept⟩ := wellFormed.callTo full
        rw [refusal?_call, if_neg full]
        exact ⟨next, [], congrArg silent called, kept⟩
  | skipIfByte | skipUnlessByte | skipIfSame | skipUnlessSame | skipIfDown | skipIfUp =>
      exact ⟨_, _, rfl, wellFormed.skipIf _⟩
  | loadByte | addByte | copy => exact ⟨_, _, rfl, wellFormed.setRegister _ _⟩
  | bitOr | bitAnd | bitXor => exact ⟨_, _, rfl, wellFormed.setBitwise _ _⟩
  | add | subtract | shiftRight | subtractFrom | shiftLeft =>
      exact ⟨_, _, rfl, (wellFormed.setRegister _ _).setRegister _ _⟩
  | loadIndex address => exact ⟨_, _, rfl, wellFormed.setIndex (isAddress_val address)⟩
  | jumpOffset => exact ⟨_, _, rfl, wellFormed.jumpTo (isAddress_wrapAddress _)⟩
  | random => exact ⟨_, _, rfl, { wellFormed with }⟩
  | draw x y rows => exact wellFormed.drawSprite x y rows
  | readDelay x =>
      obtain ⟨next, stored, kept⟩ := wellFormed.storeDelay x
      exact ⟨next, [], congrArg silent stored, kept⟩
  | awaitKey x => exact ⟨_, _, rfl, wellFormed.answerKey x⟩
  | setDelay => exact ⟨_, _, rfl, { wellFormed with delay := isByte_toNat _ }⟩
  | setSound => exact ⟨_, _, rfl, { wellFormed with sound := isByte_toNat _ }⟩
  | addIndex => exact ⟨_, _, rfl, wellFormed.setIndex (machine.isAddress_indexed _)⟩
  | pointGlyph => exact ⟨_, _, rfl, wellFormed.setIndex (isAddress_wrapAddress _)⟩
  | storeDecimal x =>
      obtain ⟨next, stored, kept⟩ := wellFormed.storeDigits (machine.register x).toNat_lt
      exact ⟨next, [], congrArg silent stored, kept⟩
  | storeBlock x =>
      obtain ⟨next, stored, kept⟩ := wellFormed.storeRegisters x
      exact ⟨next, [], congrArg silent stored, kept⟩
  | loadBlock x =>
      obtain ⟨next, loaded, kept⟩ := wellFormed.loadRegisters x
      exact ⟨next, [], congrArg silent loaded, kept⟩

end WellFormed

end Machine

end Chip8
