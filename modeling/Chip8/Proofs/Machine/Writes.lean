import Chip8.Proofs.Machine.Reachable
import Chip8.Proofs.Machine.Sound

/-!
# What instructions write

Two kinds of instructions store in memory, and each instruction sets few registers or none. The
other parts of a machine are each left to one or two kinds of instructions, and the keys and the
dialect to none. A random byte is drawn where one is asked for, and nowhere else.
-/

set_option autoImplicit false

namespace Chip8

namespace Instruction

def cellsStored : Instruction → Nat
  | storeDecimal _ => 3
  | storeBlock x => x + 1
  | _ => 0

/-- The instruction stores a byte at the address. Behind the last cell comes the first one. -/
def StoresAt (machine : Machine) (address : Int) (instruction : Instruction) : Prop :=
  ∃ place < instruction.cellsStored, address = machine.indexed place

def MovesIndex (dialect : Dialect) : Instruction → Prop
  | loadIndex _ | addIndex _ | pointGlyph _ => True
  | storeBlock _ | loadBlock _ => dialect.load = true
  | _ => False

/-- The instruction sets the register. A key wait only does while a key is down. -/
def Sets (machine : Machine) (y : Register) : Instruction → Prop
  | loadByte x _ | addByte x _ | copy x _ | random x _ | readDelay x => y = x
  | awaitKey x => y = x ∧ ∃ key, machine.keypad.isDown key = true
  | bitOr x _ | bitAnd x _ | bitXor x _ => y = x ∨ (y = flagRegister ∧ machine.dialect.logic = true)
  | add x _ | subtract x _ | subtractFrom x _ | shiftRight x _ | shiftLeft x _ =>
      y = x ∨ y = flagRegister
  | draw .. => y = flagRegister
  | loadBlock x => y ≤ x
  | _ => False

def isRandom : Instruction → Bool
  | random .. => true
  | _ => false

end Instruction

namespace Machine

section

variable (machine : Machine) (x y : Register)

theorem register_setRegister_of_ne {machine : Machine} {x y : Register} (other : y ≠ x)
    (value : UInt8) : (machine.setRegister x value).register y = machine.register y :=
  Vector.getElem_set_ne x.isLt y.isLt fun same => other (Fin.ext same.symm)

theorem mem_registersTo_iff : y ∈ registersTo x ↔ y ≤ x := by
  revert x y
  decide

theorem index_passBlock (plain : ¬machine.dialect.load = true) :
    (machine.passBlock x).processor.index = machine.processor.index := by
  rw [passBlock, if_neg plain]

end

variable {machine next : Machine} {instruction : Instruction} {told : List Signal}

structure Writes (machine : Machine) (instruction : Instruction) (next : Machine) : Prop where
  size : next.memory.size = machine.memory.size
  memory : ∀ address, ¬instruction.StoresAt machine address →
    next.memory.byteAt address = machine.memory.byteAt address
  index : ¬instruction.MovesIndex machine.dialect →
    next.processor.index = machine.processor.index
  registers : ∀ y, ¬instruction.Sets machine y → next.register y = machine.register y
  random : next.random =
    if instruction.isRandom then machine.random.draw.2 else machine.random

theorem of_storeDigits_memory {value : Nat} (inside : IsAddress machine.processor.index)
    (stored : machine.storeDigits value = .ok next) :
    next.memory.size = machine.memory.size ∧
    ∀ address, (∀ place < 3, address ≠ machine.indexed place) →
      next.memory.byteAt address = machine.memory.byteAt address := by
  -- The first address is the index as it is: an address needs no wrapping.
  have first : machine.processor.index = machine.indexed 0 := by
    have bounds := inside.bounds
    simp only [indexed, wrapAddress, memorySize]
    omega
  unfold storeDigits at stored
  obtain ⟨hundreds, storedHundreds, stored⟩ := of_bind stored
  obtain ⟨tens, storedTens, stored⟩ := of_bind stored
  obtain ⟨ones, storedOnes, stored⟩ := of_bind stored
  cases stored
  constructor
  · rw [Memory.size_write storedOnes, Memory.size_write storedTens,
      Memory.size_write storedHundreds]
  · intro address apart
    rw [Memory.byteAt_write storedOnes (apart 2 (by decide)),
      Memory.byteAt_write storedTens (apart 1 (by decide)),
      Memory.byteAt_write storedHundreds (first ▸ apart 0 (by decide))]

theorem writes_of_storeRegisters {x : Register} (stored : machine.storeRegisters x = .ok next) :
    Writes machine (.storeBlock x) next := by
  unfold storeRegisters at stored
  obtain ⟨memory, folded, stored⟩ := of_bind stored
  cases stored
  have kept : memory.size = machine.memory.size ∧
      ∀ address, ¬(Instruction.storeBlock x).StoresAt machine address →
        memory.byteAt address = machine.memory.byteAt address := by
    refine of_foldlM folded (fun memory => memory.size = machine.memory.size ∧
      ∀ address, ¬(Instruction.storeBlock x).StoresAt machine address →
        memory.byteAt address = machine.memory.byteAt address) ⟨rfl, fun _ _ => rfl⟩ ?_
    intro y member before after kept written
    have within := Nat.lt_succ_of_le ((mem_registersTo_iff x y).mp member)
    constructor
    · rw [Memory.size_write written, kept.1]
    · intro address apart
      have away : address ≠ machine.indexed y := fun same => apart ⟨y, within, same⟩
      rw [Memory.byteAt_write written away, kept.2 address apart]
  obtain ⟨index, passed⟩ := passBlock_eq { machine with memory := memory } x
  refine ⟨?_, ?_, ?_, ?_, ?_⟩
  · rw [passed]
    exact kept.1
  · rw [passed]
    exact kept.2
  · intro still
    exact index_passBlock { machine with memory := memory } x still
  · rw [passed]
    exact fun _ _ => rfl
  · rw [passed]
    rfl

theorem writes_of_loadRegisters {x : Register} (loaded : machine.loadRegisters x = .ok next) :
    Writes machine (.loadBlock x) next := by
  rw [loadRegisters_eq] at loaded
  obtain ⟨registers, folded, rfl⟩ := of_map loaded
  have kept : ∀ y : Register, ¬y ≤ x → registers[y] = machine.processor.registers[y] := by
    intro y beyond
    refine of_foldlM folded (fun registers => registers[y] = machine.processor.registers[y]) rfl ?_
    intro z member before after kept stepped
    obtain ⟨byte, _, rfl⟩ := of_map stepped
    have apart : z.val ≠ y.val := by
      intro same
      rw [Fin.ext same] at member
      exact beyond ((mem_registersTo_iff x y).mp member)
    exact (Vector.getElem_setIfInBounds_ne y.isLt apart).trans kept
  obtain ⟨index, passed⟩ := passBlock_eq { machine with processor.registers := registers } x
  refine ⟨?_, ?_, ?_, ?_, ?_⟩
  · rw [passed]
  · rw [passed]
    exact fun _ _ => rfl
  · intro still
    exact index_passBlock { machine with processor.registers := registers } x still
  · rw [passed]
    exact kept
  · rw [passed]
    rfl

@[simp] theorem register_setFlag (machine : Machine) (flag : Bool) :
    (machine.setFlag flag).register flagRegister = flag.toUInt8 := by
  have stored : (machine.setFlag flag).register flagRegister = if flag then 1 else 0 :=
    Vector.getElem_set_self flagRegister.isLt
  rw [stored]
  cases flag with
  | false => rfl
  | true => rfl

theorem register_setFlag_of_ne {y : Register} (other : y ≠ flagRegister) (flag : Bool) :
    (machine.setFlag flag).register y = machine.register y :=
  register_setRegister_of_ne other _

theorem register_setBitwise {x y : Register} (value : UInt8)
    (other : ¬(y = x ∨ (y = flagRegister ∧ machine.dialect.logic = true))) :
    (machine.setBitwise x value).register y = machine.register y := by
  obtain ⟨notResult, notFlag⟩ := not_or.mp other
  have stored : (machine.setRegister x value).register y = machine.register y :=
    register_setRegister_of_ne notResult value
  unfold setBitwise
  split
  · next logic =>
      have apart : y ≠ flagRegister := fun same => notFlag ⟨same, logic⟩
      exact (register_setFlag_of_ne apart false).trans stored
  · exact stored

theorem register_result {x y : Register} (value : UInt8) (flag : Bool)
    (other : ¬(y = x ∨ y = flagRegister)) :
    ((machine.setRegister x value).setFlag flag).register y = machine.register y := by
  obtain ⟨notResult, notFlag⟩ := not_or.mp other
  rw [register_setFlag_of_ne notFlag, register_setRegister_of_ne notResult]

theorem register_answerKey {x y : Register}
    (other : ¬(y = x ∧ ∃ key, machine.keypad.isDown key = true)) :
    (machine.answerKey x).register y = machine.register y := by
  unfold answerKey
  cases first : machine.keypad.first? with
  | none => rfl
  | some key =>
      have down := (machine.keypad.first?_eq_some_iff.mp first).1
      exact register_setRegister_of_ne (fun same => other ⟨same, key, down⟩) _

theorem writes_execute (inside : IsAddress machine.processor.index)
    (executed : machine.execute instruction = .ok (next, told)) :
    Writes machine instruction next := by
  cases instruction with
  | storeDecimal =>
      have stored := (of_silent executed).1
      obtain ⟨size, cells⟩ := of_storeDigits_memory inside stored
      obtain ⟨memory, rfl⟩ := of_storeDigits stored
      exact ⟨size, fun address apart => cells address fun place within same =>
        apart ⟨place, within, same⟩, fun _ => rfl, fun _ _ => rfl, rfl⟩
  | storeBlock => exact writes_of_storeRegisters (of_silent executed).1
  | loadBlock => exact writes_of_loadRegisters (of_silent executed).1
  | clearScreen =>
      obtain ⟨rfl, _⟩ := of_clearScreen executed
      exact ⟨rfl, fun _ _ => rfl, fun _ => rfl, fun _ _ => rfl, rfl⟩
  | call =>
      obtain ⟨stack, _, rfl⟩ := of_callTo (of_silent executed).1
      exact ⟨rfl, fun _ _ => rfl, fun _ => rfl, fun _ _ => rfl, rfl⟩
  | ret =>
      obtain ⟨address, stack, _, rfl⟩ := of_returnBack (of_silent executed).1
      exact ⟨rfl, fun _ _ => rfl, fun _ => rfl, fun _ _ => rfl, rfl⟩
  | skipIfByte | skipUnlessByte | skipIfSame | skipUnlessSame | skipIfDown | skipIfUp =>
      cases executed
      rw [skipIf_eq]
      exact ⟨rfl, fun _ _ => rfl, fun _ => rfl, fun _ _ => rfl, rfl⟩
  | loadByte | addByte | copy | random =>
      cases executed
      exact ⟨rfl, fun _ _ => rfl, fun _ => rfl,
        fun _ other => register_setRegister_of_ne other _, rfl⟩
  | bitOr | bitAnd | bitXor =>
      cases executed
      obtain ⟨registers, same⟩ := setBitwise_eq machine _ _
      refine ⟨?_, ?_, ?_, fun _ other => register_setBitwise _ other, ?_⟩
      · rw [same]
      · rw [same]
        exact fun _ _ => rfl
      · rw [same]
        exact fun _ => rfl
      · rw [same]
        rfl
  | add | subtract | shiftRight | subtractFrom | shiftLeft =>
      cases executed
      exact ⟨rfl, fun _ _ => rfl, fun _ => rfl, fun _ other => register_result _ _ other, rfl⟩
  | draw =>
      obtain ⟨positions, hit, rfl, _⟩ := of_drawSprite executed
      exact ⟨rfl, fun _ _ => rfl, fun _ => rfl,
        fun _ other => register_setRegister_of_ne other _, rfl⟩
  | readDelay =>
      rw [of_storeDelay (of_silent executed).1]
      exact ⟨rfl, fun _ _ => rfl, fun _ => rfl,
        fun _ other => register_setRegister_of_ne other _, rfl⟩
  | awaitKey =>
      cases executed
      refine ⟨?_, ?_, ?_, fun _ other => register_answerKey other, ?_⟩
      · rw [answerKey_eq]
      · rw [answerKey_eq]
        exact fun _ _ => rfl
      · rw [answerKey_eq]
        exact fun _ => rfl
      · rw [answerKey_eq]
        rfl
  | loadIndex | addIndex | pointGlyph =>
      cases executed
      exact ⟨rfl, fun _ _ => rfl, fun still => absurd trivial still, fun _ _ => rfl, rfl⟩
  | _ =>
      cases executed
      exact ⟨rfl, fun _ _ => rfl, fun _ => rfl, fun _ _ => rfl, rfl⟩

theorem Context.delay_of_other {context : Context} (other : ∀ x, instruction ≠ .setDelay x) :
    (context.after machine instruction).delay = context.delay := by
  cases instruction with
  | setDelay x => exact absurd rfl (other x)
  | _ => rfl

theorem Context.sound_of_other {context : Context} (other : ∀ x, instruction ≠ .setSound x) :
    (context.after machine instruction).sound = context.sound := by
  cases instruction with
  | setSound x => exact absurd rfl (other x)
  | _ => rfl

/-- What the cycle that carries out an instruction leaves as it was, and what it draws. -/
structure WriteLaw (machine : Machine) (instruction : Instruction) : Prop where
  size : machine.cycle.state.memory.size = machine.memory.size
  memory : ∀ address, ¬instruction.StoresAt machine address →
    machine.cycle.state.memory.byteAt address = machine.memory.byteAt address
  screen : instruction.draws = false → machine.cycle.state.screen = machine.screen
  stack : instruction.brackets = false → machine.cycle.state.stack = machine.stack
  delay : (∀ x, instruction ≠ .setDelay x) →
    machine.cycle.state.processor.delay = machine.processor.delay
  sound : (∀ x, instruction ≠ .setSound x) →
    machine.cycle.state.processor.sound = machine.processor.sound ∧
    ∀ signal ∈ machine.cycle.signals, signal.isSound = false
  index : ¬instruction.MovesIndex machine.dialect →
    machine.cycle.state.processor.index = machine.processor.index
  random : machine.cycle.state.random =
    if instruction.isRandom then machine.random.draw.2 else machine.random
  keypad : machine.cycle.state.keypad = machine.keypad
  dialect : machine.cycle.state.dialect = machine.dialect
  registers : ∀ y, ¬instruction.Sets machine y →
    machine.cycle.state.register y = machine.register y

theorem WellFormed.writeLaw (wellFormed : machine.WellFormed)
    (decoded : Instruction.decode? machine.nextWord = some instruction)
    (completed : machine.cycle.answer = .ok ()) : machine.WriteLaw instruction := by
  obtain ⟨other, next, told, sameWord, executed, state⟩ := wellFormed.cycle_completed completed
  cases decoded.symm.trans sameWord
  -- The fetch touches nothing but the counter and the record of the fetch.
  have writes : Writes (machine.fetched machine.nextWord) instruction next :=
    writes_execute wellFormed.index executed
  have footprint := footprint_execute executed
  have context := context_execute executed
  obtain ⟨_, _, _, host⟩ := context_execute_eq executed
  have signals : machine.cycle.signals =
      (machine.fetched machine.nextWord).liveLines instruction ++ told := by
    have opcode : (machine.fetched machine.nextWord).processor.opcode = machine.nextWord := rfl
    rw [signals_cycle wellFormed.fetch_eq]
    unfold perform
    rw [opcode]
    simp only [decoded, executed]
  refine ⟨?_, ?_, ?_, ?_, ?_, ?_, ?_, ?_, ?_, ?_, ?_⟩
  all_goals rw [state]
  · exact writes.size
  · exact writes.memory
  · exact footprint.screen
  · exact footprint.stack
  · intro other
    exact (congrArg Context.delay context).trans (Context.delay_of_other other)
  · intro other
    refine ⟨(congrArg Context.sound context).trans (Context.sound_of_other other), ?_⟩
    rw [signals]
    exact List.forall_mem_append.mpr ⟨isSound_liveLines _ _, isSound_execute executed other⟩
  · exact writes.index
  · exact writes.random
  · exact congrArg Context.keypad host
  · exact congrArg Context.dialect host
  · exact writes.registers

theorem WellFormed.completed_of_fault?_none (wellFormed : machine.WellFormed)
    (faultless : machine.fault? = none) : machine.cycle.answer = .ok () := by
  have spec := wellFormed.cycle_spec
  rw [faultless] at spec
  exact spec.1

/-- A cycle that completes has carried out the instruction of the word at the counter, and has
written to nothing that is not for this instruction to write to. -/
theorem writes_of_cycle (reachable : machine.Reachable)
    (completed : machine.cycle.answer = .ok ()) :
    ∃ instruction : Instruction, instruction.word = machine.nextWord ∧
      machine.WriteLaw instruction := by
  obtain ⟨instruction, _, _, decoded, _⟩ := reachable.wellFormed.cycle_completed completed
  exact ⟨instruction, (Instruction.decode?_eq_some_iff machine.nextWord_lt).mp decoded,
    reachable.wellFormed.writeLaw decoded completed⟩

/-- A machine about to store two registers in the last cell of memory and the first one. -/
def packer : Machine :=
  (assemble { load := true } (.scripted [7] 0) false).1.after
    [.loadRom [0xaf, 0xff, 0x61, 0x07, 0xf1, 0x55], .cycle, .cycle]

theorem writes_of_cycle_packer :
    packer.cycle.answer = .ok () ∧ packer.cycle.state.memory.byteAt 0 = 7 ∧
    packer.cycle.state.processor.index = 1 ∧
    ∃ instruction : Instruction, instruction.word = packer.nextWord ∧
      packer.WriteLaw instruction := by
  obtain ⟨faultless, stored, moved⟩ : packer.fault? = none ∧
      packer.cycle.state.memory.byteAt 0 = 7 ∧ packer.cycle.state.processor.index = 1 := by
    decide +kernel
  have assembled := Reachable.assembled { load := true } (.scripted [7] 0) false
  have reachable : packer.Reachable := assembled.after _
  have completed := reachable.wellFormed.completed_of_fault?_none faultless
  exact ⟨completed, stored, moved, writes_of_cycle reachable completed⟩

end Machine

end Chip8
