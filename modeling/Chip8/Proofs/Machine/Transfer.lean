import Chip8.Proofs.Machine.Arithmetic

/-!
# Block transfers

A block is a row of cells from an address on; behind the last cell of memory comes the first one.
Storing and loading registers both end with the registers lying in a block, the first by what it
writes to memory and the second by what it sets. So each of them undoes the other, whatever was
changed in between that is not the block itself. The digits of a number are a block of three.
-/

set_option autoImplicit false

namespace Chip8

namespace Machine

/-- The instruction succeeds, whether it is executed by itself or fetched by a cycle, and leaves a
machine that reaches the goal. -/
def Achieves (machine : Machine) (instruction : Instruction) (goal : Machine → Prop) : Prop :=
  (∃ next, machine.execute instruction = .ok (next, []) ∧ goal next) ∧
  (machine.fetch = .ok (instruction.word : Int) →
    machine.cycle.answer = .ok () ∧ goal machine.cycle.state)

def LiesAt (machine : Machine) (x : Register) (memory : Memory) (address : Int) : Prop :=
  ∀ y ≤ x, memory.byteAt (wrapAddress (address + y.val)) = machine.register y

def behindBlock (machine : Machine) (x : Register) : Int :=
  if machine.dialect.load then (machine.processor.index + x.val + 1) % 4096
  else machine.processor.index

/-- The decimal digits of a byte, the hundreds first. -/
def decimalDigit (value : Nat) : Nat → Nat
  | 0 => value / 100
  | 1 => value / 10 % 10
  | _ => value % 10

structure StoresBlock (machine : Machine) (x : Register) (next : Machine) : Prop where
  block : machine.LiesAt x next.memory machine.processor.index
  others : ∀ address, (∀ y ≤ x, address ≠ machine.indexed y.val) →
    next.memory.byteAt address = machine.memory.byteAt address
  size : next.memory.size = machine.memory.size
  index : next.processor.index = machine.behindBlock x

structure LoadsBlock (machine : Machine) (x : Register) (next : Machine) : Prop where
  block : next.LiesAt x machine.memory machine.processor.index
  memory : next.memory = machine.memory
  index : next.processor.index = machine.behindBlock x

structure StoresDigits (machine : Machine) (x : Register) (next : Machine) : Prop where
  digits : ∀ place < 3, (next.memory.byteAt (machine.indexed place)).toNat =
    decimalDigit (machine.register x).toNat place
  size : next.memory.size = machine.memory.size
  index : next.processor.index = machine.processor.index

variable {machine : Machine} {instruction : Instruction} {goal : Machine → Prop}

theorem indexed_inj {place place' : Nat} (low : place < 4096) (low' : place' < 4096) :
    machine.indexed place = machine.indexed place' ↔ place = place' := by
  simp only [indexed, wrapAddress, memorySize]
  omega

theorem liesAt_wrapAddress {x : Register} {memory : Memory} {address : Int} :
    machine.LiesAt x memory (wrapAddress address) ↔ machine.LiesAt x memory address := by
  have cell (y : Register) :
      wrapAddress (wrapAddress address + y.val) = wrapAddress (address + y.val) := by
    simp only [wrapAddress, memorySize]
    omega
  simp only [LiesAt, cell]

/-- A block and the one that begins behind it have no cell in common. -/
theorem apart_of_behind {x z : Register} (index : Int) (within : z ≤ x) (z' : Register) :
    wrapAddress (index + z.val) ≠ wrapAddress (index + x.val + 1 + z'.val) := by
  rw [Fin.le_def] at within
  simp only [wrapAddress, memorySize]
  omega

theorem index_passBlock_eq (machine : Machine) (x : Register) :
    (machine.passBlock x).processor.index = machine.behindBlock x := by
  unfold passBlock behindBlock
  split
  · simp only [setIndex, indexed, wrapAddress, memorySize]
    omega
  · rfl

theorem Achieves.imp {further : Machine → Prop} (achieves : machine.Achieves instruction goal)
    (enough : ∀ next, goal next → further next) : machine.Achieves instruction further := by
  obtain ⟨⟨next, executed, reached⟩, cycle⟩ := achieves
  refine ⟨⟨next, executed, enough next reached⟩, fun met => ?_⟩
  obtain ⟨completed, reached⟩ := cycle met
  exact ⟨completed, enough machine.cycle.state reached⟩

theorem achieves_of_execute
    (alone : ∃ next, machine.execute instruction = .ok (next, []) ∧ goal next)
    (fetched : ∃ next, (machine.fetched instruction.word).execute instruction = .ok (next, []) ∧
      goal { next with processor.cycles := next.processor.cycles + 1 }) :
    machine.Achieves instruction goal := by
  refine ⟨alone, fun met => ?_⟩
  obtain ⟨next, executed, reached⟩ := fetched
  obtain ⟨completed, state⟩ := cycle_of_execute met executed
  rw [state]
  exact ⟨completed, reached⟩

section

variable (size : machine.memory.size = memorySize)

include size

theorem inRange_indexed (place : Nat) : machine.memory.InRange (machine.indexed place) := by
  rw [Memory.InRange, size]
  exact machine.isAddress_indexed place

theorem stores_of_storeBlock (x : Register) :
    ∃ next, machine.execute (.storeBlock x) = .ok (next, []) ∧ machine.StoresBlock x next := by
  have apart : (registersTo x).Pairwise fun y z : Register =>
      machine.indexed y ≠ machine.indexed z := by
    have distinct : (registersTo x).Nodup := (List.nodup_finRange 16).sublist (List.take_sublist _ _)
    refine distinct.imp fun {y z} other same => other (Fin.ext ?_)
    exact (indexed_inj (by omega) (by omega)).mp same
  obtain ⟨memory, folded, kept, held, others⟩ :=
    Memory.writeEach_eq _ machine.register (fun y _ => inRange_indexed size y.val) apart
  obtain ⟨index, passed⟩ := passBlock_eq { machine with memory := memory } x
  have moved := index_passBlock_eq { machine with memory := memory } x
  refine ⟨{ machine with memory := memory }.passBlock x, ?_, ?_⟩
  · simp only [execute, storeRegisters, folded, bind, Except.bind]
    rfl
  · refine { block := ?_, others := ?_, size := ?_, index := moved }
    · rw [passed]
      exact fun y within => held y ((mem_registersTo_iff x y).mpr within)
    · rw [passed]
      exact fun address away => others address fun y member =>
        away y ((mem_registersTo_iff x y).mp member)
    · rw [passed]
      exact kept

theorem loadEach_eq (items : List Register) (registers : Vector UInt8 16) :
    ∃ final : Vector UInt8 16,
      items.foldlM
        (fun (registers : Vector UInt8 16) (y : Register) =>
          (machine.memory.read (machine.indexed y)).map (registers.setIfInBounds y ·))
        registers = .ok final ∧
      (∀ y ∈ items, final[y] = machine.memory.byteAt (machine.indexed y)) ∧
      ∀ y ∉ items, final[y] = registers[y] := by
  induction items generalizing registers with
  | nil => exact ⟨registers, rfl, nofun, fun _ _ => rfl⟩
  | cons item rest ih =>
      obtain ⟨final, folded, loaded, kept⟩ := ih
        (registers.setIfInBounds item (machine.memory.byteAt (machine.indexed item)))
      refine ⟨final, ?_, List.forall_mem_cons.mpr ⟨?_, loaded⟩, fun y other => ?_⟩
      · rw [List.foldlM_cons, Memory.read_of_inRange (inRange_indexed size item)]
        exact folded
      · by_cases again : item ∈ rest
        · exact loaded item again
        · exact (kept item again).trans (Vector.getElem_setIfInBounds_self item.isLt)
      · obtain ⟨notFirst, notLater⟩ := not_or.mp (mt List.mem_cons.mpr other)
        have apart : item.val ≠ y.val := fun same => notFirst (Fin.ext same.symm)
        exact (kept y notLater).trans (Vector.getElem_setIfInBounds_ne y.isLt apart)

theorem loads_of_loadBlock (x : Register) :
    ∃ next, machine.execute (.loadBlock x) = .ok (next, []) ∧ machine.LoadsBlock x next := by
  obtain ⟨registers, folded, loaded, _⟩ :=
    loadEach_eq size (registersTo x) machine.processor.registers
  have block : machine.blockLoaded x = .ok registers := folded
  obtain ⟨index, passed⟩ := passBlock_eq { machine with processor.registers := registers } x
  have moved := index_passBlock_eq { machine with processor.registers := registers } x
  refine ⟨{ machine with processor.registers := registers }.passBlock x, ?_, ?_⟩
  · simp only [execute, loadRegisters_eq, block]
    rfl
  · refine { block := ?_, memory := ?_, index := moved }
    · rw [passed]
      exact fun y within => (loaded y ((mem_registersTo_iff x y).mpr within)).symm
    · rw [passed]

theorem stores_of_storeDecimal (inside : IsAddress machine.processor.index) (x : Register) :
    ∃ next, machine.execute (.storeDecimal x) = .ok (next, []) ∧ machine.StoresDigits x next := by
  have apart : [0, 1, 2].Pairwise fun place place' : Nat =>
      machine.indexed place ≠ machine.indexed place' := by
    have ascending : [0, 1, 2].Pairwise fun place place' : Nat => place < place' ∧ place' < 3 := by
      decide
    refine ascending.imp fun {place place'} before same => ?_
    have equal := (indexed_inj (by omega) (by omega)).mp same
    omega
  obtain ⟨memory, folded, kept, held, _⟩ := Memory.writeEach_eq _
    (fun place => UInt8.ofNat (decimalDigit (machine.register x).toNat place))
    (fun place _ => inRange_indexed size place) apart
  have bound := (machine.register x).toNat_lt
  have small (place : Nat) : decimalDigit (machine.register x).toNat place < 2 ^ 8 := by
    unfold decimalDigit
    split <;> omega
  have toNat (place : Nat) : (UInt8.ofNat (decimalDigit (machine.register x).toNat place)).toNat =
      decimalDigit (machine.register x).toNat place := UInt8.toNat_ofNat_of_lt' (small place)
  -- The first digit goes to the index as it is: an address needs no wrapping.
  have first : machine.indexed 0 = machine.processor.index := by
    have bounds := inside.bounds
    simp only [indexed, wrapAddress, memorySize]
    omega
  refine ⟨{ machine with memory := memory }, ?_, fun place within => ?_, kept, rfl⟩
  · simp only [toNat, List.foldlM_cons, List.foldlM_nil, first] at folded
    obtain ⟨hundreds, storedHundreds, folded⟩ := of_bind folded
    obtain ⟨tens, storedTens, folded⟩ := of_bind folded
    obtain ⟨ones, storedOnes, folded⟩ := of_bind folded
    cases folded
    simp only [decimalDigit] at storedHundreds storedTens storedOnes
    simp only [execute, storeDigits, storedHundreds, storedTens, storedOnes, bind, Except.bind]
    rfl
  · have member : place ∈ [0, 1, 2] := by
      simp only [List.mem_cons, List.not_mem_nil, or_false]
      omega
    rw [held place member, toNat]

theorem achieves_storeBlock (x : Register) :
    machine.Achieves (.storeBlock x) (machine.StoresBlock x) := by
  have fetched : (machine.fetched (Instruction.storeBlock x).word).memory.size = memorySize := size
  obtain ⟨next, executed, stores⟩ := stores_of_storeBlock fetched x
  exact achieves_of_execute (stores_of_storeBlock size x) ⟨next, executed, { stores with }⟩

theorem achieves_loadBlock (x : Register) :
    machine.Achieves (.loadBlock x) (machine.LoadsBlock x) := by
  have fetched : (machine.fetched (Instruction.loadBlock x).word).memory.size = memorySize := size
  obtain ⟨next, executed, loads⟩ := loads_of_loadBlock fetched x
  exact achieves_of_execute (loads_of_loadBlock size x) ⟨next, executed, { loads with }⟩

theorem achieves_storeDecimal (inside : IsAddress machine.processor.index) (x : Register) :
    machine.Achieves (.storeDecimal x) (machine.StoresDigits x) := by
  have fetched : (machine.fetched (Instruction.storeDecimal x).word).memory.size = memorySize := size
  obtain ⟨next, executed, stores⟩ := stores_of_storeDecimal fetched inside x
  exact achieves_of_execute (stores_of_storeDecimal size inside x) ⟨next, executed, { stores with }⟩

end

section

variable {next again : Machine} {x : Register} (size : machine.memory.size = memorySize)
  (memory : again.memory = next.memory)

include size memory

/-- Registers that were stored come back. -/
theorem StoresBlock.restored (stores : machine.StoresBlock x next)
    (back : again.processor.index = machine.processor.index) :
    again.Achieves (.loadBlock x) fun loaded => ∀ y ≤ x, loaded.register y = machine.register y := by
  have same : again.memory.size = memorySize := by rw [memory, stores.size, size]
  refine (achieves_loadBlock same x).imp fun loaded loads y within => ?_
  have cell := loads.block y within
  rw [memory, back, stores.block y within] at cell
  exact cell.symm

/-- Storing the registers that were loaded changes no byte. -/
theorem LoadsBlock.unchanged (loads : machine.LoadsBlock x next)
    (back : again.processor.index = machine.processor.index)
    (registers : ∀ y ≤ x, again.register y = next.register y) :
    again.Achieves (.storeBlock x) fun stored => stored.memory = machine.memory := by
  have untouched : again.memory = machine.memory := memory.trans loads.memory
  have same : again.memory.size = memorySize := by rw [untouched, size]
  refine (achieves_storeBlock same x).imp fun stored stores => ?_
  refine Memory.eq_of_byteAt (by rw [stores.size, untouched]) fun address => ?_
  by_cases within : ∃ y ≤ x, address = again.indexed y.val
  · obtain ⟨y, low, rfl⟩ := within
    have cell : again.indexed y.val = wrapAddress (machine.processor.index + y.val) := by
      rw [indexed, back]
    rw [cell, loads.block y low, ← registers y low, ← stores.block y low, back]
  · rw [stores.others address fun y low same => within ⟨y, low, same⟩, untouched]

/-- A second block is stored behind the first one and leaves it as it is. -/
theorem StoresBlock.continued (stores : machine.StoresBlock x next)
    (moves : machine.dialect.load = true)
    (onward : again.processor.index = next.processor.index) (y : Register) :
    again.Achieves (.storeBlock y) fun twice =>
      machine.LiesAt x twice.memory machine.processor.index ∧
      again.LiesAt y twice.memory (machine.processor.index + x.val + 1) := by
  have same : again.memory.size = memorySize := by rw [memory, stores.size, size]
  have start : again.processor.index = wrapAddress (machine.processor.index + x.val + 1) := by
    rw [onward, stores.index, behindBlock, if_pos moves]
    rfl
  refine (achieves_storeBlock same y).imp fun twice storesAgain => ?_
  have block := storesAgain.block
  rw [start, liesAt_wrapAddress] at block
  refine ⟨fun z within => ?_, block⟩
  have away : ∀ z' ≤ y, wrapAddress (machine.processor.index + z.val) ≠ again.indexed z'.val := by
    intro z' _ met
    refine apart_of_behind machine.processor.index within z' (met.trans ?_)
    simp only [indexed, start, wrapAddress, memorySize]
    omega
  rw [storesAgain.others _ away, memory, stores.block z within]

/-- The digits that were stored are loaded, and they make up the number. -/
theorem StoresDigits.readBack (stores : machine.StoresDigits x next)
    (back : again.processor.index = machine.processor.index) :
    again.Achieves (.loadBlock 2) fun loaded =>
      (∀ y ≤ 2, 0 ≤ loaded.number y ∧ loaded.number y ≤ 9) ∧
      100 * loaded.number 0 + 10 * loaded.number 1 + loaded.number 2 = machine.number x := by
  have same : again.memory.size = memorySize := by rw [memory, stores.size, size]
  have bound := (machine.register x).toNat_lt
  refine (achieves_loadBlock same 2).imp fun loaded loads => ?_
  have digit (y : Register) (within : y ≤ 2) :
      loaded.number y = decimalDigit (machine.register x).toNat y.val := by
    have low : y.val < 3 := Nat.lt_succ_of_le within
    have cell := loads.block y within
    rw [memory, back] at cell
    rw [number, ← cell, ← stores.digits y.val low, indexed]
  have hundreds := digit 0 (by decide)
  have tens := digit 1 (by decide)
  have ones := digit 2 (by decide)
  simp only [Fin.isValue, Fin.val_zero, Fin.val_one, Fin.val_two, decimalDigit]
    at hundreds tens ones
  constructor
  · intro y within
    have three : y = 0 ∨ y = 1 ∨ y = 2 := by
      revert y
      decide
    rcases three with rfl | rfl | rfl
    · omega
    · omega
    · omega
  · have divided : (machine.register x).toNat / 10 / 10 = (machine.register x).toNat / 100 :=
      Nat.div_div_eq_div_mul _ 10 10
    rw [hundreds, tens, ones, number]
    omega

end

/-- A block transfer is undone by the opposite one at the same index, wherever the block wraps. In
between everything may change but what the second transfer reads. -/
theorem restores_of_transfer (reachable : machine.Reachable) {index : Int}
    (inside : IsAddress index) (x : Register) :
    let start := machine.setIndex index
    start.Achieves (.storeBlock x) (fun stored =>
      stored.processor.index = start.behindBlock x ∧
      (∀ again : Machine, again.memory = stored.memory → again.processor.index = index →
        again.Achieves (.loadBlock x) fun loaded =>
          ∀ y ≤ x, loaded.register y = start.register y) ∧
      (start.dialect.load = true → ∀ (again : Machine) (y : Register),
        again.memory = stored.memory → again.processor.index = stored.processor.index →
        again.Achieves (.storeBlock y) fun twice =>
          start.LiesAt x twice.memory index ∧
          again.LiesAt y twice.memory (index + x.val + 1) ∧
          ∀ z ≤ x, ∀ z' ≤ y,
            wrapAddress (index + z.val) ≠ wrapAddress (index + x.val + 1 + z'.val))) ∧
    start.Achieves (.loadBlock x) (fun loaded =>
      loaded.processor.index = start.behindBlock x ∧
      ∀ again : Machine, again.memory = loaded.memory → again.processor.index = index →
        (∀ y ≤ x, again.register y = loaded.register y) →
        again.Achieves (.storeBlock x) fun stored => stored.memory = start.memory) ∧
    start.Achieves (.storeDecimal x) (fun stored =>
      stored.processor.index = index ∧
      ∀ again : Machine, again.memory = stored.memory → again.processor.index = index →
        again.Achieves (.loadBlock 2) fun loaded =>
          (∀ y ≤ 2, 0 ≤ loaded.number y ∧ loaded.number y ≤ 9) ∧
          100 * loaded.number 0 + 10 * loaded.number 1 + loaded.number 2 = start.number x) := by
  intro start
  have size : start.memory.size = memorySize := reachable.wellFormed.memory_size
  refine ⟨?_, ?_, ?_⟩
  · refine (achieves_storeBlock size x).imp fun stored stores => ⟨stores.index, ?_, ?_⟩
    · intro again memory back
      exact stores.restored size memory back
    · intro moves again y memory onward
      refine (stores.continued size memory moves onward y).imp fun twice lies => ?_
      exact ⟨lies.1, lies.2, fun z within z' _ => apart_of_behind index within z'⟩
  · refine (achieves_loadBlock size x).imp fun loaded loads => ⟨loads.index, ?_⟩
    intro again memory back registers
    exact loads.unchanged size memory back registers
  · refine (achieves_storeDecimal size inside x).imp fun stored stores => ⟨stores.index, ?_⟩
    intro again memory back
    exact stores.readBack size memory back

/-- A machine with numbers in its first registers, in a dialect that moves the index on. -/
def shuttle : Machine :=
  (assemble { load := true } (.scripted [] 0) false).1.after
    [.loadRom [0x60, 0x0b, 0x61, 0xea, 0x62, 0x21], .cycle, .cycle, .cycle]

theorem restores_of_transfer_shuttle :
    ∃ stored, (shuttle.setIndex 0xfff).execute (.storeBlock 2) = .ok (stored, []) ∧
      stored.processor.index = 2 ∧
      ∃ loaded, (((stored.setRegister 0 7).setRegister 1 7).setIndex 0xfff).execute
        (.loadBlock 2) = .ok (loaded, []) ∧ loaded.register 0 = 0x0b ∧ loaded.register 1 = 0xea := by
  have reachable : shuttle.Reachable := Reachable.after (.assembled _ _ _) _
  have inside : IsAddress 0xfff := ⟨by decide, by decide⟩
  obtain ⟨⟨⟨stored, executed, index, restored, _⟩, _⟩, _, _⟩ :=
    restores_of_transfer reachable inside 2
  obtain ⟨⟨loaded, executedBack, registers⟩, _⟩ :=
    restored (((stored.setRegister 0 7).setRegister 1 7).setIndex 0xfff) rfl rfl
  have moved : (shuttle.setIndex 0xfff).behindBlock 2 = 2 := by decide +kernel
  have first : (shuttle.setIndex 0xfff).register 0 = 0x0b := by decide +kernel
  have second : (shuttle.setIndex 0xfff).register 1 = 0xea := by decide +kernel
  refine ⟨stored, executed, index.trans moved, loaded, executedBack, ?_, ?_⟩
  · rw [registers 0 (by decide), first]
  · rw [registers 1 (by decide), second]

end Machine

end Chip8
