import Chip8.Proofs.Machine.Writes
import Chip8.Proofs.Screen.Toggle

/-!
# Drawing sprites

The pixels of a sprite are drawn one after the other, each on the cell that its own position wraps
to. A sprite is no wider and no higher than the screen, so they all meet different cells, and the
picture is the picture before with the bits of the sprite laid over it. Drawing the same sprite in
the same place takes it off again.
-/

set_option autoImplicit false

namespace Chip8.Machine

/-- The bit that a sprite of some rows has for a cell when its corner, which wraps, is at the
position in `x`, `y`. -/
def spriteBit (machine : Machine) (x y : Register) (rows : Nat) (column row : Int) : Bool :=
  let across := (column - (machine.register x).toNat % 64) % 64
  let down := (row - (machine.register y).toNat % 32) % 32
  across < 8 && down < rows &&
    (machine.memory.byteAt (wrapAddress (machine.processor.index + down))).toNat.testBit
      (7 - across).toNat

/-- The positions of the pixels that a sprite sets, from the highest row to the lowest. -/
def spritePositions (machine : Machine) (x y : Register) (rows : Nat) : List (Int × Int) :=
  spriteCells (machine.register x).toNat (machine.register y).toNat
    ((List.range rows).map fun place => machine.memory.byteAt (machine.indexed place))

/-- What drawing a sprite makes of a machine. The flag tells whether a set cell has been cleared. -/
structure Drawn (machine : Machine) (x y : Register) (rows : Nat) (next : Machine) : Prop where
  cells : ∀ column row, ∃ old, machine.screen.get column row = .ok old ∧
    next.screen.get column row =
      .ok (old ^^^ (machine.spriteBit x y rows column row).toUInt8)
  flag : ∃ hit : Bool, next.register flagRegister = hit.toUInt8 ∧
    (hit = true ↔ ∃ column row, machine.screen.get column row = .ok 1 ∧
      machine.spriteBit x y rows column row = true)
  registers : ∀ z ≠ flagRegister, next.register z = machine.register z
  index : next.processor.index = machine.processor.index
  memory : next.memory = machine.memory
  stack : next.stack = machine.stack
  resolution : next.screen.resolution = machine.screen.resolution

theorem mem_spriteCells {x y : Int} {bytes : List UInt8} {position : Int × Int} :
    position ∈ spriteCells x y bytes ↔
      ∃ (column row : Nat) (byte : UInt8), column < 8 ∧ bytes[row]? = some byte ∧
        byte.toNat.testBit (7 - column) = true ∧ position = (x + column, y + row) := by
  simp only [spriteCells, rowCells, List.mem_flatMap, List.mem_map, List.mem_filter,
    List.mem_range, Prod.exists, List.mem_zipIdx_iff_getElem?]
  constructor
  · rintro ⟨byte, row, found, column, ⟨inside, set⟩, rfl⟩
    exact ⟨column, row, byte, inside, found, set, rfl⟩
  · rintro ⟨column, row, byte, inside, found, set, rfl⟩
    exact ⟨byte, row, found, column, ⟨inside, set⟩, rfl⟩

namespace WellFormed

variable {machine : Machine} (wellFormed : machine.WellFormed)

include wellFormed

theorem width_eq : machine.screen.width = 64 := congrArg Resolution.width wellFormed.resolution

theorem height_eq : machine.screen.height = 32 := congrArg Resolution.height wellFormed.resolution

/-- The width and the height of a sprite do not reach around the screen. -/
theorem eq_of_sameCell {x y : Int} {column row column' row' : Nat}
    (columns : column < 8 ∧ column' < 8) (rows : row < 16 ∧ row' < 16)
    (same : machine.screen.SameCell (x + column, y + row) (x + column', y + row')) :
    column = column' ∧ row = row' := by
  simp only [Screen.SameCell, wellFormed.width_eq, wellFormed.height_eq] at same
  omega

theorem apart_spritePositions (x y : Register) {rows : Nat} (low : rows < 16) :
    (machine.spritePositions x y rows).Pairwise fun a b => ¬machine.screen.SameCell a b := by
  rw [spritePositions, spriteCells, List.pairwise_flatMap]
  constructor
  · -- The pixels of one row
    rintro ⟨byte, row⟩ member
    have inRows := List.snd_lt_of_mem_zipIdx member
    rw [List.length_map, List.length_range] at inRows
    simp only [rowCells, List.pairwise_map]
    refine (List.pairwise_lt_range.filter _).imp_of_mem ?_
    intro first second inFirst inSecond before same
    have columns : first < 8 ∧ second < 8 :=
      ⟨List.mem_range.mp (List.mem_filter.mp inFirst).1,
        List.mem_range.mp (List.mem_filter.mp inSecond).1⟩
    have equal := wellFormed.eq_of_sameCell columns ⟨by omega, by omega⟩ same
    omega
  · -- The pixels of two rows
    have ascending (bytes : List UInt8) : bytes.zipIdx.Pairwise fun a b => a.2 < b.2 := by
      rw [← List.pairwise_map, List.zipIdx_map_snd]
      exact List.pairwise_lt_range'
    refine (ascending _).imp_of_mem ?_
    rintro ⟨_, row⟩ ⟨_, row'⟩ member member' before a inFirst b inSecond same
    have inRows := List.snd_lt_of_mem_zipIdx member
    have inRows' := List.snd_lt_of_mem_zipIdx member'
    rw [List.length_map, List.length_range] at inRows inRows'
    simp only [rowCells, List.mem_map, List.mem_filter, List.mem_range] at inFirst inSecond
    obtain ⟨column, ⟨inside, _⟩, rfl⟩ := inFirst
    obtain ⟨column', ⟨inside', _⟩, rfl⟩ := inSecond
    have equal := wellFormed.eq_of_sameCell ⟨inside, inside'⟩ ⟨by omega, by omega⟩ same
    omega

/-- The cells of a sprite are those for which it has a bit. -/
theorem any_spritePositions (x y : Register) {rows : Nat} (low : rows < 16) (column row : Int) :
    ((machine.spritePositions x y rows).any fun position =>
      machine.screen.SameCell (column, row) position) = machine.spriteBit x y rows column row := by
  have width := wellFormed.width_eq
  have height := wellFormed.height_eq
  rw [Bool.eq_iff_iff, List.any_eq_true]
  simp only [spriteBit, spritePositions, Bool.and_eq_true, decide_eq_true_eq, mem_spriteCells,
    Screen.SameCell, width, height, List.getElem?_map]
  generalize ((machine.register x).toNat : Int) = left
  generalize ((machine.register y).toNat : Int) = top
  constructor
  · rintro ⟨_, ⟨across, down, byte, inside, found, set, rfl⟩, columns, lines⟩
    obtain ⟨place, inRange, rfl⟩ := Option.map_eq_some_iff.mp found
    obtain ⟨inRows, same⟩ := List.getElem?_eq_some_iff.mp inRange
    rw [List.getElem_range] at same
    rw [List.length_range] at inRows
    have isAcross : (column - left % 64) % 64 = across := by omega
    have isDown : (row - top % 32) % 32 = down := by omega
    have shift : (7 - (across : Int)).toNat = 7 - across := by omega
    subst same
    rw [isAcross, isDown, shift]
    exact ⟨⟨by omega, by omega⟩, set⟩
  · rintro ⟨⟨inside, inRows⟩, set⟩
    obtain ⟨across, isAcross⟩ := Int.eq_ofNat_of_zero_le
      (Int.emod_nonneg (column - left % 64) (by decide : (64 : Int) ≠ 0))
    obtain ⟨down, isDown⟩ := Int.eq_ofNat_of_zero_le
      (Int.emod_nonneg (row - top % 32) (by decide : (32 : Int) ≠ 0))
    have shift : (7 - (across : Int)).toNat = 7 - across := by omega
    rw [isAcross] at inside set
    rw [isDown] at inRows set
    rw [shift] at set
    refine ⟨_, ⟨across, down, _, by omega, ?_, set, rfl⟩, by omega, by omega⟩
    rw [List.getElem?_range (by omega)]
    rfl

theorem any_valueAt_iff (x y : Register) {rows : Nat} (low : rows < 16) :
    ((machine.spritePositions x y rows).any fun position =>
      machine.screen.valueAt position != 0) = true ↔
      ∃ column row, machine.screen.get column row = .ok 1 ∧
        machine.spriteBit x y rows column row = true := by
  simp only [← wellFormed.any_spritePositions x y low, List.any_eq_true, bne_iff_ne,
    wellFormed.screen.get_eq_valueAt, Except.ok.injEq]
  constructor
  · rintro ⟨position, member, set⟩
    have one : machine.screen.valueAt position = 1 := (wellFormed.screen.bits _).resolve_left set
    exact ⟨position.1, position.2, one, position, member, decide_eq_true ⟨rfl, rfl⟩⟩
  · rintro ⟨column, row, one, position, member, same⟩
    rw [Screen.valueAt_of_sameCell (of_decide_eq_true same)] at one
    refine ⟨position, member, ?_⟩
    rw [one]
    decide

theorem drawn_of_draw (x y : Register) (rows : Fin 16) :
    ∃ next told, machine.execute (.draw x y rows) = .ok (next, told) ∧
      machine.Drawn x y rows next := by
  have apart := wellFormed.apart_spritePositions x y rows.isLt
  have answer := wellFormed.screen.answer_toggleAll_of_apart apart
  have values := wellFormed.screen.valueAt_toggleAll_of_apart apart
  obtain ⟨_, _, drawn, resolution⟩ :=
    wellFormed.screen.toggleAll (machine.spritePositions x y rows)
  let screen := (machine.screen.toggleAll (machine.spritePositions x y rows)).state
  let told := (machine.screen.toggleAll (machine.spritePositions x y rows)).signals
  refine ⟨_, told, ?_, {
    cells := ?_
    flag := ⟨_, register_setFlag { machine with screen := screen } _,
      wellFormed.any_valueAt_iff x y rows.isLt⟩
    registers := fun z other => register_setFlag_of_ne other _
    index := rfl
    memory := rfl
    stack := rfl
    resolution := resolution }⟩
  · simp only [Machine.execute, Machine.drawSprite, wellFormed.sprite_eq, bind, Except.bind]
    rw [spritePositions] at answer
    rw [answer]
    rfl
  · intro column row
    refine ⟨_, wellFormed.screen.get_eq_valueAt column row, ?_⟩
    refine (drawn.get_eq_valueAt column row).trans ?_
    rw [values, wellFormed.any_spritePositions x y rows.isLt]

theorem drawn_of_cycle {x y : Register} {rows : Fin 16}
    (word : (Instruction.draw x y rows).word = machine.nextWord) :
    machine.cycle.answer = .ok () ∧ machine.Drawn x y rows machine.cycle.state := by
  have decoded := (Instruction.decode?_eq_some_iff machine.nextWord_lt).mpr word
  have completed : machine.cycle.answer = .ok () := by
    apply wellFormed.completed_of_fault?_none
    simp only [fault?, decoded]
    rfl
  obtain ⟨other, next, told, sameWord, executed, state⟩ := wellFormed.cycle_completed completed
  cases decoded.symm.trans sameWord
  obtain ⟨_, _, drew, drawn⟩ := wellFormed.fetched.drawn_of_draw x y rows
  cases executed.symm.trans drew
  rw [state]
  exact ⟨completed, { drawn with }⟩

end WellFormed

structure SameSprite (machine : Machine) (x y : Register) (again : Machine) (x' y' : Register)
    (rows : Nat) : Prop where
  column : (again.register x').toNat % 64 = (machine.register x).toNat % 64
  row : (again.register y').toNat % 32 = (machine.register y).toNat % 32
  bytes : ∀ place < rows,
    again.memory.byteAt (again.indexed place) = machine.memory.byteAt (machine.indexed place)

theorem SameSprite.spriteBit_eq {machine again : Machine} {x y x' y' : Register} {rows : Nat}
    (same : machine.SameSprite x y again x' y' rows) (column row : Int) :
    again.spriteBit x' y' rows column row = machine.spriteBit x y rows column row := by
  have origin : ((again.register x').toNat : Int) % 64 = (machine.register x).toNat % 64 :=
    congrArg Nat.cast same.column
  have origin' : ((again.register y').toNat : Int) % 32 = (machine.register y).toNat % 32 :=
    congrArg Nat.cast same.row
  obtain ⟨down, isDown⟩ := Int.eq_ofNat_of_zero_le
    (Int.emod_nonneg (row - (machine.register y).toNat % 32) (by decide : (32 : Int) ≠ 0))
  simp only [spriteBit, origin, origin', isDown]
  by_cases inRows : down < rows
  · have bytes := same.bytes down inRows
    simp only [indexed] at bytes
    rw [bytes]
  · have beyond : decide ((down : Int) < rows) = false := decide_eq_false (by omega)
    simp only [beyond, Bool.and_false, Bool.false_and]

/-- The second of two equal sprites takes the first off again. -/
theorem Drawn.restores {machine drawn again final : Machine} {x y x' y' : Register} {rows : Nat}
    (first : machine.Drawn x y rows drawn)
    (picture : ∀ column row, again.screen.get column row = drawn.screen.get column row)
    (same : machine.SameSprite x y again x' y' rows)
    (second : again.Drawn x' y' rows final) (column row : Int) :
    final.screen.get column row = machine.screen.get column row := by
  obtain ⟨old, before, between⟩ := first.cells column row
  obtain ⟨value, met, left⟩ := second.cells column row
  rw [picture, between] at met
  cases met
  rw [left, before, same.spriteBit_eq, UInt8.xor_assoc, UInt8.xor_self, UInt8.xor_zero]

/-- A sprite is laid over the picture all at once, whether it is executed by itself or fetched by
a cycle, and a second one like it takes it off again. -/
theorem drawn_of_reachable {machine : Machine} (reachable : machine.Reachable) (x y : Register)
    (rows : Fin 16) :
    (∃ next told, machine.execute (.draw x y rows) = .ok (next, told) ∧
      machine.Drawn x y rows next) ∧
    ((Instruction.draw x y rows).word = machine.nextWord →
      machine.cycle.answer = .ok () ∧ machine.Drawn x y rows machine.cycle.state) ∧
    ∀ (drawn again final : Machine) (x' y' : Register), machine.Drawn x y rows drawn →
      (∀ column row, again.screen.get column row = drawn.screen.get column row) →
      machine.SameSprite x y again x' y' rows → again.Drawn x' y' rows final →
      ∀ column row, final.screen.get column row = machine.screen.get column row := by
  refine ⟨reachable.wellFormed.drawn_of_draw x y rows, reachable.wellFormed.drawn_of_cycle, ?_⟩
  intro drawn again final x' y' first picture same second
  exact first.restores picture same second

/-- A program that draws a glyph and then once more, with its column in the register for flags. -/
def signwriter : Machine :=
  (Machine.assemble .plain (.scripted [] 0) false).1.after
    [.loadRom [0xa0, 0x50, 0xdf, 0x15, 0xdf, 0x15], .cycle]

theorem drawn_of_reachable_signwriter :
    let drawn := signwriter.cycle.state
    let final := drawn.cycle.state
    drawn.screen.valueAt (3, 0) = 1 ∧ drawn.register flagRegister = 0 ∧
      final.register flagRegister = 1 ∧
      ∀ column row, final.screen.get column row = signwriter.screen.get column row := by
  intro drawn final
  have assembled := Reachable.assembled .plain (.scripted [] 0) false
  have reachable : signwriter.Reachable := assembled.after _
  have wellFormed : drawn.WellFormed := (reachable.after [.cycle]).wellFormed
  obtain ⟨word, word', column, row, bytes, set, untouched, hit⟩ :
      (Instruction.draw 15 1 5).word = signwriter.nextWord ∧
      (Instruction.draw 15 1 5).word = drawn.nextWord ∧
      (drawn.register 15).toNat % 64 = (signwriter.register 15).toNat % 64 ∧
      (drawn.register 1).toNat % 32 = (signwriter.register 1).toNat % 32 ∧
      (∀ place < 5, drawn.memory.byteAt (drawn.indexed place) =
        signwriter.memory.byteAt (signwriter.indexed place)) ∧
      drawn.screen.valueAt (3, 0) = 1 ∧ drawn.register flagRegister = 0 ∧
      final.register flagRegister = 1 := by
    decide +kernel
  obtain ⟨_, cycle, restores⟩ := drawn_of_reachable reachable 15 1 5
  have first := (cycle word).2
  have second := (wellFormed.drawn_of_cycle word').2
  have same : signwriter.SameSprite 15 1 drawn 15 1 5 := ⟨column, row, bytes⟩
  exact ⟨set, untouched, hit, restores drawn drawn final 15 1 first (fun _ _ => rfl) same second⟩

end Chip8.Machine
