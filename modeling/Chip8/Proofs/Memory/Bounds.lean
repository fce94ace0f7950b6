import Chip8.Proofs.Memory.Storing

/-!
# Bounds of blocks

A block should be accepted exactly if all its cells lie on the row, and be refused as out of
range otherwise. Only its last address is checked. This refuses an empty block at the first
cell, which has no last address, and so a memory without cells cannot be cleared. It passes over
a block that begins before the first cell and ends on the row: such a block cannot be stored,
though not as one that is out of range, and reading it yields fewer bytes than were asked for.
-/

set_option autoImplicit false

namespace Chip8.Memory

def HoldsBlock (memory : Memory) (address : Int) (length : Nat) : Prop :=
  0 ≤ address ∧ address + length ≤ memory.size

def bytesFrom (memory : Memory) (address : Int) (length : Nat) : List UInt8 :=
  (List.range length).map fun place : Nat => memory.byteAt (address + place)

structure Accepts (memory : Memory) (room : Room) (address : Int) (length : Nat) : Prop where
  read : memory.readBlock address length = .ok (memory.bytesFrom address length)
  block : ∀ bytes : List UInt8, bytes.length = length → ∃ written,
    memory.carryOut room (.block address bytes) = { state := written, answer := .ok () } ∧
    memory.Written address bytes written
  zeros : ∃ written,
    memory.carryOut room (.zeros address length) = { state := written, answer := .ok () } ∧
    memory.Written address (List.replicate length 0) written

structure Refuses (memory : Memory) (room : Room) (address : Int) (length : Nat) : Prop where
  read : ∃ last, memory.readBlock address length = .error (.addressOutOfRange last)
  block : ∀ bytes : List UInt8, bytes.length = length → ∃ last,
    memory.carryOut room (.block address bytes) = .fault memory (.addressOutOfRange last)
  zeros : ∃ last,
    memory.carryOut room (.zeros address length) = .fault memory (.addressOutOfRange last)

/-- Blocks of a length at an address fail to be stored, though not as out of range, and are read
in part. -/
structure Overlooks (memory : Memory) (room : Room) (address : Int) (length : Nat) : Prop where
  read : ∃ bytes, memory.readBlock address length = .ok bytes ∧ bytes.length < length
  block : ∀ bytes : List UInt8, bytes.length = length →
    memory.carryOut room (.block address bytes) = .fault memory .blockMismatch
  zeros : ∃ cause, memory.carryOut room (.zeros address length) = .fault memory cause ∧
    ∀ last, cause ≠ .addressOutOfRange last

def BoundsLaw (memory : Memory) (room : Room) (address : Int) (length : Nat) : Prop :=
  (memory.HoldsBlock address length → memory.Accepts room address length) ∧
  (¬memory.HoldsBlock address length → memory.Refuses room address length)

def IsEmptyStart (memory : Memory) (address : Int) (length : Nat) : Prop :=
  address = 0 ∧ length = 0 ∧ 0 ≤ memory.size

def BeginsBefore (memory : Memory) (address : Int) (length : Nat) : Prop :=
  address < 0 ∧ memory.InRange (address + length - 1)

section

variable {memory : Memory} {room : Room} {address : Int} {length : Nat}

theorem length_bytesFrom : (memory.bytesFrom address length).length = length := by
  rw [bytesFrom, List.length_map, List.length_range]

theorem take_drop_cells {start : Nat} (within : start + length ≤ memory.cells.size) :
    (memory.cells.toList.drop start).take length = memory.bytesFrom start length := by
  apply List.ext_getElem
  · rw [length_bytesFrom, List.length_take, List.length_drop, Array.length_toList]
    omega
  · intro place _ inBlock
    rw [length_bytesFrom] at inBlock
    have bound : start + place < memory.cells.size := by omega
    have cell := memory.byteAt_natCast (start + place)
    rw [Array.getD_eq_getD_getElem?, Array.getElem?_eq_getElem bound, Option.getD_some] at cell
    simp only [List.getElem_take, List.getElem_drop, Array.getElem_toList, bytesFrom,
      List.getElem_map, List.getElem_range, ← Int.natCast_add, cell]

theorem refuses_of_outside (outside : ¬memory.InRange (address + length - 1)) :
    memory.Refuses room address length where
  read := by
    refine ⟨address + length - 1, ?_⟩
    simp only [readBlock, check, if_neg outside, bind, Except.bind]
  block := by
    rintro bytes rfl
    refine ⟨address + bytes.length - 1, ?_⟩
    rw [carryOut, Store.run, writeBlock_eq, if_neg outside]
    rfl
  zeros := by
    refine ⟨address + length - 1, ?_⟩
    rw [carryOut, Store.run, zeroBlock_eq, if_neg outside]
    rfl

theorem overlooks_of_beginsBefore (before : memory.BeginsBefore address length) :
    memory.Overlooks room address length where
  read := by
    have fewer := span_lt_of_neg before.1 before.2
    refine ⟨(memory.cells.toList.drop (memory.span address (address + length)).1).take
      (memory.span address (address + length)).2, ?_, ?_⟩
    · simp only [readBlock, check, if_pos before.2, bind, Except.bind]
      rfl
    · rw [List.length_take]
      omega
  block := by
    rintro bytes rfl
    rw [carryOut, Store.run, writeBlock_eq, if_pos before.2, if_neg (Int.not_le.mpr before.1)]
    rfl
  zeros := by
    rw [carryOut, Store.run, zeroBlock_eq, if_pos before.2]
    cases checked : Extent.check room length with
    | error cause =>
        refine ⟨cause, rfl, fun last same => ?_⟩
        obtain ⟨count, tooLarge | tooMany⟩ := Extent.cause_of_check checked
        · cases same.symm.trans tooLarge
        · cases same.symm.trans tooMany
    | ok _ =>
        have unnatural : ¬(0 ≤ address ∧ 0 ≤ (length : Int)) := fun natural =>
          Int.not_le.mpr before.1 natural.1
        refine ⟨.blockMismatch, ?_, fun last same => by cases same⟩
        exact congrArg (Outcome.ofExcept memory) (if_neg unnatural)

/-- A block whose cells all lie on the row has a last address there, unless it is empty and stands
at the first cell. -/
theorem inRange_of_holdsBlock (holds : memory.HoldsBlock address length)
    (proper : ¬memory.IsEmptyStart address length) : memory.InRange (address + length - 1) := by
  obtain ⟨natural, fits⟩ := holds
  have notEmpty : ¬(address = 0 ∧ length = 0) := fun empty =>
    proper ⟨empty.1, empty.2, by omega⟩
  exact ⟨by omega, by omega⟩

theorem readBlock_of_holdsBlock (holds : memory.HoldsBlock address length)
    (inRange : memory.InRange (address + length - 1)) :
    memory.readBlock address length = .ok (memory.bytesFrom address length) := by
  obtain ⟨natural, fits⟩ := holds
  have cells := memory.size_cells
  have place : (address.toNat : Int) = address := Int.toNat_of_nonneg natural
  have block : (memory.cells.toList.drop address.toNat).take length =
      memory.bytesFrom address.toNat length := take_drop_cells (by omega)
  rw [place] at block
  have between : memory.span address (address + length) = (address.toNat, length) := by
    rw [span_of_within natural (by omega) fits]
    congr 1
    omega
  simp only [readBlock, check, if_pos inRange, between, bind, Except.bind, block]
  rfl

theorem fits_of_create {size : Int} {fresh : Memory} (created : create room size = .ok fresh) :
    Extent.Fits room size := by
  unfold create at created
  cases checked : Extent.check room size with
  | error cause =>
      rw [checked] at created
      cases created
  | ok _ => exact Extent.check_eq_ok_iff.mp checked

theorem accepts_of_holdsBlock (fits : Extent.Fits room memory.size)
    (holds : memory.HoldsBlock address length) (inRange : memory.InRange (address + length - 1)) :
    memory.Accepts room address length where
  read := readBlock_of_holdsBlock holds inRange
  block := by
    rintro bytes rfl
    have fits : (Store.block address bytes).Fits room memory := ⟨holds.1, inRange⟩
    exact carryOut_of_fits fits
  zeros := by
    obtain ⟨natural, within⟩ := holds
    have least : -Extent.countBound ≤ (length : Int) := by
      simp only [Extent.countBound]
      omega
    have smaller : Extent.Fits room length := fits.of_le (by omega) least
    have fits : (Store.zeros address length).Fits room memory :=
      ⟨natural, Int.natCast_nonneg length, inRange, smaller⟩
    exact carryOut_of_fits fits

theorem not_boundsLaw_of_isEmptyStart (empty : memory.IsEmptyStart address length) :
    ¬memory.BoundsLaw room address length := by
  obtain ⟨rfl, rfl, cells⟩ := empty
  intro law
  have read := (law.1 ⟨Int.le_refl 0, cells⟩).read
  have refuses : memory.Refuses room 0 0 := refuses_of_outside (by simp [InRange])
  obtain ⟨last, refused⟩ := refuses.read
  cases read.symm.trans refused

theorem not_boundsLaw_of_beginsBefore (before : memory.BeginsBefore address length) :
    ¬memory.BoundsLaw room address length := by
  intro law
  obtain ⟨last, refused⟩ := (law.2 fun holds => Int.not_le.mpr before.1 holds.1).read
  have overlooks : memory.Overlooks room address length := overlooks_of_beginsBefore before
  obtain ⟨bytes, read, _⟩ := overlooks.read
  cases read.symm.trans refused

end

/-- The bounds hold of all blocks but the two kinds whose last address says nothing of the first
one, and a memory can be cleared if it has a cell. -/
theorem bounds_of_block {memory fresh : Memory} {room : Room}
    (created : create room memory.size = .ok fresh) (address : Int) (length : Nat) :
    (memory.BoundsLaw room address length ↔
      ¬memory.IsEmptyStart address length ∧ ¬memory.BeginsBefore address length) ∧
    (memory.IsEmptyStart address length → memory.Refuses room address length) ∧
    (memory.BeginsBefore address length → memory.Overlooks room address length) ∧
    memory.carryOut room .clear =
      if 0 < memory.size then { state := zeros memory.size, answer := .ok () }
      else .fault memory (.addressOutOfRange (memory.size - 1)) := by
  have fits := fits_of_create created
  refine ⟨⟨?_, ?_⟩, ?_, overlooks_of_beginsBefore, ?_⟩
  · intro law
    exact ⟨fun empty => not_boundsLaw_of_isEmptyStart empty law, fun before =>
      not_boundsLaw_of_beginsBefore before law⟩
  · rintro ⟨proper, within⟩
    constructor
    · intro holds
      exact accepts_of_holdsBlock fits holds (inRange_of_holdsBlock holds proper)
    · intro outside
      apply refuses_of_outside
      intro inRange
      by_cases natural : 0 ≤ address
      · exact outside ⟨natural, Int.le_of_sub_one_lt inRange.2⟩
      · exact within ⟨Int.not_le.mp natural, inRange⟩
  · rintro ⟨rfl, rfl, _⟩
    exact refuses_of_outside (by simp [InRange])
  · by_cases cells : 0 < memory.size
    · rw [if_pos cells, carryOut, Store.run, clear_of_counted cells fits.counted]
      rfl
    · have outside : ¬memory.InRange (0 + memory.size - 1) := by
        rintro ⟨natural, _⟩
        omega
      rw [if_neg cells, carryOut, Store.run, clear, zeroBlock_eq, if_neg outside, Int.zero_add]
      rfl

def shelf : Memory := (zeros 5).overwrite 0 [1, 2, 3, 4, 5]

/-- A block that begins three places before the cells is read from the third cell on. -/
theorem bounds_of_block_shelf :
    create .ample shelf.size = .ok (zeros 5) ∧ shelf.BeginsBefore (-3) 8 ∧
      shelf.Overlooks .ample (-3) 8 ∧ (shelf.readBlock (-3) 8).toOption = some [3, 4, 5] ∧
      ¬shelf.BoundsLaw .ample (-3) 8 := by
  have created : create .ample shelf.size = .ok (zeros 5) := rfl
  have before : shelf.BeginsBefore (-3) 8 := ⟨by decide, by decide⟩
  obtain ⟨law, _, overlooks, _⟩ := bounds_of_block created (-3) 8
  exact ⟨created, before, overlooks before, by decide, fun bounded => (law.mp bounded).2 before⟩

/-- A block that begins before the first cell is read as if it were empty, and a memory without
cells is not cleared. -/
theorem block_before_first_cell :
    ¬(zeros 5).HoldsBlock (-2) 3 ∧ (zeros 5).readBlock (-2) 3 = .ok [] ∧
      ¬(zeros 5).BoundsLaw .ample (-2) 3 ∧
      (zeros 0).carryOut .ample .clear = .fault (zeros 0) (.addressOutOfRange (-1)) := by
  refine ⟨fun holds => absurd holds.1 (by decide), rfl, ?_, rfl⟩
  exact not_boundsLaw_of_beginsBefore ⟨by decide, by decide⟩

end Chip8.Memory
