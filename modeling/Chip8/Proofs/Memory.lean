import Chip8.Memory
import Chip8.Proofs.Results

/-!
# Bytes of a memory

A memory is seen through the bytes at its addresses. An access within the
cells always succeeds; a write there replaces one byte, and clearing leaves
zeros. No write changes the size.
-/

set_option autoImplicit false

namespace Chip8

theorem Room.Admits.of_le {room : Room} {count less : Int} (admits : room.Admits count)
    (le : less ≤ count) : room.Admits less :=
  fun limit member => Int.lt_of_le_of_lt le (admits limit member)

theorem Room.admits_ample (count : Int) : Room.ample.Admits count := nofun

namespace Extent

variable {room : Room} {count : Int}

/-- The count fits into 64 bits, and there is room for it. -/
structure Fits (room : Room) (count : Int) : Prop where
  least : -countBound ≤ count
  below : count < countBound
  admits : room.Admits count

theorem Fits.of_le {less : Int} (fits : Fits room count) (le : less ≤ count)
    (least : -countBound ≤ less) : Fits room less where
  least := least
  below := Int.lt_of_le_of_lt le fits.below
  admits := fits.admits.of_le le

theorem checkCount_eq_ok_iff :
    checkCount count = .ok () ↔ -countBound ≤ count ∧ count < countBound := by
  unfold checkCount
  split
  case isTrue counted => exact iff_of_true rfl counted
  case isFalse beyond => exact iff_of_false nofun beyond

theorem check_eq_ok_iff : check room count = .ok () ↔ Fits room count := by
  simp only [check, bind, Except.bind]
  cases counted : checkCount count with
  | error cause =>
      refine iff_of_false nofun fun fits => ?_
      cases counted.symm.trans (checkCount_eq_ok_iff.mpr ⟨fits.least, fits.below⟩)
  | ok _ =>
      obtain ⟨least, below⟩ := checkCount_eq_ok_iff.mp counted
      by_cases admits : room.Admits count
      · simp only [if_pos admits]
        exact iff_of_true rfl ⟨least, below, admits⟩
      · simp only [if_neg admits]
        exact iff_of_false nofun fun fits => admits fits.admits

theorem Fits.counted (fits : Fits room count) : checkCount count = .ok () :=
  checkCount_eq_ok_iff.mpr ⟨fits.least, fits.below⟩

theorem check_ample (counted : checkCount count = .ok ()) : check .ample count = .ok () := by
  obtain ⟨least, below⟩ := checkCount_eq_ok_iff.mp counted
  exact check_eq_ok_iff.mpr ⟨least, below, Room.admits_ample count⟩

theorem cause_of_check {cause : Fault} (refused : check room count = .error cause) :
    ∃ count, cause = .beyondCount count ∨ cause = .outOfMemory count := by
  rcases failure_of_bind refused with refused | ⟨_, _, refused⟩
  · unfold checkCount at refused
    split at refused
    · cases refused
    · cases refused
      exact ⟨_, .inl rfl⟩
  · split at refused
    · cases refused
    · cases refused
      exact ⟨_, .inr rfl⟩

end Extent

namespace Memory

def byteAt (memory : Memory) (address : Int) : UInt8 :=
  (memory.read address).toOption.getD 0

theorem read_of_inRange {memory : Memory} {address : Int} (inRange : memory.InRange address) :
    memory.read address = .ok (memory.byteAt address) := by
  simp only [byteAt, read, dif_pos inRange, Except.toOption, Option.getD_some]

theorem byteAt_natCast (memory : Memory) (address : Nat) :
    memory.byteAt address = memory.cells.getD address 0 := by
  have cells := memory.size_cells
  by_cases inRange : memory.InRange address
  · have bound := inRange.toNat_lt
    simp only [byteAt, read, dif_pos inRange, Except.toOption, Option.getD_some]
    simp only [Int.toNat_natCast] at bound ⊢
    rw [Array.getD_eq_getD_getElem?, Array.getElem?_eq_getElem bound, Option.getD_some]
  · have outside : memory.cells.size ≤ address := by
      simp only [InRange] at inRange
      omega
    simp only [byteAt, read, dif_neg inRange, Except.toOption, Option.getD_none]
    rw [Array.getD_eq_getD_getElem?, Array.getElem?_eq_none outside, Option.getD_none]

theorem byteAt_of_neg {memory : Memory} {address : Int} (negative : address < 0) :
    memory.byteAt address = 0 := by
  have outside : ¬ memory.InRange address := fun inRange => by
    have := inRange.1
    omega
  simp only [byteAt, read, dif_neg outside, Except.toOption, Option.getD_none]

@[simp] theorem byteAt_zeros (size address : Int) : (zeros size).byteAt address = 0 := by
  by_cases negative : address < 0
  · exact byteAt_of_neg negative
  · obtain ⟨index, rfl⟩ := Int.eq_ofNat_of_zero_le (Int.not_lt.mp negative)
    simp only [byteAt_natCast, zeros, Array.getD_eq_getD_getElem?, Array.getElem?_replicate]
    split <;> rfl

theorem byteAt_setCell {memory : Memory} {place : Nat} {byte : UInt8}
    (bound : place < memory.cells.size) (address : Int) :
    (memory.setCell place byte bound).byteAt address =
      if address = place then byte else memory.byteAt address := by
  by_cases negative : address < 0
  · rw [if_neg (by omega), byteAt_of_neg negative, byteAt_of_neg negative]
  · obtain ⟨index, rfl⟩ := Int.eq_ofNat_of_zero_le (Int.not_lt.mp negative)
    simp only [byteAt_natCast, setCell, withCells, Int.natCast_inj, Array.getD_eq_getD_getElem?,
      Array.getElem?_set]
    by_cases same : place = index
    · rw [if_pos same, if_pos same.symm, Option.getD_some]
    · rw [if_neg same, if_neg (Ne.symm same)]

/-- A memory is told by its size and its bytes. -/
theorem eq_of_byteAt {first second : Memory} (size : first.size = second.size)
    (bytes : ∀ address, first.byteAt address = second.byteAt address) : first = second := by
  have length : first.cells.size = second.cells.size := by
    rw [first.size_cells, second.size_cells, size]
  have cells : first.cells = second.cells := by
    refine Array.ext length fun place here there => ?_
    have same := bytes place
    simp only [byteAt_natCast, Array.getD_eq_getD_getElem?, Array.getElem?_eq_getElem here,
      Array.getElem?_eq_getElem there, Option.getD_some] at same
    exact same
  cases first
  cases second
  cases size
  cases cells
  rfl

/-- A byte can be stored at every address within the cells. -/
theorem write_of_inRange {memory : Memory} {address value : Int}
    (inRange : memory.InRange address) (isByte : 0 ≤ value ∧ value ≤ 255) :
    ∃ written, memory.write address value = .ok written ∧ written.size = memory.size ∧
      ∀ other, written.byteAt other =
        if other = address then UInt8.ofNat value.toNat else memory.byteAt other := by
  have natural := Int.toNat_of_nonneg inRange.1
  refine ⟨memory.setCell address.toNat (UInt8.ofNat value.toNat) inRange.toNat_lt, ?_, rfl, ?_⟩
  · simp only [write, dif_pos inRange, if_pos isByte]
  · intro other
    rw [byteAt_setCell, natural]

theorem size_write {memory written : Memory} {address value : Int}
    (stored : memory.write address value = .ok written) : written.size = memory.size := by
  simp only [write] at stored
  split at stored
  · split at stored
    · cases stored
      rfl
    · cases stored
  · cases stored

theorem byteAt_write {memory written : Memory} {address value other : Int}
    (stored : memory.write address value = .ok written) (apart : other ≠ address) :
    written.byteAt other = memory.byteAt other := by
  by_cases inRange : memory.InRange address
  · have natural := Int.toNat_of_nonneg inRange.1
    simp only [write, dif_pos inRange] at stored
    split at stored
    · cases stored
      rw [byteAt_setCell, natural, if_neg apart]
    · cases stored
  · simp only [write, dif_neg inRange] at stored
    cases stored

/-- Bytes that go to different cells are all there once the last one is stored. -/
theorem writeEach_eq {α : Type} (place : α → Int) (value : α → UInt8) {items : List α}
    {memory : Memory} (inside : ∀ item ∈ items, memory.InRange (place item))
    (apart : items.Pairwise fun a b => place a ≠ place b) :
    ∃ stored,
      items.foldlM (fun memory item => memory.write (place item) (value item).toNat) memory =
        .ok stored ∧
      stored.size = memory.size ∧
      (∀ item ∈ items, stored.byteAt (place item) = value item) ∧
      ∀ address, (∀ item ∈ items, address ≠ place item) →
        stored.byteAt address = memory.byteAt address := by
  induction items generalizing memory with
  | nil => exact ⟨memory, rfl, rfl, nofun, fun _ _ => rfl⟩
  | cons item rest ih =>
      obtain ⟨first, later⟩ := List.forall_mem_cons.mp inside
      obtain ⟨others, apartRest⟩ := List.pairwise_cons.mp apart
      have isByte : 0 ≤ ((value item).toNat : Int) ∧ ((value item).toNat : Int) ≤ 255 := by
        have := (value item).toNat_lt
        omega
      obtain ⟨middle, written, size, bytes⟩ := write_of_inRange first isByte
      have inMiddle : ∀ other ∈ rest, middle.InRange (place other) := by
        intro other member
        rw [InRange, size]
        exact later other member
      obtain ⟨stored, folded, sizeStored, held, kept⟩ := ih inMiddle apartRest
      refine ⟨stored, ?_, sizeStored.trans size, List.forall_mem_cons.mpr ⟨?_, held⟩, ?_⟩
      · rw [List.foldlM_cons, written]
        exact folded
      · -- No later byte goes to the cell of the first one.
        rw [kept _ others, bytes, if_pos rfl, Int.toNat_natCast, UInt8.ofNat_toNat]
      · intro address away
        obtain ⟨notFirst, notLater⟩ := List.forall_mem_cons.mp away
        rw [kept address notLater, bytes, if_neg notFirst]

theorem size_clear {memory cleared : Memory} (stored : memory.clear = .ok cleared) :
    cleared.size = memory.size := by
  simp only [clear, zeroBlock, check, bind, Except.bind] at stored
  split at stored
  · cases stored
  · split at stored
    · cases stored
    · split at stored
      · cases stored
        rfl
      · cases stored

theorem size_writeBlock {memory written : Memory} {address : Int} {block : List UInt8}
    (stored : memory.writeBlock address block = .ok written) : written.size = memory.size := by
  simp only [writeBlock, check, bind, Except.bind] at stored
  split at stored
  · cases stored
  · split at stored
    · cases stored
      rfl
    · cases stored

theorem size_loadRom {memory loaded : Memory} {rom : List UInt8} {start : Int}
    (stored : memory.loadRom rom start = .ok loaded) : loaded.size = memory.size := by
  simp only [loadRom] at stored
  split at stored
  · cases stored
  · split at stored
    · cases stored
      rfl
    · exact size_writeBlock stored

theorem inRange_last {memory : Memory} (cells : 0 < memory.size) :
    memory.InRange (0 + memory.size - 1) :=
  ⟨by omega, by omega⟩

theorem cutPoint_size {memory : Memory} (cells : 0 < memory.size) :
    cutPoint memory.cells.size (0 + memory.size) = memory.size.toNat := by
  have length := memory.size_cells
  rw [cutPoint, if_neg (by omega)]
  omega

theorem readBlock_all {memory : Memory} (cells : 0 < memory.size) :
    memory.readBlock 0 memory.size = .ok memory.cells.toList := by
  have length := memory.size_cells
  have whole : memory.cells.toList.take memory.size.toNat = memory.cells.toList :=
    List.take_of_length_le (Nat.le_of_eq (Array.length_toList.trans length))
  simp only [readBlock, check, if_pos (inRange_last cells), span, cutPoint_size cells, bind,
    Except.bind]
  simp [cutPoint, whole, pure, Except.pure]

theorem clear_of_counted {memory : Memory} (cells : 0 < memory.size)
    (counted : Extent.checkCount memory.size = .ok ()) :
    memory.clear = .ok (zeros memory.size) := by
  have room := Extent.check_ample counted
  have length := memory.size_cells
  have blank : memory.overwrite 0 (List.replicate memory.size.toNat 0) = zeros memory.size := by
    have none : memory.cells.toList.drop memory.size.toNat = [] := by
      simp only [← length, Array.size, List.drop_length]
    simp [overwrite, withCells, zeros, length, none]
  rw [← blank]
  simp only [clear, zeroBlock, check, if_pos (inRange_last cells), room, span, cutPoint_size cells,
    bind, Except.bind]
  simp [cutPoint, Int.le_of_lt cells, pure, Except.pure]

/-- A block that fits replaces the bytes from its start on. -/
theorem byteAt_overwrite {memory : Memory} {start : Nat} {block : List UInt8}
    (fits : start + block.length ≤ memory.size) (address : Int) :
    (memory.overwrite start block).byteAt address =
      if start ≤ address ∧ address < start + block.length then
        block.getD (address - start).toNat 0
      else memory.byteAt address := by
  have length : memory.cells.toList.length = memory.size.toNat :=
    Array.length_toList.trans memory.size_cells
  by_cases negative : address < 0
  · rw [if_neg (by omega), byteAt_of_neg negative, byteAt_of_neg negative]
  · obtain ⟨index, rfl⟩ := Int.eq_ofNat_of_zero_le (Int.not_lt.mp negative)
    have place : ((index : Int) - start).toNat = index - start := by omega
    have written : block.take (memory.cells.toList.length - start) = block :=
      List.take_of_length_le (by omega)
    have before : (memory.cells.toList.take start).length = start :=
      List.length_take_of_le (by omega)
    simp only [byteAt_natCast, overwrite, withCells, written, place, Array.getD_eq_getD_getElem?,
      List.getD_eq_getElem?_getD, ← Array.getElem?_toList]
    by_cases ahead : index < start
    · rw [if_neg (by omega), List.getElem?_append_left (by omega), List.getElem?_take_of_lt ahead]
    · rw [List.getElem?_append_right (by omega), before]
      by_cases within : index < start + block.length
      · rw [if_pos (by omega), List.getElem?_append_left (by omega)]
      · rw [if_neg (by omega), List.getElem?_append_right (by omega), List.getElem?_drop]
        congr 2
        omega

theorem loadRom_of_fits {memory : Memory} {start : Nat} {rom : List UInt8}
    (fits : start + rom.length ≤ memory.size) :
    ∃ loaded, memory.loadRom rom start = .ok loaded ∧ loaded.size = memory.size ∧
      ∀ address, loaded.byteAt address =
        if start ≤ address ∧ address < start + rom.length then
          rom.getD (address - start).toNat 0
        else memory.byteAt address := by
  have length := memory.size_cells
  have room : ¬memory.size - start < rom.length := by omega
  simp only [loadRom, if_neg room]
  by_cases empty : rom.isEmpty
  · rw [if_pos empty]
    rw [List.isEmpty_iff] at empty
    refine ⟨memory, rfl, rfl, fun address => ?_⟩
    rw [if_neg (by rw [empty]; simp only [List.length_nil]; omega)]
  · rw [if_neg empty]
    refine ⟨memory.overwrite start rom, ?_, rfl, byteAt_overwrite fits⟩
    have bytes : 0 < rom.length := List.length_pos_iff.mpr (mt List.isEmpty_iff.mpr empty)
    have inRange : memory.InRange (start + rom.length - 1) := ⟨by omega, by omega⟩
    have first : cutPoint memory.cells.size start = start := by
      rw [cutPoint, if_neg (by omega)]
      omega
    have last : cutPoint memory.cells.size (start + rom.length) = start + rom.length := by
      rw [cutPoint, if_neg (by omega)]
      omega
    simp only [writeBlock, check, if_pos inRange, span, first, last, Nat.add_sub_cancel_left,
      bind, Except.bind, ↓reduceIte]
    rfl

end Memory

end Chip8
