import Chip8.Proofs.Memory
import Chip8.Signal

/-!
# Storing in a memory

A call that stores checks one address, and a rule that counts negative addresses from the end
then finds the cells. A block that begins before the first cell never finds as many cells as it
has bytes, so it is never stored in part nor at the other end. Every call therefore either
stores all that it was given in the cells that it names, or changes nothing.
-/

set_option autoImplicit false

namespace Chip8.Memory

section

variable {memory : Memory} {address last : Int}

theorem cutPoint_of_within {length : Nat} (natural : 0 ≤ address) (within : address ≤ length) :
    cutPoint length address = address.toNat := by
  rw [cutPoint, if_neg (by omega)]
  omega

theorem span_of_within (natural : 0 ≤ address) (ordered : address ≤ last)
    (within : last ≤ memory.size) :
    memory.span address last = (address.toNat, (last - address).toNat) := by
  have length := memory.size_cells
  have first : cutPoint memory.cells.size address = address.toNat :=
    cutPoint_of_within natural (by omega)
  have second : cutPoint memory.cells.size last = last.toNat :=
    cutPoint_of_within (by omega) (by omega)
  simp only [span, first, second]
  congr 1
  omega

/-- Cells that are counted from the end are fewer than the addresses that they were asked for. -/
theorem span_lt_of_neg (negative : address < 0) (inRange : memory.InRange (last - 1)) :
    (memory.span address last).2 < (last - address).toNat := by
  have length := memory.size_cells
  obtain ⟨first, within⟩ := inRange
  have second : cutPoint memory.cells.size last = last.toNat :=
    cutPoint_of_within (by omega) (by omega)
  simp only [span, second]
  omega

end

section

variable (memory : Memory)

theorem writeBlock_eq (address : Int) (block : List UInt8) :
    memory.writeBlock address block =
      if memory.InRange (address + block.length - 1) then
        if 0 ≤ address then .ok (memory.overwrite address.toNat block) else .error .blockMismatch
      else .error (.addressOutOfRange (address + block.length - 1)) := by
  simp only [writeBlock, check, bind, Except.bind]
  by_cases inRange : memory.InRange (address + block.length - 1)
  · simp only [if_pos inRange]
    by_cases natural : 0 ≤ address
    · have cells : memory.span address (address + block.length) = (address.toNat, block.length) := by
        rw [span_of_within natural (by omega) (Int.le_of_sub_one_lt inRange.2)]
        congr 1
        omega
      simp only [cells, ↓reduceIte, if_pos natural]
      rfl
    · have fewer := span_lt_of_neg (Int.not_le.mp natural) inRange
      rw [if_neg (by omega), if_neg natural]
      rfl
  · simp only [if_neg inRange]

theorem zeroBlock_eq (room : Room) (address size : Int) :
    memory.zeroBlock room address size =
      if memory.InRange (address + size - 1) then
        (Extent.check room size).bind fun _ =>
          if 0 ≤ address ∧ 0 ≤ size then
            .ok (memory.overwrite address.toNat (List.replicate size.toNat 0))
          else .error .blockMismatch
      else .error (.addressOutOfRange (address + size - 1)) := by
  simp only [zeroBlock, check, bind, Except.bind]
  by_cases inRange : memory.InRange (address + size - 1)
  · simp only [if_pos inRange]
    cases Extent.check room size with
    | error cause => rfl
    | ok _ =>
        by_cases counted : 0 ≤ address ∧ 0 ≤ size
        · have cells : memory.span address (address + size) = (address.toNat, size.toNat) := by
            rw [span_of_within counted.1 (by omega) (Int.le_of_sub_one_lt inRange.2)]
            congr 1
            omega
          simp only [cells, and_true, if_pos counted, if_pos counted.2]
          rfl
        · have mismatch : ¬(0 ≤ size ∧
              (memory.span address (address + size)).2 = size.toNat) := by
            rintro ⟨natural, same⟩
            have negative : address < 0 := by omega
            have fewer := span_lt_of_neg negative inRange
            omega
          simp only [if_neg mismatch, if_neg counted]
          rfl
  · simp only [if_neg inRange]

end

inductive Store where
  | byte (address value : Int)
  | block (address : Int) (bytes : List UInt8)
  | zeros (address size : Int)
  | clear
  | rom (bytes : List UInt8) (start : Int)

namespace Store

def run (room : Room) (memory : Memory) : Store → Except Fault Memory
  | byte address value => memory.write address value
  | block address bytes => memory.writeBlock address bytes
  | zeros address size => memory.zeroBlock room address size
  | clear => memory.clear
  | rom bytes start => memory.loadRom bytes start

def start : Store → Int
  | byte address _ | block address _ | zeros address _ => address
  | clear => 0
  | rom _ start => start

def bytes (memory : Memory) : Store → List UInt8
  | byte _ value => [UInt8.ofNat value.toNat]
  | block _ bytes | rom bytes _ => bytes
  | zeros _ size => List.replicate size.toNat 0
  | clear => List.replicate memory.size.toNat 0

def Fits (room : Room) (memory : Memory) : Store → Prop
  | byte address value => memory.InRange address ∧ 0 ≤ value ∧ value ≤ 255
  | block address bytes => 0 ≤ address ∧ memory.InRange (address + bytes.length - 1)
  | zeros address size =>
      0 ≤ address ∧ 0 ≤ size ∧ memory.InRange (address + size - 1) ∧ Extent.Fits room size
  | clear => 0 < memory.size ∧ memory.size < Extent.countBound
  | rom bytes start => bytes.length ≤ memory.size - start ∧ (bytes = [] ∨ 0 ≤ start)

end Store

def carryOut (memory : Memory) (room : Room) (store : Store) : Outcome Memory Unit :=
  .ofExcept memory (store.run room memory)

/-- The memories differ in some bytes from an address on, and in nothing else. -/
structure Written (before : Memory) (start : Int) (bytes : List UInt8) (after : Memory) : Prop where
  size : after.size = before.size
  inRange : ∀ place < bytes.length, before.InRange (start + place)
  byteAt : ∀ address, after.byteAt address =
    if start ≤ address ∧ address < start + bytes.length then
      bytes.getD (address - start).toNat 0
    else before.byteAt address

/-- What a call makes of a memory, whether it can be carried out or not. -/
structure StoreLaw (memory : Memory) (room : Room) (store : Store) : Prop where
  fits : store.Fits room memory → ∃ written, store.run room memory = .ok written ∧
    memory.Written store.start (store.bytes memory) written
  unfit : ¬store.Fits room memory → ∃ cause, store.run room memory = .error cause

section

variable {memory : Memory} {room : Room}

theorem written_nil (start : Int) : memory.Written start [] memory where
  size := rfl
  inRange := nofun
  byteAt := by
    intro address
    rw [if_neg (by simp only [List.length_nil]; omega)]

theorem written_overwrite {start : Int} {bytes : List UInt8} (natural : 0 ≤ start)
    (fits : start + bytes.length ≤ memory.size) :
    memory.Written start bytes (memory.overwrite start.toNat bytes) := by
  have place : (start.toNat : Int) = start := Int.toNat_of_nonneg natural
  refine ⟨rfl, fun place within => ⟨by omega, by omega⟩, fun address => ?_⟩
  rw [byteAt_overwrite (by omega), place]

theorem written_singleton {written : Memory} {address : Int} {byte : UInt8}
    (inRange : memory.InRange address) (size : written.size = memory.size)
    (cells : ∀ other, written.byteAt other = if other = address then byte else memory.byteAt other) :
    memory.Written address [byte] written where
  size := size
  inRange := by
    intro place within
    rw [Nat.lt_one_iff.mp within]
    exact (Int.add_zero address).symm ▸ inRange
  byteAt := by
    intro other
    rw [cells]
    by_cases same : other = address
    · subst same
      rw [if_pos rfl, if_pos ⟨Int.le_refl _, Int.lt_succ other⟩, Int.sub_self]
      rfl
    · rw [if_neg same, if_neg]
      rintro ⟨least, below⟩
      exact same (Int.le_antisymm (Int.lt_add_one_iff.mp below) least)

theorem storeLaw_byte (address value : Int) : memory.StoreLaw room (.byte address value) where
  fits := by
    rintro ⟨inRange, isByte⟩
    obtain ⟨written, stored, size, cells⟩ := write_of_inRange inRange isByte
    exact ⟨written, stored, written_singleton inRange size cells⟩
  unfit := by
    intro unfit
    by_cases inRange : memory.InRange address
    · have notByte : ¬(0 ≤ value ∧ value ≤ 255) := fun isByte => unfit ⟨inRange, isByte⟩
      refine ⟨.notAByte value, ?_⟩
      simp only [Store.run, write, dif_pos inRange, if_neg notByte]
    · refine ⟨.addressOutOfRange address, ?_⟩
      simp only [Store.run, write, dif_neg inRange]

theorem storeLaw_block (address : Int) (bytes : List UInt8) :
    memory.StoreLaw room (.block address bytes) where
  fits := by
    rintro ⟨natural, inRange⟩
    have ends : address + bytes.length ≤ memory.size := Int.le_of_sub_one_lt inRange.2
    refine ⟨memory.overwrite address.toNat bytes, ?_, written_overwrite natural ends⟩
    rw [Store.run, writeBlock_eq, if_pos inRange, if_pos natural]
  unfit := by
    intro unfit
    rw [Store.run, writeBlock_eq]
    split
    · next inRange =>
        rw [if_neg fun natural => unfit ⟨natural, inRange⟩]
        exact ⟨_, rfl⟩
    · exact ⟨_, rfl⟩

theorem storeLaw_zeros (address size : Int) : memory.StoreLaw room (.zeros address size) where
  fits := by
    rintro ⟨natural, counted, inRange, fits⟩
    have ends : address + (List.replicate size.toNat (0 : UInt8)).length ≤ memory.size := by
      rw [List.length_replicate, Int.toNat_of_nonneg counted]
      exact Int.le_of_sub_one_lt inRange.2
    refine ⟨memory.overwrite address.toNat (List.replicate size.toNat 0), ?_,
      written_overwrite natural ends⟩
    rw [Store.run, zeroBlock_eq, if_pos inRange, Extent.check_eq_ok_iff.mpr fits]
    exact if_pos ⟨natural, counted⟩
  unfit := by
    intro unfit
    rw [Store.run, zeroBlock_eq]
    split
    · next inRange =>
        cases fits : Extent.check room size with
        | error cause => exact ⟨cause, rfl⟩
        | ok _ =>
            refine ⟨.blockMismatch, if_neg ?_⟩
            rintro ⟨natural, counted⟩
            exact unfit ⟨natural, counted, inRange, Extent.check_eq_ok_iff.mp fits⟩
    · exact ⟨_, rfl⟩

/-- Clearing stores as many zeros as there are cells, which takes at least one cell. -/
theorem fits_clear_iff :
    Store.clear.Fits room memory ↔ (Store.zeros 0 memory.size).Fits .ample memory := by
  have least : -Extent.countBound ≤ 0 := by decide
  simp only [Store.Fits, InRange]
  constructor
  · rintro ⟨cells, below⟩
    exact ⟨by omega, by omega, ⟨by omega, by omega⟩, by omega, below, Room.admits_ample _⟩
  · rintro ⟨_, _, ⟨_, _⟩, fits⟩
    exact ⟨by omega, fits.below⟩

theorem storeLaw_clear : memory.StoreLaw room .clear where
  fits := fun fits => (storeLaw_zeros 0 memory.size).fits (fits_clear_iff.mp fits)
  unfit := fun unfit => (storeLaw_zeros 0 memory.size).unfit (mt fits_clear_iff.mpr unfit)

theorem storeLaw_rom (bytes : List UInt8) (start : Int) :
    memory.StoreLaw room (.rom bytes start) := by
  by_cases large : memory.size - start < bytes.length
  · have unfit : ¬(Store.rom bytes start).Fits room memory := fun fits =>
      Int.not_le.mpr large fits.1
    refine ⟨fun fits => absurd fits unfit, fun _ => ?_⟩
    exact ⟨_, if_pos large⟩
  · have run : (Store.rom bytes start).run room memory =
        if bytes.isEmpty then .ok memory else memory.writeBlock start bytes := if_neg large
    cases bytes with
    | nil => exact ⟨fun _ => ⟨memory, run, written_nil start⟩, fun unfit =>
        absurd ⟨Int.not_lt.mp large, .inl rfl⟩ unfit⟩
    | cons first rest =>
        -- What is not empty and begins on the row has its last byte there as well.
        have law : memory.StoreLaw room (.block start (first :: rest)) := storeLaw_block start _
        have same : (Store.rom (first :: rest) start).Fits room memory ↔
            (Store.block start (first :: rest)).Fits room memory := by
          simp only [Store.Fits, InRange, reduceCtorEq, false_or, List.length_cons] at large ⊢
          omega
        exact ⟨fun fits => run ▸ law.fits (same.mp fits), fun unfit =>
          run ▸ law.unfit (mt same.mpr unfit)⟩

theorem storeLaw (store : Store) : memory.StoreLaw room store := by
  cases store with
  | byte address value => exact storeLaw_byte address value
  | block address bytes => exact storeLaw_block address bytes
  | zeros address size => exact storeLaw_zeros address size
  | clear => exact storeLaw_clear
  | rom bytes start => exact storeLaw_rom bytes start

theorem carryOut_of_fits {store : Store} (fits : store.Fits room memory) :
    ∃ written, memory.carryOut room store = { state := written, answer := .ok () } ∧
      memory.Written store.start (store.bytes memory) written := by
  obtain ⟨written, ran, differs⟩ := (storeLaw store).fits fits
  refine ⟨written, ?_, differs⟩
  rw [carryOut, ran]
  rfl

theorem carryOut_of_unfit {store : Store} (unfit : ¬store.Fits room memory) :
    ∃ cause, memory.carryOut room store = .fault memory cause := by
  obtain ⟨cause, ran⟩ := (storeLaw store).unfit unfit
  refine ⟨cause, ?_⟩
  rw [carryOut, ran]
  rfl

end

/-- A call that can be carried out leaves the memory with the bytes given in the cells named, and
every other call leaves it as it was. -/
theorem written_or_unchanged (memory : Memory) (room : Room) (store : Store) :
    (store.Fits room memory → ∃ written,
      memory.carryOut room store = { state := written, answer := .ok () } ∧
      memory.Written store.start (store.bytes memory) written) ∧
    (¬store.Fits room memory → ∃ cause, memory.carryOut room store = .fault memory cause) :=
  ⟨carryOut_of_fits, carryOut_of_unfit⟩

end Chip8.Memory
