import Chip8.Proofs.Memory
import Chip8.Screen

/-!
# Well-formed screens

A screen of at least one column and one row whose display was told its size,
and whose cells are as many as the size says and hold zeros and ones. On such
a screen turning a cell over and blanking the picture always succeed, and the
screen stays well formed.
-/

set_option autoImplicit false

namespace Chip8

namespace Screen

structure WellFormed (screen : Screen) : Prop where
  width_pos : 0 < screen.width
  height_pos : 0 < screen.height
  shown_eq : screen.shown = screen.resolution
  size_eq : screen.cells.size = screen.size
  counted : Extent.checkCount screen.size = .ok ()
  bits : ∀ address, screen.cells.byteAt address = 0 ∨ screen.cells.byteAt address = 1

def cellAt (screen : Screen) (column row : Int) : UInt8 :=
  screen.cells.byteAt (screen.place (column, row))

theorem wellFormed_blank {width height : Int} (columns : 0 < width) (rows : 0 < height)
    (counted : Extent.checkCount (width * height) = .ok ()) :
    (blank width height).WellFormed where
  width_pos := columns
  height_pos := rows
  shown_eq := rfl
  size_eq := rfl
  counted := counted
  bits := fun address => .inl (Memory.byteAt_zeros _ address)

theorem of_create {room : Room} {width height : Int} {screen : Screen} {signals : List Signal}
    (created : create room width height = .ok (screen, signals)) :
    screen = blank width height ∧ signals = opening width height ∧
      Extent.Fits room (width * height) := by
  unfold create at created
  cases checked : Extent.check room (width * height) with
  | error cause =>
      rw [checked] at created
      cases created
  | ok _ =>
      rw [checked] at created
      cases created
      exact ⟨rfl, rfl, Extent.check_eq_ok_iff.mp checked⟩

theorem place_inj {screen : Screen} {column row column' row' : Int}
    (inColumns : 0 ≤ column ∧ column < screen.width)
    (inColumns' : 0 ≤ column' ∧ column' < screen.width) :
    screen.place (column, row) = screen.place (column', row') ↔ column = column' ∧ row = row' := by
  constructor
  · intro same
    -- The column is what is left of a place modulo the width.
    simp only [place] at same
    have columns : column = column' := by
      have rest := congrArg (· % screen.width) same
      simpa [Int.add_emod, Int.mul_emod_left, Int.emod_eq_of_lt inColumns.1 inColumns.2,
        Int.emod_eq_of_lt inColumns'.1 inColumns'.2] using rest
    subst columns
    have rows : row * screen.width = row' * screen.width := by omega
    exact ⟨rfl, Int.eq_of_mul_eq_mul_right (by omega) rows⟩
  · rintro ⟨rfl, rfl⟩
    rfl

namespace WellFormed

variable {screen : Screen} (wellFormed : screen.WellFormed)

include wellFormed

theorem wrap_eq (x y : Int) : screen.wrap x y = .ok (x % screen.width, y % screen.height) := by
  have width := wellFormed.width_pos
  have height := wellFormed.height_pos
  rw [wrap, if_neg (by omega), Int.fmod_eq_emod_of_nonneg _ (by omega),
    Int.fmod_eq_emod_of_nonneg _ (by omega)]

theorem column_bounds (x : Int) : 0 ≤ x % screen.width ∧ x % screen.width < screen.width :=
  ⟨Int.emod_nonneg _ (by have := wellFormed.width_pos; omega),
    Int.emod_lt_of_pos _ wellFormed.width_pos⟩

theorem row_bounds (y : Int) : 0 ≤ y % screen.height ∧ y % screen.height < screen.height :=
  ⟨Int.emod_nonneg _ (by have := wellFormed.height_pos; omega),
    Int.emod_lt_of_pos _ wellFormed.height_pos⟩

theorem place_inRange {column row : Int} (inColumns : 0 ≤ column ∧ column < screen.width)
    (inRows : 0 ≤ row ∧ row < screen.height) :
    screen.cells.InRange (screen.place (column, row)) := by
  have size := wellFormed.size_eq
  have below : (row + 1) * screen.width ≤ screen.height * screen.width :=
    Int.mul_le_mul_of_nonneg_right (by omega) (by omega)
  have start : 0 ≤ row * screen.width := Int.mul_nonneg inRows.1 (by omega)
  simp only [Memory.InRange, place, size, Screen.size]
  rw [Int.add_mul, Int.mul_comm screen.height] at below
  omega

theorem shown_pixel? {column row : Int} (inColumns : 0 ≤ column ∧ column < screen.width)
    (inRows : 0 ≤ row ∧ row < screen.height) :
    screen.shown.pixel? column row = some (column.toNat, row.toNat) := by
  simp [wellFormed.shown_eq, resolution, Resolution.pixel?, Resolution.place?, inColumns, inRows]

theorem toggle_eq (x y : Int) :
    ∃ cells : Memory, cells.size = screen.cells.size ∧
      (∀ address, cells.byteAt address =
        if address = screen.place (x % screen.width, y % screen.height) then
          screen.cellAt (x % screen.width) (y % screen.height) ^^^ 1
        else screen.cells.byteAt address) ∧
      screen.toggle x y =
        { state := { screen with cells := cells, dirty := true }
          signals := [.pixel (x % screen.width) (y % screen.height)
            (screen.cellAt (x % screen.width) (y % screen.height) ^^^ 1)]
          answer := .ok (screen.cellAt (x % screen.width) (y % screen.height) != 0) } := by
  have inColumns := wellFormed.column_bounds x
  have inRows := wellFormed.row_bounds y
  have inRange := wellFormed.place_inRange inColumns inRows
  have isByte (byte : UInt8) : 0 ≤ (byte.toNat : Int) ∧ (byte.toNat : Int) ≤ 255 := by
    have := byte.toNat_lt
    omega
  obtain ⟨cells, written, size, bytes⟩ := Memory.write_of_inRange inRange
    (isByte (screen.cells.byteAt (screen.place (x % screen.width, y % screen.height)) ^^^ 1))
  refine ⟨cells, size, fun address => ?_, ?_⟩
  · rw [bytes, Int.toNat_natCast, UInt8.ofNat_toNat]
    rfl
  · simp only [toggle, wellFormed.wrap_eq, Memory.read_of_inRange inRange, written,
      wellFormed.shown_pixel? inColumns inRows]
    rfl

theorem toggle (x y : Int) : (screen.toggle x y).state.WellFormed := by
  obtain ⟨cells, size, bytes, toggled⟩ := wellFormed.toggle_eq x y
  rw [toggled]
  refine { wellFormed with size_eq := size.trans wellFormed.size_eq, bits := fun address => ?_ }
  rw [bytes]
  split
  · rcases wellFormed.bits (screen.place (x % screen.width, y % screen.height)) with old | old
    · exact .inr (by rw [cellAt, old]; rfl)
    · exact .inl (by rw [cellAt, old]; rfl)
  · exact wellFormed.bits address

theorem clear_eq :
    screen.clear =
      { state := { screen with cells := .zeros screen.size, dirty := true }
        signals := screen.resolution.positions.map fun position =>
          .pixel position.1 position.2 0
        answer := .ok () } := by
  have positive : 0 < screen.size := Int.mul_pos wellFormed.width_pos wellFormed.height_pos
  have cleared : screen.cells.clear = .ok (.zeros screen.cells.size) :=
    Memory.clear_of_counted (by rw [wellFormed.size_eq]; exact positive)
      (by rw [wellFormed.size_eq]; exact wellFormed.counted)
  simp only [Screen.clear, cleared, wellFormed.size_eq, wellFormed.shown_eq,
    Resolution.reached_self, Resolution.fitsIn_self, if_pos]

theorem clear : screen.clear.state.WellFormed := by
  rw [wellFormed.clear_eq]
  exact { wellFormed with
    size_eq := rfl
    bits := fun address => .inl (Memory.byteAt_zeros _ address) }

theorem refresh : screen.refresh.1.WellFormed := { wellFormed with }

theorem toggleAll (positions : List (Int × Int)) :
    ∃ hit, (screen.toggleAll positions).answer = .ok hit ∧
      (screen.toggleAll positions).state.WellFormed ∧
      (screen.toggleAll positions).state.resolution = screen.resolution := by
  induction positions generalizing screen with
  | nil => exact ⟨false, rfl, wellFormed, rfl⟩
  | cons position rest ih =>
      obtain ⟨x, y⟩ := position
      obtain ⟨cells, size, bytes, toggled⟩ := wellFormed.toggle_eq x y
      have next := wellFormed.toggle x y
      rw [toggled] at next
      obtain ⟨hit, answer, kept, same⟩ := ih next
      simp only [Screen.toggleAll, toggled, answer]
      exact ⟨_, rfl, kept, same⟩

end WellFormed

end Screen

end Chip8
