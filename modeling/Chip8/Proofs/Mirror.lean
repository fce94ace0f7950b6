import Chip8.Proofs.Display
import Chip8.Proofs.Screen

/-!
# Displays that mirror a screen

A display mirrors a well-formed screen when its pixels are the cells of the
screen and its frame is that picture too, unless the screen remembers a change.
Every operation of the screen keeps its display a mirror, given the signals.
-/

set_option autoImplicit false

namespace Chip8

structure Display.Mirrors (display : Display) (screen : Screen) : Prop where
  wellFormed : screen.WellFormed
  shape : display.WellFormed
  width : display.width = screen.width
  height : display.height = screen.height
  pixels : ∀ column row : Nat, column < screen.width → row < screen.height →
    display.pixelAt column row = screen.cellAt column row
  frame : screen.dirty = false → display.frame = display.pixels

theorem Resolution.mem_positions {resolution : Resolution} {column row : Nat} :
    (column, row) ∈ resolution.positions ↔ column < resolution.width ∧ row < resolution.height := by
  simp only [positions, List.mem_flatMap, List.mem_range, List.mem_map, Prod.mk.injEq]
  constructor
  · rintro ⟨_, rows, _, columns, rfl, rfl⟩
    omega
  · rintro ⟨columns, rows⟩
    exact ⟨row, by omega, column, by omega, rfl, rfl⟩

namespace Screen.WellFormed

variable {screen : Screen} (wellFormed : screen.WellFormed)

include wellFormed

theorem rows_eq :
    screen.rows = .ok ((List.range screen.height.toNat).map fun row : Nat =>
      (List.range screen.width.toNat).map fun column : Nat => screen.cellAt column row) := by
  have positive : 0 < screen.size := Int.mul_pos wellFormed.width_pos wellFormed.height_pos
  have size := wellFormed.size_eq
  have width := Int.toNat_of_nonneg (Int.le_of_lt wellFormed.width_pos)
  have height := Int.toNat_of_nonneg (Int.le_of_lt wellFormed.height_pos)
  have length : screen.cells.cells.size = screen.width.toNat * screen.height.toNat := by
    rw [screen.cells.size_cells, size, Screen.size, ← width, ← height]
    rfl
  have block := (Memory.readBlock_all (by rw [size]; exact positive) :
    screen.cells.readBlock 0 screen.cells.size = _)
  rw [size] at block
  simp only [rows, block, bind, Except.bind]
  refine congrArg Except.ok (List.map_congr_left fun row inRows => ?_)
  rw [List.mem_range] at inRows
  have below : (row + 1) * screen.width.toNat ≤ screen.width.toNat * screen.height.toNat := by
    rw [Nat.mul_comm]
    exact Nat.mul_le_mul_left _ inRows
  rw [Nat.add_mul, Nat.one_mul] at below
  refine List.ext_getElem ?_ fun column here there => ?_
  · simp only [List.length_take, List.length_drop, Array.length_toList, List.length_map,
      List.length_range, length]
    omega
  · have place : screen.place (column, row) = (row * screen.width.toNat + column : Nat) := by
      rw [Screen.place, ← width]
      rfl
    have inside : column < screen.width.toNat := by simpa using there
    have cell : row * screen.width.toNat + column < screen.cells.cells.size := by omega
    have value : screen.cellAt column row =
        screen.cells.cells[row * screen.width.toNat + column] := by
      rw [cellAt, place, Memory.byteAt_natCast, Array.getD_eq_getD_getElem?,
        Array.getElem?_eq_getElem cell, Option.getD_some]
    simp [value]

end Screen.WellFormed

namespace Display.Mirrors

variable {display : Display} {screen : Screen} (mirrors : display.Mirrors screen)

include mirrors

theorem rows_eq : screen.rows = .ok display.pixelRows := by
  rw [mirrors.wellFormed.rows_eq, mirrors.shape.pixelRows_eq, mirrors.width, mirrors.height]
  refine congrArg Except.ok (List.map_congr_left fun row inRows => ?_)
  refine List.map_congr_left fun column inColumns => ?_
  rw [List.mem_range] at inRows inColumns
  exact (mirrors.pixels column row (by omega) (by omega)).symm

theorem frameRows_eq (clean : screen.dirty = false) : screen.rows = .ok display.frameRows := by
  rw [mirrors.rows_eq, Display.frameRows, mirrors.frame clean]
  rfl

theorem toggle (x y : Int) :
    (display.receiveAll (screen.toggle x y).signals).Mirrors (screen.toggle x y).state := by
  have next := mirrors.wellFormed.toggle x y
  obtain ⟨cells, size, bytes, toggled⟩ := mirrors.wellFormed.toggle_eq x y
  have columns := mirrors.wellFormed.column_bounds x
  have rows := mirrors.wellFormed.row_bounds y
  have inColumns : 0 ≤ x % screen.width ∧ x % screen.width < display.width := by
    rw [mirrors.width]
    exact columns
  have inRows : 0 ≤ y % screen.height ∧ y % screen.height < display.height := by
    rw [mirrors.height]
    exact rows
  rw [toggled] at next ⊢
  simp only [receiveAll, List.foldl_cons, List.foldl_nil]
  have same := receive_pixel inColumns inRows
    (screen.cellAt (x % screen.width) (y % screen.height) ^^^ 1)
  refine {
    wellFormed := next
    shape := mirrors.shape.pixel inColumns inRows _
    width := ?_
    height := ?_
    pixels := fun column row below above => ?_
    frame := fun clean => Bool.noConfusion clean }
  · rw [same]
    exact mirrors.width
  · rw [same]
    exact mirrors.height
  · -- Different cells have different places, so the cell turned over is the pixel told.
    have here : 0 ≤ (column : Int) ∧ (column : Int) < screen.width := ⟨by omega, below⟩
    have named : screen.place (column, row) = screen.place (x % screen.width, y % screen.height) ↔
        column = (x % screen.width).toNat ∧ row = (y % screen.height).toNat := by
      rw [Screen.place_inj here columns]
      omega
    have cell := bytes (screen.place (column, row))
    rw [mirrors.shape.pixelAt_pixel inColumns inRows, mirrors.pixels column row below above]
    simp only [named] at cell
    exact cell.symm

theorem clear : (display.receiveAll screen.clear.signals).Mirrors screen.clear.state := by
  have next := mirrors.wellFormed.clear
  have named (position : Nat × Nat) : position ∈ screen.resolution.positions ↔
      (position.1 : Int) < screen.width ∧ (position.2 : Int) < screen.height :=
    Resolution.mem_positions
  have inside : ∀ position ∈ screen.resolution.positions,
      (position.1 : Int) < display.width ∧ (position.2 : Int) < display.height := by
    intro position member
    rw [mirrors.width, mirrors.height]
    exact (named position).mp member
  obtain ⟨shape, width, height, pixels⟩ := mirrors.shape.pixelAt_zeros _ inside
  rw [mirrors.wellFormed.clear_eq] at next ⊢
  refine {
    wellFormed := next
    shape := shape
    width := width.trans mirrors.width
    height := height.trans mirrors.height
    pixels := fun column row below above => ?_
    frame := fun clean => Bool.noConfusion clean }
  refine (pixels column row).trans ?_
  rw [if_pos ((named (column, row)).mpr ⟨below, above⟩)]
  exact (Memory.byteAt_zeros _ _).symm

theorem refresh : (display.receiveAll screen.refresh.2.1).Mirrors screen.refresh.1 ∧
    (display.receiveAll screen.refresh.2.1).frame = display.pixels := by
  have shown :
      display.receiveAll screen.refresh.2.1 = { display with frame := display.pixels } := by
    simp only [Screen.refresh, receiveAll, List.foldl_cons, List.foldl_nil, receive]
    cases changed : screen.dirty with
    | true => rfl
    | false =>
        exact congrArg (fun frame => { display with frame := frame }) (mirrors.frame changed)
  rw [shown]
  exact ⟨{ mirrors with
    wellFormed := mirrors.wellFormed.refresh
    shape := { mirrors.shape with }
    frame := fun _ => rfl }, rfl⟩

theorem ignore {signals : List Signal} (ignored : ∀ signal ∈ signals, Ignores signal) :
    (display.receiveAll signals).Mirrors screen := by
  rw [receiveAll_of_ignored display ignored]
  exact mirrors

theorem toggleAll (positions : List (Int × Int)) :
    (display.receiveAll (screen.toggleAll positions).signals).Mirrors
      (screen.toggleAll positions).state := by
  induction positions generalizing display screen with
  | nil => exact mirrors
  | cons position rest ih =>
      obtain ⟨x, y⟩ := position
      have next := mirrors.toggle x y
      -- A fault would leave the rest of the cells as they were, but there is none.
      obtain ⟨old, answer⟩ : ∃ old, (screen.toggle x y).answer = .ok old := by
        obtain ⟨_, _, _, toggled⟩ := mirrors.wellFormed.toggle_eq x y
        rw [toggled]
        exact ⟨_, rfl⟩
      simp only [Screen.toggleAll, answer]
      rw [receiveAll_append]
      exact ih next

end Display.Mirrors

theorem Display.mirrors_blank (display : Display) {width height : Int} (columns : 0 < width)
    (rows : 0 < height) (counted : Extent.checkCount (width * height) = .ok ()) :
    (display.receive (.resolution width height)).Mirrors (.blank width height) where
  wellFormed := Screen.wellFormed_blank columns rows counted
  shape := display.wellFormed_blank width height
  width := rfl
  height := rfl
  pixels := by
    intro column row _ _
    rw [pixelAt_blank]
    exact (Memory.byteAt_zeros _ _).symm
  frame := fun clean => Bool.noConfusion clean

end Chip8
