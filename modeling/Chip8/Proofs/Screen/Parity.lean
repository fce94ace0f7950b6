import Chip8.Proofs.Mirror
import Chip8.Proofs.Screen.Toggle

/-!
# The parity of turns

Cells are turned over one call after the other, at any pairs of integers. What becomes of a cell
depends on how many of the pairs name it and not on their order, and each call tells what the cell
was before it. Rows, single cells and calls find a cell in the same place, so no turn spills into
another row.
-/

set_option autoImplicit false

namespace Chip8.Screen

def turned (screen : Screen) (positions : List (Int × Int)) : Screen :=
  positions.foldl (fun screen position => (screen.toggle position.1 position.2).state) screen

theorem toUInt8_parity (count : Nat) : (count % 2 == 1).toUInt8 = UInt8.ofNat (count % 2) := by
  have binary : count % 2 = 0 ∨ count % 2 = 1 := by omega
  rcases binary with even | odd
  · rw [even]
    rfl
  · rw [odd]
    rfl

namespace WellFormed

variable {screen : Screen} (wellFormed : screen.WellFormed)

include wellFormed

/-- Every address of a cell is the place of a column and a row. -/
theorem valueAt_of_inRange {address : Int} (inRange : screen.cells.InRange address) :
    screen.valueAt (address, address / screen.width) = screen.cells.byteAt address := by
  have columns := wellFormed.width_pos
  have size : screen.cells.size = screen.height * screen.width := by
    rw [wellFormed.size_eq, Screen.size, Int.mul_comm]
  have start : 0 ≤ address / screen.width := Int.ediv_nonneg inRange.1 (by omega)
  have below : address / screen.width < screen.height := by
    apply Int.ediv_lt_of_lt_mul columns
    rw [← size]
    exact inRange.2
  have place : screen.place (address % screen.width, address / screen.width) = address := by
    rw [Screen.place, Int.mul_comm]
    exact Int.mul_ediv_add_emod address screen.width
  simp only [valueAt, Int.emod_eq_of_lt start below, cellAt, place]

/-- A screen is told by its size, its flag and the values of its cells. -/
theorem eq_of_valueAt {other : Screen} (wellFormed' : other.WellFormed)
    (resolution : other.resolution = screen.resolution) (dirty : other.dirty = screen.dirty)
    (values : ∀ position, other.valueAt position = screen.valueAt position) : other = screen := by
  have width : other.width = screen.width := congrArg Resolution.width resolution
  have height : other.height = screen.height := congrArg Resolution.height resolution
  have shown : other.shown = screen.shown := by
    rw [wellFormed'.shown_eq, wellFormed.shown_eq, resolution]
  have size : other.cells.size = screen.cells.size := by
    rw [wellFormed'.size_eq, wellFormed.size_eq, Screen.size, Screen.size, width, height]
  have cells : other.cells = screen.cells := by
    refine Memory.eq_of_byteAt size fun address => ?_
    by_cases inRange : screen.cells.InRange address
    · have inRange' : other.cells.InRange address := by
        rw [Memory.InRange, size]
        exact inRange
      rw [← wellFormed.valueAt_of_inRange inRange, ← wellFormed'.valueAt_of_inRange inRange', values,
        width]
    · have outside : ¬other.cells.InRange address := by
        rw [Memory.InRange, size]
        exact inRange
      simp only [Memory.byteAt, Memory.read, dif_neg inRange, dif_neg outside]
  cases other
  cases screen
  cases width
  cases height
  cases shown
  cases cells
  cases dirty
  rfl

theorem toggleAll_eq_turned (positions : List (Int × Int)) :
    (screen.toggleAll positions).state = screen.turned positions := by
  induction positions generalizing screen with
  | nil => rfl
  | cons position rest ih =>
      obtain ⟨x, y⟩ := position
      rw [(wellFormed.toggleAll_cons x y rest).1]
      exact ih (wellFormed.toggle x y)

theorem turned (positions : List (Int × Int)) :
    (screen.turned positions).WellFormed ∧
      (screen.turned positions).resolution = screen.resolution := by
  obtain ⟨_, _, kept, same⟩ := wellFormed.toggleAll positions
  rw [wellFormed.toggleAll_eq_turned] at kept same
  exact ⟨kept, same⟩

theorem dirty_turned (positions : List (Int × Int)) :
    (screen.turned positions).dirty = (screen.dirty || !positions.isEmpty) := by
  induction positions generalizing screen with
  | nil => exact (Bool.or_false screen.dirty).symm
  | cons position rest ih =>
      obtain ⟨_, _, _, toggled⟩ := wellFormed.toggle_eq position.1 position.2
      have first : (screen.toggle position.1 position.2).state.dirty = true := by rw [toggled]
      refine (ih (wellFormed.toggle position.1 position.2)).trans ?_
      rw [first]
      simp

theorem valueAt_turned (positions : List (Int × Int)) (position : Int × Int) :
    (screen.turned positions).valueAt position =
      screen.valueAt position ^^^
        UInt8.ofNat (positions.countP (fun other => screen.SameCell position other) % 2) := by
  rw [← wellFormed.toggleAll_eq_turned, wellFormed.valueAt_toggleAll, toUInt8_parity]

/-- Only the numbers of turns count, so their order does not. -/
theorem turned_of_perm {positions others : List (Int × Int)} (perm : others.Perm positions) :
    screen.turned others = screen.turned positions := by
  obtain ⟨kept, same⟩ := wellFormed.turned positions
  obtain ⟨kept', same'⟩ := wellFormed.turned others
  refine kept.eq_of_valueAt kept' (same'.trans same.symm) ?_ fun position => ?_
  · rw [wellFormed.dirty_turned, wellFormed.dirty_turned, perm.isEmpty_eq]
  · rw [wellFormed.valueAt_turned, wellFormed.valueAt_turned, perm.countP_eq]

theorem answer_toggle (x y : Int) :
    ∃ hit, (screen.toggle x y).answer = .ok hit ∧ (hit = true ↔ screen.get x y = .ok 1) := by
  obtain ⟨_, _, _, toggled⟩ := wellFormed.toggle_eq x y
  have value : screen.cellAt (x % screen.width) (y % screen.height) = screen.valueAt (x, y) := rfl
  have bit : screen.valueAt (x, y) = 0 ∨ screen.valueAt (x, y) = 1 := wellFormed.bits _
  rw [toggled, value, wellFormed.get_eq_valueAt, Except.ok.injEq]
  refine ⟨_, rfl, ?_⟩
  rcases bit with blank | set
  · rw [blank]
    decide
  · rw [set]
    decide

end WellFormed

/-- The rows of a picture are those of the screen, with every cell in its column and its row. -/
structure Shows (screen : Screen) (picture : List (List UInt8)) : Prop where
  height : picture.length = screen.height
  width : ∀ line ∈ picture, line.length = screen.width
  cell : ∀ (column row : Nat) (x y : Int), x % screen.width = column → y % screen.height = row →
    ∃ value, picture[row]?.bind (·[column]?) = some value ∧ screen.get x y = .ok value

theorem WellFormed.shows_rows {screen : Screen} (wellFormed : screen.WellFormed) :
    ∃ picture, screen.rows = .ok picture ∧ screen.Shows picture := by
  have columns := wellFormed.width_pos
  have lines := wellFormed.height_pos
  refine ⟨_, wellFormed.rows_eq, ?_, ?_, ?_⟩
  · rw [List.length_map, List.length_range]
    omega
  · intro line member
    obtain ⟨row, _, rfl⟩ := List.mem_map.mp member
    rw [List.length_map, List.length_range]
    omega
  · intro column row x y across down
    have inColumns := wellFormed.column_bounds x
    have inRows := wellFormed.row_bounds y
    refine ⟨screen.valueAt (x, y), ?_, wellFormed.get_eq_valueAt x y⟩
    rw [List.getElem?_map, List.getElem?_range (by omega), Option.map_some, Option.bind_some,
      List.getElem?_map, List.getElem?_range (by omega), Option.map_some, valueAt, across, down]

/-- On a screen of any size and with any picture, a cell changes with the parity of the calls that
name it, each call tells what its cell was, and the rows show the cells that the calls have left. -/
theorem parity_of_turns {room : Room} {width height : Int} {screen : Screen}
    {signals : List Signal} (created : create room width height = .ok (screen, signals))
    (columns : 1 ≤ width) (lines : 1 ≤ height) {cells : Memory} (sized : cells.size = width * height)
    (bits : ∀ address, cells.byteAt address = 0 ∨ cells.byteAt address = 1) (dirty : Bool)
    (positions : List (Int × Int)) :
    let start := { screen with cells := cells, dirty := dirty }
    let final := start.turned positions
    (∀ column row, ∃ old, start.get column row = .ok old ∧
      final.get column row = .ok (old ^^^ UInt8.ofNat
        (positions.countP (fun position => start.SameCell (column, row) position) % 2))) ∧
    (∀ column row, (∀ position ∈ positions, ¬start.SameCell (column, row) position) →
      final.get column row = start.get column row) ∧
    (∀ others, others.Perm positions → start.turned others = final) ∧
    (∀ before x y after, positions = before ++ (x, y) :: after →
      ∃ hit, ((start.turned before).toggle x y).answer = .ok hit ∧
        (hit = true ↔ (start.turned before).get x y = .ok 1)) ∧
    ∃ picture, final.rows = .ok picture ∧ final.Shows picture := by
  intro start final
  obtain ⟨rfl, -, fits⟩ := of_create created
  have wellFormed : start.WellFormed := {
    width_pos := columns
    height_pos := lines
    shown_eq := rfl
    size_eq := sized
    counted := fits.counted
    bits := bits }
  obtain ⟨kept, _⟩ := wellFormed.turned positions
  have get (column row : Int) : final.get column row = .ok (start.valueAt (column, row) ^^^
      UInt8.ofNat
        (positions.countP (fun position => start.SameCell (column, row) position) % 2)) := by
    rw [kept.get_eq_valueAt, wellFormed.valueAt_turned]
  refine ⟨?_, ?_, ?_, ?_, kept.shows_rows⟩
  · intro column row
    exact ⟨_, wellFormed.get_eq_valueAt column row, get column row⟩
  · intro column row unnamed
    have none : positions.countP (fun position => start.SameCell (column, row) position) = 0 :=
      List.countP_eq_zero.mpr fun position member named =>
        unnamed position member (of_decide_eq_true named)
    rw [get, none, wellFormed.get_eq_valueAt]
    exact congrArg Except.ok UInt8.xor_zero
  · exact fun others perm => wellFormed.turned_of_perm perm
  · intro before x y after _
    exact (wellFormed.turned before).1.answer_toggle x y

/-- Two cells of a small screen are set, and one of them is named twice and the other once. -/
theorem parity_of_turns_corners :
    let start := { blank 3 2 with
      cells := ((blank 3 2).turned [(0, 0), (2, 1)]).cells, dirty := false }
    let final := start.turned [(3, 0), (-1, -1), (5, 3)]
    start.turned [(5, 3), (3, 0), (-1, -1)] = final ∧
    (∃ old, start.get 0 0 = .ok old ∧ final.get 0 0 = .ok (old ^^^ 1)) ∧
    ∃ old, start.get 2 1 = .ok old ∧ final.get 2 1 = .ok (old ^^^ 0) := by
  have wellFormed : (blank 3 2).WellFormed := wellFormed_blank (by decide) (by decide) rfl
  obtain ⟨kept, same⟩ := wellFormed.turned [(0, 0), (2, 1)]
  obtain ⟨parity, _, order, _⟩ :=
    parity_of_turns (rfl : create .ample 3 2 = .ok _) (by decide) (by decide) kept.size_eq kept.bits
      false [(3, 0), (-1, -1), (5, 3)]
  exact ⟨order _ (by decide), parity 0 0, parity 2 1⟩

end Chip8.Screen
