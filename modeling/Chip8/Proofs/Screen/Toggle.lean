import Chip8.Proofs.Screen

/-!
# Cells turned over

Positions that wrap to the same column and row name the same cell. Turning positions over one
after the other leaves a cell as it was unless an odd number of them name it, in whatever order
they come. If no two of them name the same cell, each finds its cell as it was before the first.
-/

set_option autoImplicit false

namespace Chip8.Screen

def SameCell (screen : Screen) (first second : Int × Int) : Prop :=
  first.1 % screen.width = second.1 % screen.width ∧
    first.2 % screen.height = second.2 % screen.height

instance (screen : Screen) (first second : Int × Int) : Decidable (screen.SameCell first second) :=
  inferInstanceAs (Decidable (_ ∧ _))

def valueAt (screen : Screen) (position : Int × Int) : UInt8 :=
  screen.cellAt (position.1 % screen.width) (position.2 % screen.height)

section

variable {screen : Screen} {first second third : Int × Int}

theorem SameCell.symm (same : screen.SameCell first second) : screen.SameCell second first :=
  ⟨same.1.symm, same.2.symm⟩

theorem SameCell.trans (before : screen.SameCell first second)
    (after : screen.SameCell second third) : screen.SameCell first third :=
  ⟨before.1.trans after.1, before.2.trans after.2⟩

theorem valueAt_of_sameCell (same : screen.SameCell first second) :
    screen.valueAt first = screen.valueAt second := by
  rw [valueAt, valueAt, same.1, same.2]

/-- Of positions that all name different cells at most one names a given cell. -/
theorem countP_of_apart {positions : List (Int × Int)}
    (apart : positions.Pairwise fun a b => ¬screen.SameCell a b) (position : Int × Int) :
    positions.countP (fun other => screen.SameCell position other) =
      (positions.any fun other => screen.SameCell position other).toNat := by
  induction apart with
  | nil => rfl
  | @cons head rest others _ ih =>
      rw [List.countP_cons, List.any_cons, ih]
      by_cases named : screen.SameCell position head
      · have unnamed : (rest.any fun other => screen.SameCell position other) = false := by
          simp only [List.any_eq_false, decide_eq_true_eq]
          intro other member same
          exact others other member (named.symm.trans same)
        rw [unnamed, decide_eq_true named]
        rfl
      · rw [decide_eq_false named]
        rfl

end

namespace WellFormed

variable {screen : Screen} (wellFormed : screen.WellFormed)

include wellFormed

theorem get_eq_valueAt (x y : Int) : screen.get x y = .ok (screen.valueAt (x, y)) := by
  have inRange := wellFormed.place_inRange (wellFormed.column_bounds x) (wellFormed.row_bounds y)
  rw [get, wellFormed.wrap_eq]
  exact Memory.read_of_inRange inRange

theorem valueAt_toggle (x y : Int) (position : Int × Int) :
    (screen.toggle x y).state.valueAt position =
      if screen.SameCell position (x, y) then screen.valueAt position ^^^ 1
      else screen.valueAt position := by
  obtain ⟨cells, _, bytes, toggled⟩ := wellFormed.toggle_eq x y
  have named : screen.place (position.1 % screen.width, position.2 % screen.height) =
      screen.place (x % screen.width, y % screen.height) ↔ screen.SameCell position (x, y) :=
    place_inj (wellFormed.column_bounds _) (wellFormed.column_bounds x)
  rw [toggled]
  refine (bytes (screen.place (position.1 % screen.width, position.2 % screen.height))).trans ?_
  simp only [named]
  split
  case isTrue same => exact congrArg (· ^^^ 1) (valueAt_of_sameCell same).symm
  case isFalse => rfl

theorem toggleAll_cons (x y : Int) (rest : List (Int × Int)) :
    (screen.toggleAll ((x, y) :: rest)).state = ((screen.toggle x y).state.toggleAll rest).state ∧
      (screen.toggleAll ((x, y) :: rest)).answer =
        ((screen.toggle x y).state.toggleAll rest).answer.map
          (screen.valueAt (x, y) != 0 || ·) := by
  obtain ⟨cells, _, _, toggled⟩ := wellFormed.toggle_eq x y
  simp only [Screen.toggleAll, toggled]
  exact ⟨trivial, rfl⟩

theorem sameCell_toggle (x y : Int) (first second : Int × Int) :
    (screen.toggle x y).state.SameCell first second ↔ screen.SameCell first second := by
  obtain ⟨cells, _, _, toggled⟩ := wellFormed.toggle_eq x y
  rw [toggled]
  exact Iff.rfl

/-- Turning a cell over an even number of times leaves it as it was. -/
theorem valueAt_toggleAll (positions : List (Int × Int)) (position : Int × Int) :
    (screen.toggleAll positions).state.valueAt position =
      screen.valueAt position ^^^
        (positions.countP (fun other => screen.SameCell position other) % 2 == 1).toUInt8 := by
  induction positions generalizing screen with
  | nil => exact (UInt8.xor_zero).symm
  | cons head rest ih =>
      obtain ⟨x, y⟩ := head
      have others := ih (wellFormed.toggle x y)
      simp only [wellFormed.sameCell_toggle, wellFormed.valueAt_toggle] at others
      rw [(wellFormed.toggleAll_cons x y rest).1, others, List.countP_cons]
      generalize rest.countP (fun other => screen.SameCell position other) = turns
      by_cases named : screen.SameCell position (x, y)
      · -- One more turn makes an odd number of turns even, and an even one odd.
        rw [if_pos named, if_pos (decide_eq_true named), UInt8.xor_assoc]
        have parity : turns % 2 = 0 ∨ turns % 2 = 1 := by omega
        rcases parity with even | odd
        · rw [even, show (turns + 1) % 2 = 1 by omega]
          rfl
        · rw [odd, show (turns + 1) % 2 = 0 by omega]
          rfl
      · rw [if_neg named, if_neg (by simp [named]), Nat.add_zero]

section

variable {positions : List (Int × Int)}
  (apart : positions.Pairwise fun a b => ¬screen.SameCell a b)

include apart

theorem valueAt_toggleAll_of_apart (position : Int × Int) :
    (screen.toggleAll positions).state.valueAt position =
      screen.valueAt position ^^^
        (positions.any fun other => screen.SameCell position other).toUInt8 := by
  rw [wellFormed.valueAt_toggleAll, countP_of_apart apart]
  cases positions.any fun other => screen.SameCell position other with
  | false => rfl
  | true => rfl

/-- No cell is turned over before its own turn comes. -/
theorem answer_toggleAll_of_apart :
    (screen.toggleAll positions).answer =
      .ok (positions.any fun position => screen.valueAt position != 0) := by
  induction positions generalizing screen with
  | nil => rfl
  | cons head rest ih =>
      obtain ⟨x, y⟩ := head
      obtain ⟨others, apartRest⟩ := List.pairwise_cons.mp apart
      have untouched : ∀ position ∈ rest,
          (screen.toggle x y).state.valueAt position = screen.valueAt position := by
        intro position member
        rw [wellFormed.valueAt_toggle, if_neg fun same => others position member same.symm]
      have later := ih (wellFormed.toggle x y)
        (apartRest.imp fun other same => other ((wellFormed.sameCell_toggle x y _ _).mp same))
      rw [(wellFormed.toggleAll_cons x y rest).2, later, List.any_cons]
      refine congrArg (fun hit => Except.ok (screen.valueAt (x, y) != 0 || hit)) ?_
      rw [Bool.eq_iff_iff, List.any_eq_true, List.any_eq_true]
      exact exists_congr fun position => and_congr_right fun member => by
        rw [untouched position member]

end

end WellFormed

end Chip8.Screen
