import Chip8.Proofs.Display

/-!
# Characters of a drawn frame

The border, the blanks and the line ends of a drawn frame are ASCII. The block is not, and it stands
in the text as soon as a pixel is set and takes any characters at all. So an output without the
block can write exactly the other frames.
-/

set_option autoImplicit false

namespace Chip8

section

variable {α : Type} {separator : α} {lines : List (List α)}

theorem mem_intercalate_of_mem {line : List α} {c : α} (listed : line ∈ lines) (member : c ∈ line) :
    c ∈ [separator].intercalate lines := by
  induction lines with
  | nil => cases listed
  | cons first rest ih =>
      cases rest with
      | nil =>
          cases List.mem_singleton.mp listed
          simpa using member
      | cons second rest =>
          rw [List.intercalate_cons_cons]
          rcases List.mem_cons.mp listed with rfl | later
          · exact List.mem_append_left _ (List.mem_append_left _ member)
          · exact List.mem_append_right _ (ih later)

theorem of_mem_intercalate {c : α} (member : c ∈ [separator].intercalate lines) :
    c = separator ∨ ∃ line ∈ lines, c ∈ line := by
  induction lines with
  | nil => cases member
  | cons first rest ih =>
      cases rest with
      | nil =>
          refine .inr ⟨first, List.mem_singleton.mpr rfl, ?_⟩
          simpa using member
      | cons second rest =>
          rw [List.intercalate_cons_cons, List.append_assoc, List.mem_append, List.mem_append]
            at member
          rcases member with first | separator | later
          · exact .inr ⟨_, List.mem_cons_self, first⟩
          · exact .inl (List.mem_singleton.mp separator)
          · refine (ih later).imp_right ?_
            rintro ⟨line, listed, inside⟩
            exact ⟨line, List.mem_cons_of_mem _ listed, inside⟩

end

namespace Display

def lit (display : Display) : Bool :=
  display.frame.toList.any fun row => row.toList.any (· != 0)

variable {display : Display}

theorem lit_eq_true_iff :
    display.lit = true ↔ ∃ row ∈ display.frame, ∃ value ∈ row, value ≠ 0 := by
  simp only [lit, List.any_eq_true, Array.mem_toList_iff, bne_iff_ne]

theorem rowChars_mem_renderLines {row : Array UInt8} (shown : row ∈ display.frame) :
    display.rowChars row ∈ display.renderLines :=
  List.mem_append_left _ (List.mem_cons_of_mem _
    (List.mem_map.mpr ⟨row, Array.mem_toList_iff.mpr shown, rfl⟩))

theorem of_mem_border {c : Char} (member : c ∈ display.border) : c = '+' ∨ c = '-' := by
  simp only [border, List.mem_append, List.mem_cons, List.mem_replicate, List.not_mem_nil,
    or_false] at member
  rcases member with (corner | ⟨_, dash⟩) | corner
  · exact .inl corner
  · exact .inr dash
  · exact .inl corner

theorem of_mem_rowChars {row : Array UInt8} {c : Char} (member : c ∈ display.rowChars row) :
    c = '|' ∨ c = ' ' ∨ (c = '█' ∧ 0 < display.stretch ∧ ∃ value ∈ row, value ≠ 0) := by
  simp only [rowChars, List.mem_append, List.mem_cons, List.mem_flatMap, cellChars,
    List.mem_replicate, List.not_mem_nil, or_false] at member
  rcases member with (side | ⟨value, shown, some, same⟩) | side
  · exact .inl side
  · split at same
    · exact .inr (.inl same)
    case isFalse set =>
      exact .inr (.inr ⟨same, by omega, value, Array.mem_toList_iff.mp shown, set⟩)
  · exact .inl side

/-- A character of a drawn frame is ASCII, or the block of a set pixel. -/
theorem of_mem_renderChars {c : Char} (member : c ∈ display.renderChars) :
    c.toNat < 128 ∨ (c = '█' ∧ 0 < display.stretch ∧ display.lit = true) := by
  rcases of_mem_intercalate member with rfl | ⟨line, listed, inside⟩
  · exact .inl (by decide)
  · simp only [renderLines, List.mem_append, List.mem_cons, List.not_mem_nil, or_false,
      List.mem_map] at listed
    have border (edge : c ∈ display.border) : c.toNat < 128 := by
      rcases of_mem_border edge with rfl | rfl
      · decide
      · decide
    rcases listed with (rfl | ⟨row, shown, rfl⟩) | rfl
    · exact .inl (border inside)
    · rcases of_mem_rowChars inside with rfl | rfl | ⟨rfl, some, set⟩
      · exact .inl (by decide)
      · exact .inl (by decide)
      · exact .inr ⟨rfl, some, lit_eq_true_iff.mpr ⟨row, Array.mem_toList_iff.mp shown, set⟩⟩
    · exact .inl (border inside)

theorem block_mem_renderChars (positive : 0 < display.stretch) (lit : display.lit = true) :
    '█' ∈ display.renderChars := by
  obtain ⟨row, shown, value, listed, set⟩ := lit_eq_true_iff.mp lit
  refine mem_intercalate_of_mem (rowChars_mem_renderLines shown) ?_
  refine List.mem_append_left _ (List.mem_cons_of_mem _ (List.mem_flatMap.mpr ?_))
  refine ⟨value, Array.mem_toList_iff.mpr listed, ?_⟩
  rw [cellChars, if_neg set, List.mem_replicate]
  exact ⟨by omega, rfl⟩

end Display

end Chip8
