import Chip8.Display

/-!
# Pixels of a display

A display is seen through the values of its pixels. A signal for one pixel
replaces that value alone, and only a refresh or a new resolution touches the
frame.
-/

set_option autoImplicit false

namespace Chip8.Display

def pixelAt (display : Display) (column row : Nat) : UInt8 :=
  (display.pixels.getD row #[]).getD column 0

/-- The rows of the picture as told so far, top first. -/
def pixelRows (display : Display) : List (List UInt8) := display.pixels.toList.map Array.toList

def frameRows (display : Display) : List (List UInt8) := display.frame.toList.map Array.toList

structure WellFormed (display : Display) : Prop where
  size_eq : display.pixels.size = display.height.toNat
  columns : ∀ row ∈ display.pixels, row.size = display.width.toNat

theorem receive_pixel {display : Display} {x y : Int}
    (inColumns : 0 ≤ x ∧ x < display.width) (inRows : 0 ≤ y ∧ y < display.height) (value : UInt8) :
    display.receive (.pixel x y value) =
      { display with
        pixels := display.pixels.modify y.toNat (·.setIfInBounds x.toNat value) } := by
  have pixel : Resolution.pixel? ⟨display.width, display.height⟩ x y =
      some (x.toNat, y.toNat) := by
    simp [Resolution.pixel?, Resolution.place?, inColumns, inRows]
  simp only [receive, pixel]

theorem receiveAll_append (display : Display) (first second : List Signal) :
    display.receiveAll (first ++ second) = (display.receiveAll first).receiveAll second :=
  List.foldl_append

theorem size_blank (width height : Int) : (blank width height).size = height.toNat := by
  unfold blank
  split
  · rw [Int.toNat_of_nonpos ‹height ≤ 0›]
    rfl
  · exact Array.size_replicate

theorem size_of_mem_blank {width height : Int} {row : Array UInt8}
    (member : row ∈ blank width height) : row.size = width.toNat := by
  unfold blank at member
  split at member
  · cases Array.not_mem_empty row member
  · rw [(Array.mem_replicate.mp member).2, Array.size_replicate]

theorem wellFormed_blank (display : Display) (width height : Int) :
    (display.receive (.resolution width height)).WellFormed where
  size_eq := size_blank width height
  columns := fun _ => size_of_mem_blank

theorem pixelAt_blank (display : Display) (width height : Int) (column row : Nat) :
    (display.receive (.resolution width height)).pixelAt column row = 0 := by
  simp only [pixelAt, receive, blank]
  split
  · rfl
  · simp only [Array.getD_eq_getD_getElem?, Array.getElem?_replicate]
    split
    · simp only [Option.getD_some, Array.getElem?_replicate]
      split <;> rfl
    · rfl

namespace WellFormed

variable {display : Display} (wellFormed : display.WellFormed)

include wellFormed

theorem size_of_lt {row : Nat} (bound : row < display.pixels.size) :
    display.pixels[row].size = display.width.toNat :=
  wellFormed.columns _ (Array.getElem_mem bound)

theorem modify (column row : Nat) (value : UInt8) :
    ({ display with
      pixels := display.pixels.modify row (·.setIfInBounds column value) } : Display).WellFormed where
  size_eq := Array.size_modify.trans wellFormed.size_eq
  columns := by
    intro line member
    obtain ⟨place, bound, rfl⟩ := Array.mem_iff_getElem.mp member
    rw [Array.getElem_modify]
    have below : place < display.pixels.size := by simpa using bound
    have old := wellFormed.size_of_lt below
    split
    · rw [Array.size_setIfInBounds]
      exact old
    · exact old

theorem pixel {x y : Int} (inColumns : 0 ≤ x ∧ x < display.width)
    (inRows : 0 ≤ y ∧ y < display.height) (value : UInt8) :
    (display.receive (.pixel x y value)).WellFormed := by
  rw [receive_pixel inColumns inRows]
  exact wellFormed.modify x.toNat y.toNat value

theorem pixelAt_pixel {x y : Int} (inColumns : 0 ≤ x ∧ x < display.width)
    (inRows : 0 ≤ y ∧ y < display.height) (value : UInt8) (column row : Nat) :
    (display.receive (.pixel x y value)).pixelAt column row =
      if column = x.toNat ∧ row = y.toNat then value else display.pixelAt column row := by
  have below : y.toNat < display.pixels.size := by
    rw [wellFormed.size_eq]
    omega
  have columns := wellFormed.size_of_lt below
  rw [receive_pixel inColumns inRows]
  simp only [pixelAt, Array.getD_eq_getD_getElem?, Array.getElem?_modify]
  by_cases sameRow : row = y.toNat
  · subst sameRow
    simp only [↓reduceIte, Array.getElem?_eq_getElem below, Option.map_some, Option.getD_some,
      Array.getElem?_setIfInBounds, and_true]
    by_cases sameColumn : column = x.toNat
    · subst sameColumn
      have inside : x.toNat < display.pixels[y.toNat].size := by
        rw [columns]
        omega
      simp only [↓reduceIte, inside, Option.getD_some]
    · rw [if_neg (Ne.symm sameColumn), if_neg sameColumn]
  · rw [if_neg (Ne.symm sameRow), if_neg (fun same => sameRow same.2)]

/-- Zeros replace the values of the pixels named, and of no others. -/
theorem pixelAt_zeros (positions : List (Nat × Nat))
    (inside : ∀ position ∈ positions,
      (position.1 : Int) < display.width ∧ (position.2 : Int) < display.height) :
    let after := display.receiveAll (positions.map fun position => .pixel position.1 position.2 0)
    after.WellFormed ∧ after.width = display.width ∧ after.height = display.height ∧
      ∀ column row, after.pixelAt column row =
        if (column, row) ∈ positions then 0 else display.pixelAt column row := by
  induction positions generalizing display with
  | nil => exact ⟨wellFormed, rfl, rfl, fun _ _ => rfl⟩
  | cons position rest ih =>
      obtain ⟨first, later⟩ := List.forall_mem_cons.mp inside
      have inColumns : 0 ≤ (position.1 : Int) ∧ (position.1 : Int) < display.width :=
        ⟨Int.natCast_nonneg _, first.1⟩
      have inRows : 0 ≤ (position.2 : Int) ∧ (position.2 : Int) < display.height :=
        ⟨Int.natCast_nonneg _, first.2⟩
      have told := wellFormed.pixelAt_pixel inColumns inRows 0
      have next := wellFormed.pixel inColumns inRows 0
      have same := receive_pixel inColumns inRows 0
      obtain ⟨shape, width, height, pixels⟩ := ih next (by rw [same]; exact later)
      refine ⟨shape, width.trans (by rw [same]), height.trans (by rw [same]), ?_⟩
      intro column row
      rw [List.map_cons, receiveAll, List.foldl_cons]
      refine (pixels column row).trans ?_
      rw [told, Int.toNat_natCast, Int.toNat_natCast]
      by_cases member : (column, row) ∈ rest
      · rw [if_pos member, if_pos (List.mem_cons_of_mem _ member)]
      · simp only [List.mem_cons, Prod.ext_iff, member, or_false, ↓reduceIte]

/-- The picture is told by the values of its pixels. -/
theorem pixelRows_eq :
    display.pixelRows = (List.range display.height.toNat).map fun row =>
      (List.range display.width.toNat).map fun column => display.pixelAt column row := by
  have rows := wellFormed.size_eq
  refine List.ext_getElem (by simp [pixelRows, rows]) fun row here there => ?_
  have below : row < display.pixels.size := by simpa [pixelRows] using here
  have columns := wellFormed.size_of_lt below
  refine List.ext_getElem (by simp [pixelRows, columns]) fun column here' there' => ?_
  have inside : column < display.pixels[row].size := by simpa [pixelRows] using here'
  simp [pixelRows, pixelAt, below, inside]

end WellFormed

structure Shaped (display : Display) : Prop where
  picture : display.WellFormed
  frame_size : display.frame.size = display.height.toNat
  frame_columns : ∀ row ∈ display.frame, row.size = display.width.toNat

theorem shaped_create (stretch : Option Int) : (create stretch).Shaped where
  picture := ⟨rfl, fun row member => absurd member (Array.not_mem_empty row)⟩
  frame_size := rfl
  frame_columns := fun row member => absurd member (Array.not_mem_empty row)

theorem Shaped.receive {display : Display} (shaped : display.Shaped) (signal : Signal) :
    (display.receive signal).Shaped := by
  cases signal with
  | resolution width height =>
      exact ⟨display.wellFormed_blank width height, size_blank width height,
        fun _ => size_of_mem_blank⟩
  | pixel x y value =>
      simp only [Display.receive]
      split
      · exact ⟨shaped.picture.modify _ _ value, shaped.frame_size, shaped.frame_columns⟩
      · exact shaped
  | refresh changed =>
      cases changed with
      | false => exact shaped
      | true =>
          obtain ⟨size_eq, columns⟩ := shaped.picture
          exact ⟨⟨size_eq, columns⟩, size_eq, columns⟩
  | rates | beep | buzzer | line => exact shaped

theorem Shaped.receiveAll {display : Display} (shaped : display.Shaped) (signals : List Signal) :
    (display.receiveAll signals).Shaped := by
  induction signals generalizing display with
  | nil => exact shaped
  | cons signal rest ih => exact ih (shaped.receive signal)

theorem stretch_receiveAll (display : Display) (signals : List Signal) :
    (display.receiveAll signals).stretch = display.stretch := by
  induction signals generalizing display with
  | nil => rfl
  | cons signal rest ih =>
      refine (ih (display.receive signal)).trans ?_
      cases signal with
      | pixel x y value =>
          simp only [receive]
          split <;> rfl
      | refresh changed =>
          simp only [receive]
          split <;> rfl
      | resolution | rates | beep | buzzer | line => rfl

def Ignores : Signal → Prop
  | .rates .. | .beep _ | .buzzer _ | .line _ => True
  | .resolution .. | .pixel .. | .refresh _ => False

theorem receiveAll_of_ignored (display : Display) {signals : List Signal}
    (ignored : ∀ signal ∈ signals, Ignores signal) : display.receiveAll signals = display := by
  induction signals with
  | nil => rfl
  | cons signal rest ih =>
      obtain ⟨first, later⟩ := List.forall_mem_cons.mp ignored
      cases signal with
      | rates | beep | buzzer | line => exact ih later
      | resolution | pixel | refresh => cases first

theorem frame_pixels (display : Display) (positions : List (Nat × Nat)) :
    (display.receiveAll (positions.map fun position => .pixel position.1 position.2 0)).frame =
      display.frame := by
  induction positions generalizing display with
  | nil => rfl
  | cons position rest ih =>
      refine (ih (display.receive (.pixel position.1 position.2 0))).trans ?_
      simp only [receive]
      split <;> rfl

section

variable {display : Display}

theorem length_rowChars (row : Array UInt8) :
    (display.rowChars row).length = row.size * display.stretch.toNat + 2 := by
  simp [rowChars, cellChars, List.length_flatMap, List.map_const']

theorem length_intercalate_between {α β : Type} (separator : α) (line : β → List α)
    (first last : List α) (items : List β) :
    (List.intercalate [separator] (first :: items.map line ++ [last])).length =
      first.length + 1 +
        items.foldr (fun item length => (line item).length + 1 + length) last.length := by
  induction items generalizing first with
  | nil => simp [Nat.add_comm, Nat.add_left_comm]
  | cons item rest ih =>
      have split : List.intercalate [separator] (first :: (item :: rest).map line ++ [last]) =
          first ++ [separator] ++
            List.intercalate [separator] (line item :: rest.map line ++ [last]) :=
        List.intercalate_cons_cons
      rw [split, List.length_append, List.length_append, ih]
      rfl

/-- The text is as long as it was counted to be before it is put together. -/
theorem length_renderChars : display.renderChars.length = display.textLength := by
  have border : display.border.length = (display.width * display.stretch).toNat + 2 := by
    simp [Display.border]
  rw [renderChars, renderLines, length_intercalate_between, border]
  simp only [length_rowChars, textLength]

theorem lengths_of_columns {rows : List (Array UInt8)} {columns : Nat}
    (size : ∀ row ∈ rows, row.size = columns) (stretch border : Nat) :
    rows.foldr (fun row length => row.size * stretch + 3 + length) border =
      rows.length * (columns * stretch + 2) + rows.length + border := by
  induction rows with
  | nil => simp
  | cons row rest ih =>
      obtain ⟨first, later⟩ := List.forall_mem_cons.mp size
      rw [List.foldr_cons, ih later, first, List.length_cons, Nat.succ_mul]
      omega

theorem textLength_of_columns {columns : Nat} (size : ∀ row ∈ display.frame, row.size = columns) :
    display.textLength =
      2 * ((display.width * display.stretch).toNat + 2) +
        display.frame.size * (columns * display.stretch.toNat + 2) + (display.frame.size + 1) := by
  have rows : ∀ row ∈ display.frame.toList, row.size = columns := fun row shown =>
    size row (Array.mem_toList_iff.mp shown)
  rw [textLength, lengths_of_columns rows, Array.length_toList]
  omega

end

end Chip8.Display
