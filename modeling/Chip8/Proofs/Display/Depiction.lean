import Chip8.Proofs.Display
import Chip8.Proofs.Memory

/-!
# Frames drawn as text

A drawn frame has a line for each of its rows and a border above and below them. Every pixel takes
the same part of its line and every line ends where the others do, so the text tells the size of
the frame and which of its pixels are set. The only reason not to draw a frame is its extent.
-/

set_option autoImplicit false

namespace Chip8.Display

def shownAt (display : Display) (column row : Nat) : UInt8 :=
  (display.frame.getD row #[]).getD column 0

structure Framed (display : Display) (stretch width height : Nat) : Prop where
  stretch_eq : display.stretch = stretch
  width_eq : display.width = width
  height_eq : display.height = height
  rows : display.frame.size = height
  columns : ∀ row ∈ display.frame, row.size = width

/-- A display shows a frame of the size that it was told, whatever else it was told. -/
theorem framed_receiveAll {stretch width height : Nat} (signals : List Signal)
    (width_eq : ((create (some stretch)).receiveAll signals).width = width)
    (height_eq : ((create (some stretch)).receiveAll signals).height = height) :
    ((create (some stretch)).receiveAll signals).Framed stretch width height where
  stretch_eq := stretch_receiveAll _ signals
  width_eq := width_eq
  height_eq := height_eq
  rows := by
    have rows := ((shaped_create (some stretch)).receiveAll signals).frame_size
    rwa [height_eq] at rows
  columns := by
    have columns := ((shaped_create (some stretch)).receiveAll signals).frame_columns
    rwa [width_eq] at columns

def pixelChar (value : UInt8) : Char := if value = 0 then ' ' else '█'

def borderLine (length : Nat) : List Char := '+' :: List.replicate length '-' ++ ['+']

def pixelLine (stretch width : Nat) (value : Nat → UInt8) : List Char :=
  '|' :: (List.range width).flatMap (fun column =>
    List.replicate stretch (pixelChar (value column))) ++ ['|']

/-- The lines show a picture and a border around it. -/
structure Depicts (lines : List (List Char)) (stretch width height : Nat)
    (value : Nat → Nat → UInt8) : Prop where
  count : lines.length = height + 2
  top : lines[0]? = some (borderLine (width * stretch))
  bottom : lines[height + 1]? = some (borderLine (width * stretch))
  pixels : ∀ row < height,
    lines[row + 1]? = some (pixelLine stretch width fun column => value column row)

theorem pixelChar_eq_iff {value value' : UInt8} :
    pixelChar value = pixelChar value' ↔ (value = 0 ↔ value' = 0) := by
  simp only [pixelChar]
  split <;> split <;> simp_all

theorem length_borderLine (length : Nat) : (borderLine length).length = length + 2 := by
  simp [borderLine]

theorem newline_notMem_borderLine (length : Nat) : '\n' ∉ borderLine length := by
  simp [borderLine, List.mem_replicate]

theorem newline_notMem_pixelLine (stretch width : Nat) (value : Nat → UInt8) :
    '\n' ∉ pixelLine stretch width value := by
  have pixel (value : UInt8) : '\n' ≠ pixelChar value := by
    simp only [pixelChar]
    split <;> decide
  simp [pixelLine, List.mem_flatMap, List.mem_replicate, pixel]

theorem pixelLine_inj {stretch width : Nat} {value value' : Nat → UInt8} (positive : 0 < stretch)
    (same : pixelLine stretch width value = pixelLine stretch width value') {column : Nat}
    (inside : column < width) : value column = 0 ↔ value' column = 0 := by
  have blocks := List.append_cancel_right (List.cons.inj same).2
  rw [List.flatMap_def, List.flatMap_def] at blocks
  have lengths (value : Nat → UInt8) : (((List.range width).map fun column =>
      List.replicate stretch (pixelChar (value column))).map List.length) =
        List.replicate width stretch := by
    simp [List.map_map, Function.comp_def, List.map_const']
  -- Every pixel takes as many characters, so the lines can be cut in one way only.
  have each := List.eq_iff_flatten_eq.mpr ⟨blocks, (lengths value).trans (lengths value').symm⟩
  have here := List.map_inj_left.mp each column (List.mem_range.mpr inside)
  exact pixelChar_eq_iff.mp ((List.replicate_inj.mp here).2.resolve_left (by omega))

/-- Lines that depict pictures depict one size and one set of pixels. -/
theorem Depicts.unique {lines : List (List Char)} {stretch width height width' height' : Nat}
    {value value' : Nat → Nat → UInt8} (positive : 0 < stretch)
    (depicts : Depicts lines stretch width height value)
    (depicts' : Depicts lines stretch width' height' value') :
    width = width' ∧ height = height' ∧
      ∀ column < width, ∀ row < height, value column row = 0 ↔ value' column row = 0 := by
  have rows : height = height' := by
    have counts := depicts.count.symm.trans depicts'.count
    omega
  have borders := Option.some.inj (depicts.top.symm.trans depicts'.top)
  have lengths := congrArg List.length borders
  rw [length_borderLine, length_borderLine] at lengths
  have columns : width = width' := Nat.eq_of_mul_eq_mul_right positive (Nat.add_right_cancel lengths)
  subst rows columns
  refine ⟨rfl, rfl, fun column inColumns row inRows => ?_⟩
  have line := Option.some.inj ((depicts.pixels row inRows).symm.trans (depicts'.pixels row inRows))
  exact pixelLine_inj positive line inColumns

namespace Framed

variable {display : Display} {stretch width height : Nat}
  (framed : display.Framed stretch width height)

include framed

theorem border_eq : display.border = borderLine (width * stretch) := by
  rw [border, framed.stretch_eq, framed.width_eq, ← Int.natCast_mul, Int.toNat_natCast, borderLine]

theorem rowChars_eq {row : Nat} (inside : row < display.frame.size) :
    display.rowChars display.frame[row] =
      pixelLine stretch width fun column => display.shownAt column row := by
  have columns : display.frame[row].size = width := framed.columns _ (Array.getElem_mem inside)
  have values : display.frame[row].toList =
      (List.range width).map fun column => display.shownAt column row := by
    refine List.ext_getElem (by simp [columns]) fun column here there => ?_
    have within : column < display.frame[row].size := here
    simp [shownAt, inside, within]
  rw [rowChars, values, List.flatMap_map, pixelLine]
  simp only [cellChars, framed.stretch_eq, Int.toNat_natCast, pixelChar]

theorem depicts_renderLines : Depicts display.renderLines stretch width height display.shownAt where
  count := by simp [renderLines, framed.rows]
  top := by simp [renderLines, framed.border_eq]
  bottom := by simp [renderLines, framed.border_eq, framed.rows]
  pixels := by
    intro row inside
    have bound : row < display.frame.size := by rw [framed.rows]; exact inside
    rw [← framed.rowChars_eq bound]
    simp [renderLines, List.getElem?_append, bound]

theorem splitOn_renderChars : display.renderChars.splitOn '\n' = display.renderLines := by
  refine List.splitOn_intercalate '\n' ?_ (List.cons_ne_nil _ _)
  intro line member
  simp only [renderLines, List.mem_append, List.mem_cons, List.not_mem_nil, or_false,
    List.mem_map] at member
  rcases member with (rfl | ⟨row, shown, rfl⟩) | rfl
  · rw [framed.border_eq]
    exact newline_notMem_borderLine _
  · obtain ⟨place, inside, rfl⟩ := List.mem_iff_getElem.mp shown
    exact framed.rowChars_eq inside ▸ newline_notMem_pixelLine _ _ _
  · rw [framed.border_eq]
    exact newline_notMem_borderLine _

theorem shownAt_eq_zero {column row : Nat} (outside : width ≤ column ∨ height ≤ row) :
    display.shownAt column row = 0 := by
  simp only [shownAt, Array.getD_eq_getD_getElem?]
  by_cases inside : row < display.frame.size
  · have columns : display.frame[row].size = width := framed.columns _ (Array.getElem_mem inside)
    have rows := framed.rows
    have beyond : ¬column < display.frame[row].size := by omega
    simp [inside, beyond]
  · simp [inside]

end Framed

def HoldsBits (display : Display) : Prop :=
  ∀ row ∈ display.frame, ∀ value ∈ row, value = 0 ∨ value = 1

theorem frame_ext {first second : Display} {stretch width height : Nat}
    (framed : first.Framed stretch width height) (framed' : second.Framed stretch width height)
    (bits : first.HoldsBits) (bits' : second.HoldsBits)
    (same : ∀ column row, first.shownAt column row = 0 ↔ second.shownAt column row = 0) :
    first.frame = second.frame := by
  refine Array.ext (framed.rows.trans framed'.rows.symm) fun row inside inside' => ?_
  have columns := framed.columns _ (Array.getElem_mem inside)
  have columns' := framed'.columns _ (Array.getElem_mem inside')
  refine Array.ext (columns.trans columns'.symm) fun column within within' => ?_
  have agree := same column row
  simp only [shownAt, Array.getD_eq_getD_getElem?, Array.getElem?_eq_getElem inside,
    Array.getElem?_eq_getElem inside', Array.getElem?_eq_getElem within,
    Array.getElem?_eq_getElem within', Option.getD_some] at agree
  have bit := bits _ (Array.getElem_mem inside) _ (Array.getElem_mem within)
  have bit' := bits' _ (Array.getElem_mem inside') _ (Array.getElem_mem within')
  rcases bit with zero | one
  · exact zero.trans (agree.mp zero).symm
  · rcases bit' with zero' | one'
    · exact (agree.mpr zero').trans zero'.symm
    · exact one.trans one'.symm

/-- There is room for the characters of a pixel, those of a border and those of the whole text, in
which a line end stands between two lines. -/
structure HasRoom (room : Room) (stretch width height : Nat) : Prop where
  pixel : Extent.Fits room stretch
  border : Extent.Fits room (width * stretch)
  text : Extent.Fits room ((height + 2) * (width * stretch + 3) - 1)

variable {room : Room}

theorem render_eq_ok_iff {display : Display} {text : String} : display.render room = .ok text ↔
    (Extent.Fits room display.stretch ∧ Extent.Fits room (display.width * display.stretch) ∧
      Extent.Fits room display.textLength) ∧ text = String.ofList display.renderChars := by
  constructor
  · intro rendered
    obtain ⟨_, pixel, rendered⟩ := of_bind rendered
    obtain ⟨_, border, rendered⟩ := of_bind rendered
    obtain ⟨_, whole, rendered⟩ := of_bind rendered
    exact ⟨⟨Extent.check_eq_ok_iff.mp pixel, Extent.check_eq_ok_iff.mp border,
      Extent.check_eq_ok_iff.mp whole⟩, (Except.ok.inj rendered).symm⟩
  · rintro ⟨⟨pixel, border, whole⟩, rfl⟩
    simp only [render, Extent.check_eq_ok_iff.mpr pixel, Extent.check_eq_ok_iff.mpr border,
      Extent.check_eq_ok_iff.mpr whole]
    rfl

namespace Framed

variable {display : Display} {stretch width height : Nat}
  (framed : display.Framed stretch width height)

include framed

theorem textLength_eq :
    (display.textLength : Int) = (height + 2) * (width * stretch + 3) - 1 := by
  rw [textLength_of_columns framed.columns, framed.stretch_eq, framed.width_eq, framed.rows,
    ← Int.natCast_mul, Int.toNat_natCast, Int.toNat_natCast]
  generalize width * stretch = length
  simp only [Nat.mul_add, Int.add_mul, Int.mul_add, Int.natCast_add, Int.natCast_mul]
  omega

theorem render_eq_ok_iff {text : String} : display.render room = .ok text ↔
    HasRoom room stretch width height ∧ text = String.ofList display.renderChars := by
  rw [Display.render_eq_ok_iff, framed.textLength_eq, framed.stretch_eq, framed.width_eq]
  refine and_congr_left' ⟨?_, ?_⟩
  · rintro ⟨pixel, border, text⟩
    exact ⟨pixel, border, text⟩
  · rintro ⟨pixel, border, text⟩
    exact ⟨pixel, border, text⟩

theorem depicts_of_ok {text : String} (rendered : display.render room = .ok text) :
    Depicts (text.toList.splitOn '\n') stretch width height display.shownAt := by
  obtain ⟨-, rfl⟩ := framed.render_eq_ok_iff.mp rendered
  rw [String.toList_ofList, framed.splitOn_renderChars]
  exact framed.depicts_renderLines

end Framed

/-- A frame is drawn if there is room for it, as lines that depict it. No other frame is drawn as the
same text with pixels of the same stretch: neither one of another size, nor one with other pixels
set. -/
theorem depicts_of_render {display : Display} {stretch width height : Nat} (positive : 0 < stretch)
    (framed : display.Framed stretch width height) (room : Room) :
    ((∃ text, display.render room = .ok text) ↔ HasRoom room stretch width height) ∧
    ∀ text, display.render room = .ok text →
      Depicts (text.toList.splitOn '\n') stretch width height display.shownAt ∧
      ∀ (other : Display) (elsewhere : Room) (width' height' : Nat),
        other.Framed stretch width' height' → other.render elsewhere = .ok text →
        width' = width ∧ height' = height ∧
        (∀ column row, other.shownAt column row = 0 ↔ display.shownAt column row = 0) ∧
        (other.HoldsBits → display.HoldsBits → other.frame = display.frame) := by
  refine ⟨?_, ?_⟩
  · simp only [framed.render_eq_ok_iff, exists_and_left, exists_eq, and_true]
  intro text rendered
  have depicts := framed.depicts_of_ok rendered
  refine ⟨depicts, fun other elsewhere width' height' framed' rendered' => ?_⟩
  -- Both frames are depicted by the lines of the one text.
  obtain ⟨rfl, rfl, inside⟩ := (framed'.depicts_of_ok rendered').unique positive depicts
  have same (column row : Nat) : other.shownAt column row = 0 ↔ display.shownAt column row = 0 := by
    by_cases beyond : width' ≤ column ∨ height' ≤ row
    · exact iff_of_true (framed'.shownAt_eq_zero beyond) (framed.shownAt_eq_zero beyond)
    · exact inside column (by omega) row (by omega)
  exact ⟨rfl, rfl, same, fun bits' bits => frame_ext framed' framed bits' bits same⟩

/-- A display that shows two pixels, each two characters wide. -/
def diagonal : Display :=
  (create (some 2)).receiveAll
    [.resolution 3 2, .pixel 0 0 1, .pixel 1 1 1, .refresh true, .pixel 2 0 1]

theorem depicts_of_render_diagonal :
    diagonal.Framed 2 3 2 ∧ HasRoom ⟨some 36⟩ 2 3 2 ∧
      diagonal.render ⟨some 36⟩ = .ok "+------+\n|██    |\n|  ██  |\n+------+" ∧
      Depicts ("+------+\n|██    |\n|  ██  |\n+------+".toList.splitOn '\n') 2 3 2
        diagonal.shownAt := by
  have framed : diagonal.Framed 2 3 2 := framed_receiveAll _ rfl rfl
  have room : HasRoom ⟨some 36⟩ 2 3 2 :=
    { pixel := ⟨by decide, by decide, by decide⟩
      border := ⟨by decide, by decide, by decide⟩
      text := ⟨by decide, by decide, by decide⟩ }
  obtain ⟨drawable, depicted⟩ := depicts_of_render (by decide) framed ⟨some 36⟩
  obtain ⟨text, drawn⟩ := drawable.mpr room
  have same : text = "+------+\n|██    |\n|  ██  |\n+------+" :=
    (framed.render_eq_ok_iff.mp drawn).2
  subst same
  exact ⟨framed, room, drawn, (depicted _ drawn).1⟩

/-- A display without pixels, each of which would be more characters than can be counted. -/
def overstretched : Display := (create (some 0x8000000000000000)).receiveAll [.resolution 0 0]

theorem not_always_depicted :
    overstretched.render .ample = .error (.beyondCount 0x8000000000000000) ∧
    ¬∀ (display : Display) (stretch width height : Nat), 0 < stretch →
      display.Framed stretch width height →
      ∃ text, display.render .ample = .ok text ∧
        Depicts (text.toList.splitOn '\n') stretch width height display.shownAt := by
  have refused : overstretched.render .ample = .error (.beyondCount 0x8000000000000000) := by rfl
  refine ⟨refused, fun always => ?_⟩
  have framed : overstretched.Framed 0x8000000000000000 0 0 := framed_receiveAll _ rfl rfl
  obtain ⟨text, rendered, _⟩ := always overstretched _ 0 0 (by decide) framed
  rw [refused] at rendered
  cases rendered

end Chip8.Display
