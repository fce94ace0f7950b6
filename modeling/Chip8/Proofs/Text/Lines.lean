import Chip8.Session
import Chip8.Proofs.Results

/-!
# Lines read back

A text that is written line by line is cut into the lines that were written,
empty ones included, whichever newline ends them. Only lines without a line end
of their own come back, since no line that is read has one. The last newline
may be left out unless nothing stands in front of it.
-/

set_option autoImplicit false

namespace Chip8.Text

inductive Newline where
  | lineFeed
  | carriageReturn
  | both
  deriving DecidableEq, Repr

def Newline.chars : Newline → List Char
  | .lineFeed => ['\n']
  | .carriageReturn => ['\r']
  | .both => ['\r', '\n']

def IsLine (line : List Char) : Prop := ∀ c ∈ line, isLineEnd c = false

instance (line : List Char) : Decidable (IsLine line) :=
  List.decidableBAll (fun c => isLineEnd c = false) line

def terminated (newline : Newline) (lines : List (List Char)) : List Char :=
  lines.flatMap fun line => line ++ newline.chars

theorem terminated_cons (newline : Newline) (line : List Char) (rest : List (List Char)) :
    terminated newline (line :: rest) = line ++ (newline.chars ++ terminated newline rest) := by
  simp only [terminated, List.flatMap_cons, List.append_assoc]

theorem IsLine.cons {c : Char} {line : List Char} (isLine : IsLine (c :: line)) :
    isLineEnd c = false ∧ IsLine line :=
  List.forall_mem_cons.mp isLine

theorem unifyNewlines_cons {c : Char} (other : c ≠ '\r') (rest : List Char) :
    unifyNewlines (c :: rest) = c :: unifyNewlines rest := by
  rw [unifyNewlines]
  · rintro _ rfl
    exact absurd rfl other
  · exact other

theorem unifyNewlines_line_append {line : List Char} (isLine : IsLine line) (rest : List Char) :
    unifyNewlines (line ++ rest) = line ++ unifyNewlines rest := by
  induction line with
  | nil => rfl
  | cons c line ih =>
      obtain ⟨inside, isLine⟩ := isLine.cons
      have other : c ≠ '\r' := by
        rintro rfl
        cases inside
      rw [List.cons_append, unifyNewlines_cons other, ih isLine, List.cons_append]

/-- A newline is brought to one line feed, unless it is half of another one. -/
theorem unifyNewlines_newline_append {newline : Newline} {rest : List Char}
    (apart : newline = .carriageReturn → rest.head? ≠ some '\n') :
    unifyNewlines (newline.chars ++ rest) = '\n' :: unifyNewlines rest := by
  cases newline with
  | lineFeed => rfl
  | both => rfl
  | carriageReturn =>
      cases rest with
      | nil => rfl
      | cons c rest =>
          have other : c ≠ '\n' := fun same => apart rfl (congrArg some same)
          rw [Newline.chars, List.singleton_append, unifyNewlines]
          rintro _ same
          exact other (List.cons.inj same).1

theorem head?_line_append {line rest : List Char} (isLine : IsLine line)
    (apart : rest.head? ≠ some '\n') : (line ++ rest).head? ≠ some '\n' := by
  cases line with
  | nil => exact apart
  | cons c line =>
      intro same
      have inside := isLine.cons.1
      rw [Option.some.inj same] at inside
      cases inside

theorem head?_terminated_append {lines : List (List Char)} {last : List Char}
    (areLines : ∀ line ∈ lines, IsLine line) (isLine : IsLine last) :
    (terminated .carriageReturn lines ++ last).head? ≠ some '\n' := by
  cases lines with
  | nil =>
      have bare : ([] : List Char).head? ≠ some '\n' := nofun
      have same := head?_line_append isLine bare
      rwa [List.append_nil] at same
  | cons line rest =>
      rw [terminated_cons, List.append_assoc]
      refine head?_line_append (areLines line List.mem_cons_self) ?_
      simp [Newline.chars]

/-- Whichever newline ends the lines, each of them is then ended by a line feed. -/
theorem unifyNewlines_terminated_append (newline : Newline) {lines : List (List Char)}
    {last : List Char} (areLines : ∀ line ∈ lines, IsLine line) (isLine : IsLine last) :
    unifyNewlines (terminated newline lines ++ last) = terminated .lineFeed lines ++ last := by
  induction lines with
  | nil =>
      have unified := unifyNewlines_line_append isLine []
      rw [unifyNewlines, List.append_nil] at unified
      exact unified
  | cons line rest ih =>
      obtain ⟨first, others⟩ := List.forall_mem_cons.mp areLines
      have apart : newline = .carriageReturn →
          (terminated newline rest ++ last).head? ≠ some '\n' := by
        rintro rfl
        exact head?_terminated_append others isLine
      rw [terminated_cons, terminated_cons, List.append_assoc, List.append_assoc,
        List.append_assoc, List.append_assoc, unifyNewlines_line_append first,
        unifyNewlines_newline_append apart, ih others]
      rfl

theorem splitLines_line_append {line : List Char} (isLine : IsLine line) (rest : List Char) :
    splitLines (line ++ '\n' :: rest) = line :: splitLines rest := by
  induction line with
  | nil => rfl
  | cons c line ih =>
      obtain ⟨inside, isLine⟩ := isLine.cons
      rw [List.cons_append, splitLines, inside, ih isLine]
      rfl

theorem splitLines_terminated_append {lines : List (List Char)} (last : List Char)
    (areLines : ∀ line ∈ lines, IsLine line) :
    splitLines (terminated .lineFeed lines ++ last) = lines ++ splitLines last := by
  induction lines with
  | nil => rfl
  | cons line rest ih =>
      obtain ⟨first, others⟩ := List.forall_mem_cons.mp areLines
      rw [terminated_cons, Newline.chars, List.singleton_append, List.append_assoc,
        List.cons_append, splitLines_line_append first, ih others, List.cons_append]

theorem splitLines_line {line : List Char} (isLine : IsLine line) (filled : line ≠ []) :
    splitLines line = [line] := by
  induction line with
  | nil => exact absurd rfl filled
  | cons c line ih =>
      obtain ⟨inside, isLine⟩ := isLine.cons
      rw [splitLines, inside]
      cases line with
      | nil => rfl
      | cons d line =>
          rw [ih isLine (List.cons_ne_nil d line)]
          rfl

theorem isLine_of_mem_splitLines (text : List Char) : ∀ line ∈ splitLines text, IsLine line := by
  have empty : IsLine [] := List.forall_mem_nil _
  induction text with
  | nil => exact List.forall_mem_nil _
  | cons c rest ih =>
      rw [splitLines]
      split
      case isTrue => exact List.forall_mem_cons.mpr ⟨empty, ih⟩
      case isFalse inside =>
        have inside : isLineEnd c = false := Bool.eq_false_iff.mpr inside
        cases split : splitLines rest with
        | nil => exact List.forall_mem_singleton.mpr (List.forall_mem_cons.mpr ⟨inside, empty⟩)
        | cons line others =>
            rw [split] at ih
            obtain ⟨first, others⟩ := List.forall_mem_cons.mp ih
            exact List.forall_mem_cons.mpr ⟨List.forall_mem_cons.mpr ⟨inside, first⟩, others⟩

/-- Behind lines that are ended, a last line counts that is not. -/
theorem lines_terminated_append (newline : Newline) {ended : List (List Char)} {last : List Char}
    (areLines : ∀ line ∈ ended, IsLine line) (isLine : IsLine last) :
    lines (terminated newline ended ++ last) = ended ++ splitLines last := by
  rw [lines, unifyNewlines_terminated_append newline areLines isLine,
    splitLines_terminated_append last areLines]

theorem lines_terminated_eq_iff (newline : Newline) (written : List (List Char)) :
    lines (terminated newline written) = written ↔ ∀ line ∈ written, IsLine line := by
  constructor
  · intro same
    rw [← same]
    exact isLine_of_mem_splitLines _
  · intro areLines
    have read := lines_terminated_append newline areLines (List.forall_mem_nil _)
    rwa [List.append_nil, splitLines, List.append_nil] at read

theorem terminated_concat (newline : Newline) (lines : List (List Char)) (last : List Char) :
    terminated newline (lines ++ [last]) =
      terminated newline lines ++ last ++ newline.chars := by
  simp only [terminated, List.flatMap_append, List.flatMap_singleton, List.append_assoc]

/-- Without its last newline the text still has its last line, unless that is empty. -/
theorem lines_unterminated_eq_iff {newline : Newline} {written : List (List Char)}
    {text : List Char} (shorter : text ++ newline.chars = terminated newline written) :
    lines text = written ↔ (∀ line ∈ written, IsLine line) ∧ written.getLast? ≠ some [] := by
  rcases List.eq_nil_or_concat written with rfl | ⟨ended, last, rfl⟩
  · cases newline <;> cases (List.append_eq_nil_iff.mp shorter).2
  rw [List.concat_eq_append, terminated_concat] at *
  obtain rfl := List.append_cancel_right shorter
  rw [List.getLast?_concat]
  constructor
  · intro same
    have areLines : ∀ line ∈ ended ++ [last], IsLine line := by
      rw [← same]
      exact isLine_of_mem_splitLines _
    refine ⟨areLines, ?_⟩
    intro empty
    obtain rfl := Option.some.inj empty
    obtain ⟨areLines, isLine⟩ := List.forall_mem_append.mp areLines
    rw [lines_terminated_append newline areLines (List.forall_mem_nil _)] at same
    cases List.append_cancel_left same
  · rintro ⟨areLines, filled⟩
    obtain ⟨areLines, isLine⟩ := List.forall_mem_append.mp areLines
    have isLine := List.forall_mem_singleton.mp isLine
    have filled : last ≠ [] := fun empty => filled (congrArg some empty)
    rw [lines_terminated_append newline areLines isLine, splitLines_line isLine filled]

end Chip8.Text

namespace Chip8

open Text

theorem Volume.textLines?_toUTF8 (text : List Char) :
    textLines? (String.ofList text).toUTF8 = some (lines text) := by
  have valid : (String.ofList text).toUTF8.IsValidUTF8 := (String.ofList text).isValidUTF8
  rw [textLines?, String.fromUTF8?, dif_pos valid, Option.map_some]
  exact congrArg (fun text => some (lines text)) String.toList_ofList

namespace Session

variable {τ : Type} {surroundings : Surroundings τ} {name : String} {text : List Char}

theorem readLines_of_text
    (held : surroundings.read name = .ok (String.ofList text).toUTF8) :
    readLines surroundings name = .ok (lines text) := by
  simp only [readLines, readFile, held, mapError_ok, bind, Except.bind, Volume.textLines?_toUTF8]
  rfl

/-- A file of lines that are all ended by one kind of newline is read as just these lines if none
of them has a line end of its own, and not otherwise. Where the newline behind the last line is
missing, that line may also not be empty. -/
theorem readLines_of_written {newline : Newline} {written : List (List Char)}
    (held : surroundings.read name = .ok (String.ofList text).toUTF8) :
    (text = terminated newline written →
      (readLines surroundings name = .ok written ↔ ∀ line ∈ written, IsLine line)) ∧
    (text ++ newline.chars = terminated newline written →
      (readLines surroundings name = .ok written ↔
        (∀ line ∈ written, IsLine line) ∧ written.getLast? ≠ some [])) := by
  rw [readLines_of_text held, Except.ok.injEq]
  refine ⟨?_, lines_unterminated_eq_iff⟩
  rintro rfl
  exact lines_terminated_eq_iff newline written

/-- Lines of which the second is empty, in a file that ends with an empty line and in one that ends
without a newline. -/
def letter : Surroundings Float where
  read := Volume.read {
    entries := [("closed", some ⟨#[0x61, 0x0d, 0x0d, 0xc3, 0xa9, 0x0d, 0x0d]⟩),
      ("open", some ⟨#[0x61, 0x0d, 0x0d, 0xc3, 0xa9]⟩)] }
  random := .scripted [] 0
  clock := .still
  start := 0.0
  output := .unicode
  room := .ample

theorem readLines_of_written_letter :
    readLines letter "closed" = .ok [['a'], [], ['é'], []] ∧
      readLines letter "open" = .ok [['a'], [], ['é']] := by
  have closed : letter.read "closed" =
      .ok (String.ofList ['a', '\r', '\r', 'é', '\r', '\r']).toUTF8 := rfl
  have unclosed : letter.read "open" = .ok (String.ofList ['a', '\r', '\r', 'é']).toUTF8 := rfl
  have whole : ['a', '\r', '\r', 'é', '\r', '\r'] =
      terminated .carriageReturn [['a'], [], ['é'], []] := rfl
  have shorter : ['a', '\r', '\r', 'é'] ++ Newline.carriageReturn.chars =
      terminated .carriageReturn [['a'], [], ['é']] := rfl
  exact ⟨((readLines_of_written closed).1 whole).mpr (by decide),
    ((readLines_of_written unclosed).2 shorter).mpr (by decide)⟩

end Session

end Chip8
