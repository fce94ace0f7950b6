import Chip8.Proofs.InputTrace.Grammar
import Chip8.Proofs.Text.Numeral

/-!
# Traces written and read back

An event may be written with any blanks around its fields, its keyword and the letters of its key
in either case, and a remark behind it. Lines without an event may stand in between. However a
trace is written, it is read back as its events.
-/

set_option autoImplicit false

namespace Chip8.InputTrace

def IsKeyDigit (key : Key) (digit : Char) : Prop :=
  digit = Nat.digitChar key ∨ digit = (Nat.digitChar key).toUpper

inductive Written : Event → List Char → Prop where
  | quit {frame : Nat} {before gap word after remark : List Char} :
      Text.IsGap before → Text.IsGap gap → gap ≠ [] → isKeyword "quit" word = true →
      Text.IsGap after → IsRemark remark →
      Written ⟨frame, .quit⟩
        (before ++ (Nat.toDigits 10 frame ++ (gap ++ (word ++ after))) ++ remark)
  | key {frame : Nat} {key : Key} {pressed : Bool} {digit : Char}
      {before gap gap' word after remark : List Char} :
      Text.IsGap before → Text.IsGap gap → gap ≠ [] → IsKeyDigit key digit → Text.IsGap gap' →
      gap' ≠ [] → isKeyword (if pressed then "down" else "up") word = true → Text.IsGap after →
      IsRemark remark →
      Written ⟨frame, .key key pressed⟩
        (before ++ (Nat.toDigits 10 frame ++ (gap ++ ([digit] ++ (gap' ++ (word ++ after))))) ++
          remark)

/-- Events written on a line each, with lines in between that are blank or hold a remark. -/
inductive Transcript : List Event → List (List Char) → Prop where
  | nil : Transcript [] []
  | pause {events : List Event} {lines : List (List Char)} {blank remark : List Char} :
      Text.IsGap blank → IsRemark remark → Transcript events lines →
      Transcript events ((blank ++ remark) :: lines)
  | event {event : Event} {events : List Event} {line : List Char} {lines : List (List Char)} :
      Written event line → Transcript events lines → Transcript (event :: events) (line :: lines)

/-- There is at least one character, and each is one of those that ASCII can show, from the digits
on. -/
structure IsPlain (field : List Char) : Prop where
  nonempty : field ≠ []
  visible : ∀ c ∈ field, 0x30 ≤ c.toNat ∧ c.toNat ≤ 0x7e

theorem IsPlain.isField {field : List Char} (plain : IsPlain field) : Text.IsField field where
  nonempty := plain.nonempty
  solid := by
    intro c member
    have bounds := plain.visible c member
    exact Text.isBlank_eq_false (by omega) bounds.2

theorem IsPlain.unmarked {field : List Char} (plain : IsPlain field) : '#' ∉ field :=
  fun member => absurd (plain.visible '#' member) (by decide)

theorem isPlain_toDigits (frame : Nat) : IsPlain (Nat.toDigits 10 frame) where
  nonempty := Nat.toDigits_ne_nil
  visible := by
    intro c member
    have digit := Nat.isDigit_of_mem_toDigits (by decide) (by decide) member
    simp only [Char.isDigit, Bool.and_eq_true, decide_eq_true_eq] at digit
    have bounds : 48 ≤ c.toNat ∧ c.toNat ≤ 57 := digit
    omega

theorem isPlain_keyDigit {key : Key} {digit : Char} (written : IsKeyDigit key digit) :
    IsPlain [digit] where
  nonempty := List.cons_ne_nil digit []
  visible := by
    rw [List.forall_mem_singleton]
    rcases written with rfl | rfl
    · revert key
      decide
    · revert key
      decide

theorem isPlain_of_isKeyword {keyword : String} {word : List Char}
    (isWord : isKeyword keyword word = true) (plain : keyword ∈ ["quit", "down", "up"]) :
    IsPlain word := by
  have same : word.map Char.toLower = keyword.toList := beq_iff_eq.mp isWord
  have letters : ∀ keyword ∈ ["quit", "down", "up"], keyword.toList ≠ [] ∧
      keyword.toList.all (fun c => 0x61 ≤ c.toNat && c.toNat ≤ 0x7a) = true := by decide
  obtain ⟨nonempty, small⟩ := letters keyword plain
  simp only [List.all_eq_true, Bool.and_eq_true, decide_eq_true_eq] at small
  constructor
  · rintro rfl
    exact nonempty same.symm
  · intro c member
    have bounds := small c.toLower (same ▸ List.mem_map_of_mem member)
    -- A letter that has been made small was a letter before.
    unfold Char.toLower at bounds
    split at bounds
    case isTrue upper =>
      have range : 65 ≤ c.toNat ∧ c.toNat ≤ 90 := upper
      omega
    case isFalse => omega

theorem unmarked_of_layout {content : List Char} {fields : List (List Char)}
    (layout : Text.Layout content fields) (plain : ∀ field ∈ fields, IsPlain field) :
    '#' ∉ content := by
  have notBlank : Text.isBlank '#' = false := Text.isBlank_eq_false (by decide) (by decide)
  have notGap {gap : List Char} (isGap : Text.IsGap gap) : '#' ∉ gap :=
    fun member => Bool.noConfusion (notBlank.symm.trans (isGap '#' member))
  induction layout with
  | gap isGap => exact notGap isGap
  | field isGap _ _ _ ih =>
      obtain ⟨first, others⟩ := List.forall_mem_cons.mp plain
      simp only [List.mem_append, not_or]
      exact ⟨notGap isGap, first.unmarked, ih others⟩

theorem shows_of_layout {content remark : List Char} {fields : List (List Char)}
    (layout : Text.Layout content fields) (plain : ∀ field ∈ fields, IsPlain field)
    (isRemark : IsRemark remark) : Shows (content ++ remark) fields :=
  ⟨content, remark, rfl, unmarked_of_layout layout plain, isRemark, layout⟩

theorem says_of_written {event : Event} {line : List Char} (written : Written event line)
    (short : (Nat.toDigits 10 event.frame).length ≤ Text.maxDecimalDigits) :
    Says line (some event) := by
  cases written with
  | @quit frame _ _ _ _ _ isBefore isGap nonempty isWord isAfter isRemark =>
      have number := isPlain_toDigits frame
      have word := isPlain_of_isKeyword isWord (by decide)
      have layout := Text.Layout.field isBefore number.isField (isGap.leads nonempty _)
        (.field isGap word.isField isAfter.head (.gap isAfter))
      refine .event (shows_of_layout layout ?_ isRemark) (Text.readInt_toDigits short)
        (.quit isWord)
      simp only [List.forall_mem_cons]
      exact ⟨number, word, List.forall_mem_nil _⟩
  | @key frame key pressed digit _ _ _ _ _ _ isBefore isGap nonempty isDigit isGap' nonempty'
      isWord isAfter isRemark =>
      have number := isPlain_toDigits frame
      have digits := isPlain_keyDigit isDigit
      have word := isPlain_of_isKeyword isWord (by cases pressed <;> decide)
      have layout := Text.Layout.field isBefore number.isField (isGap.leads nonempty _)
        (.field isGap digits.isField (isGap'.leads nonempty' _)
          (.field isGap' word.isField isAfter.head (.gap isAfter)))
      refine .event (shows_of_layout layout ?_ isRemark) (Text.readInt_toDigits short)
        (.key (Text.readInt_hexDigit isDigit) isWord)
      simp only [List.forall_mem_cons]
      exact ⟨number, digits, word, List.forall_mem_nil _⟩

theorem spells_of_transcript {events : List Event} {lines : List (List Char)}
    (transcript : Transcript events lines)
    (short : ∀ event ∈ events,
      (Nat.toDigits 10 event.frame).length ≤ Text.maxDecimalDigits) : Spells lines events := by
  induction transcript with
  | nil => exact .nil
  | pause isGap isRemark _ ih =>
      have shows := shows_of_layout (.gap isGap) (List.forall_mem_nil _) isRemark
      exact .skip (.nothing shows) (ih short)
  | event written _ ih =>
      obtain ⟨first, others⟩ := List.forall_mem_cons.mp short
      exact .event (says_of_written written first) (ih others)

/-- However events are written, they are read back, unless they are out of order or one of their
frames is too long to be a numeral. -/
theorem parse_transcript {events : List Event} {lines : List (List Char)}
    (transcript : Transcript events lines) (inOrder : InOrder events)
    (short : ∀ event ∈ events,
      (Nat.toDigits 10 event.frame).length ≤ Text.maxDecimalDigits) :
    parse lines = .ok events :=
  parse_eq_ok_iff.mpr ⟨spells_of_transcript transcript short, inOrder⟩

/-- A key that goes down and up again, and a request to quit. -/
def score : List Event :=
  let key : Key := ⟨11, by decide⟩
  [⟨2, .key key true⟩, ⟨30, .key key false⟩, ⟨30, .quit⟩]

def scoreLines : List (List Char) :=
  ["# 1".toList, "2 B\tdOwN#!".toList, " \x0b".toList, " 30\u00a0b  up ".toList,
    "30 Quit #".toList]

theorem parse_transcript_score : parse scoreLines = .ok score := by
  have noRemark : IsRemark [] := nofun
  have remark (text : List Char) : IsRemark ('#' :: text) :=
    fun _ first => (Option.some.inj first).symm
  have down : Written ⟨2, .key 11 true⟩ "2 B\tdOwN#!".toList :=
    @Written.key 2 11 true 'B' [] [' '] ['\t'] "dOwN".toList [] "#!".toList (by decide)
      (by decide) (by decide) (.inr rfl) (by decide) (by decide) (by decide) (by decide) (remark _)
  have up : Written ⟨30, .key 11 false⟩ " 30\u00a0b  up ".toList :=
    @Written.key 30 11 false 'b' [' '] ['\u00a0'] [' ', ' '] "up".toList [' '] [] (by decide)
      (by decide) (by decide) (.inl rfl) (by decide) (by decide) (by decide) (by decide) noRemark
  have quit : Written ⟨30, .quit⟩ "30 Quit #".toList :=
    @Written.quit 30 [] [' '] "Quit".toList [' '] ['#'] (by decide) (by decide) (by decide)
      (by decide) (by decide) (remark _)
  have transcript : Transcript score scoreLines :=
    @Transcript.pause _ _ [] "# 1".toList (by decide) (remark _) (.event down
      (@Transcript.pause _ _ " \x0b".toList [] (by decide) noRemark
        (.event up (.event quit .nil))))
  have inOrder : InOrder score := by
    unfold InOrder
    decide
  exact parse_transcript transcript inOrder (by decide)

end Chip8.InputTrace
