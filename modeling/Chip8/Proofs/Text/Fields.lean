import Chip8.Text.Blank

/-!
# Fields laid out

A text is laid out in fields if it is put together from them with blanks between them, and perhaps
with more around them. Every text is laid out in the fields that it is split into, and in no others.
-/

set_option autoImplicit false

namespace Chip8.Text

def IsGap (text : List Char) : Prop := ∀ c ∈ text, isBlank c = true

-- Over the characters of the text, and not over all that there are.
instance (text : List Char) : Decidable (IsGap text) :=
  List.decidableBAll (fun c => isBlank c = true) text

structure IsField (text : List Char) : Prop where
  nonempty : text ≠ []
  solid : ∀ c ∈ text, isBlank c = false

/-- A text made of fields. What follows a field is the end or begins with a blank. -/
inductive Layout : List Char → List (List Char) → Prop where
  | gap {text : List Char} : IsGap text → Layout text []
  | field {gap field rest : List Char} {others : List (List Char)} : IsGap gap → IsField field →
      (∀ c ∈ rest.head?, isBlank c = true) → Layout rest others →
      Layout (gap ++ (field ++ rest)) (field :: others)

theorem IsGap.cons {c : Char} {text : List Char} (blank : isBlank c = true) (gap : IsGap text) :
    IsGap (c :: text) :=
  List.forall_mem_cons.mpr ⟨blank, gap⟩

theorem IsGap.head {gap : List Char} (isGap : IsGap gap) : ∀ c ∈ gap.head?, isBlank c = true :=
  fun c first => isGap c (List.mem_of_head? first)

theorem IsGap.leads {gap : List Char} (isGap : IsGap gap) (nonempty : gap ≠ []) (rest : List Char) :
    ∀ c ∈ (gap ++ rest).head?, isBlank c = true := by
  cases gap with
  | nil => exact absurd rfl nonempty
  | cons b gap =>
      intro c head
      cases head
      exact isGap b List.mem_cons_self

theorem fields_cons_blank {c : Char} (blank : isBlank c = true) (rest : List Char) :
    fields (c :: rest) = fields rest := by
  cases rest with
  | nil => simp only [fields, blank, ↓reduceIte]
  | cons d rest => simp only [fields, blank, ↓reduceIte]

theorem fields_gap_append {gap : List Char} (isGap : IsGap gap) (rest : List Char) :
    fields (gap ++ rest) = fields rest := by
  induction gap with
  | nil => rfl
  | cons c gap ih =>
      obtain ⟨blank, others⟩ := List.forall_mem_cons.mp isGap
      rw [List.cons_append, fields_cons_blank blank, ih others]

theorem fields_field_append {field rest : List Char} (isField : IsField field)
    (cut : ∀ c ∈ rest.head?, isBlank c = true) : fields (field ++ rest) = field :: fields rest := by
  obtain ⟨nonempty, solid⟩ := isField
  induction field with
  | nil => exact absurd rfl nonempty
  | cons c field ih =>
      obtain ⟨first, others⟩ := List.forall_mem_cons.mp solid
      cases field with
      | cons d field =>
          have later := ih (List.cons_ne_nil d field) others
          have second : isBlank d = false := others d List.mem_cons_self
          rw [List.cons_append] at later
          simp only [List.cons_append, fields, first, second, later, Bool.false_eq_true,
            ↓reduceIte]
      | nil =>
          cases rest with
          | nil => simp only [List.append_nil, fields, first, Bool.false_eq_true, ↓reduceIte]
          | cons d rest =>
              have blank : isBlank d = true := cut d rfl
              simp only [List.cons_append, List.nil_append, fields, first, blank,
                Bool.false_eq_true, ↓reduceIte]

theorem Layout.prepend {c : Char} {text : List Char} {others : List (List Char)}
    (blank : isBlank c = true) (layout : Layout text others) : Layout (c :: text) others := by
  cases layout with
  | gap isGap => exact .gap (isGap.cons blank)
  | field isGap isField cut rest => exact .field (isGap.cons blank) isField cut rest

theorem Layout.behind {field rest : List Char} {others : List (List Char)}
    (layout : Layout rest others) (isField : IsField field)
    (cut : ∀ c ∈ rest.head?, isBlank c = true) : Layout (field ++ rest) (field :: others) := by
  have nothing : IsGap [] := List.forall_mem_nil _
  exact .field nothing isField cut layout

/-- A character in front of a field joins it. -/
theorem Layout.extend {c d : Char} {text : List Char} {others : List (List Char)}
    (first : isBlank c = false) (second : isBlank d = false) (layout : Layout (d :: text) others) :
    ∃ extended, Layout (c :: d :: text) extended := by
  generalize whole : d :: text = line at layout
  cases layout with
  | gap isGap =>
      subst whole
      exact absurd (isGap d List.mem_cons_self) (ne_true_of_eq_false second)
  | @field gap field rest later isGap isField cut layout =>
      cases gap with
      | cons b gap =>
          cases whole
          exact absurd (isGap d List.mem_cons_self) (ne_true_of_eq_false second)
      | nil =>
          have longer : IsField (c :: field) :=
            ⟨List.cons_ne_nil c field, List.forall_mem_cons.mpr ⟨first, isField.solid⟩⟩
          exact ⟨_, layout.behind longer cut⟩

theorem exists_layout (text : List Char) : ∃ others, Layout text others := by
  induction text with
  | nil => exact ⟨[], .gap (List.forall_mem_nil _)⟩
  | cons c rest ih =>
      obtain ⟨others, layout⟩ := ih
      cases first : isBlank c with
      | true => exact ⟨others, layout.prepend first⟩
      | false =>
          have alone : IsField [c] := ⟨List.cons_ne_nil c [], List.forall_mem_singleton.mpr first⟩
          have single (cut : ∀ d ∈ rest.head?, isBlank d = true) :
              Layout ([c] ++ rest) ([c] :: others) := layout.behind alone cut
          cases rest with
          | nil => exact ⟨_, single nofun⟩
          | cons d rest =>
              cases second : isBlank d with
              | true => exact ⟨_, single fun _ head => Option.some.inj head ▸ second⟩
              | false =>
                  exact layout.extend first second

theorem Layout.fields_eq {text : List Char} {others : List (List Char)}
    (layout : Layout text others) : fields text = others := by
  induction layout with
  | gap isGap =>
      have nothing := fields_gap_append isGap []
      rw [List.append_nil] at nothing
      exact nothing
  | field isGap isField cut _ ih =>
      rw [fields_gap_append isGap, fields_field_append isField cut, ih]

/-- The fields of a text are those in which it is laid out. -/
theorem fields_eq_iff {text : List Char} {others : List (List Char)} :
    fields text = others ↔ Layout text others := by
  constructor
  · intro split
    obtain ⟨found, layout⟩ := exists_layout text
    rw [← split, layout.fields_eq]
    exact layout
  · exact Layout.fields_eq

end Chip8.Text
