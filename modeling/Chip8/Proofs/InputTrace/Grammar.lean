import Chip8.Proofs.InputTrace.Replay
import Chip8.Proofs.Results
import Chip8.Proofs.Text.Fields

/-!
# The grammar of traces

Which lines make a trace, said without the order in which they are read: what each line says is
settled by its fields, and the frames of the lines that say anything do not decrease. A trace is
read exactly if it follows this grammar. Otherwise the fault that is found is in the first line
behind which the lines up to there no longer follow it.
-/

set_option autoImplicit false

namespace Chip8.InputTrace

/-- There is nothing, or a number sign and anything behind it. -/
def IsRemark (text : List Char) : Prop := ∀ c ∈ text.head?, c = '#'

def Shows (line : List Char) (fields : List (List Char)) : Prop :=
  ∃ content remark, line = content ++ remark ∧ '#' ∉ content ∧ IsRemark remark ∧
    Text.Layout content fields

inductive Denotes : List (List Char) → Action → Prop where
  | quit {word : List Char} : isKeyword "quit" word = true → Denotes [word] .quit
  | key {number word : List Char} {key : Key} {pressed : Bool} :
      Text.readInt .sixteen number = .ok (key.val : Nat) →
      isKeyword (if pressed then "down" else "up") word = true →
      Denotes [number, word] (.key key pressed)

inductive Says (line : List Char) : Option Event → Prop where
  | nothing : Shows line [] → Says line none
  | event {number : List Char} {rest : List (List Char)} {frame : Nat} {action : Action} :
      Shows line (number :: rest) → Text.readInt .ten number = .ok (frame : Int) →
      Denotes rest action → Says line (some ⟨frame, action⟩)

inductive Spells : List (List Char) → List Event → Prop where
  | nil : Spells [] []
  | skip {line : List Char} {rest : List (List Char)} {events : List Event} :
      Says line none → Spells rest events → Spells (line :: rest) events
  | event {line : List Char} {rest : List (List Char)} {event : Event} {events : List Event} :
      Says line (some event) → Spells rest events → Spells (line :: rest) (event :: events)

structure Trace (lines : List (List Char)) (events : List Event) : Prop where
  spells : Spells lines events
  inOrder : InOrder events

/-- The fault is in the first line behind which the lines up to there are no trace. -/
structure FirstFault (lines : List (List Char)) (error : ParseError) : Prop where
  line : ∀ count, (∃ events, Trace (lines.take count) events) ↔ count < error.line
  message : (∃ reason, error.message =
      "Bad input trace on line " ++ toString error.line ++ ": " ++ reason) ∨
    error.message = "Input trace events on line " ++ toString error.line ++
      " are out of frame order"

theorem lineFields_eq_iff {line : List Char} {fields : List (List Char)} :
    lineFields line = fields ↔ Shows line fields := by
  rw [lineFields, Text.fields_eq_iff]
  constructor
  · intro layout
    refine ⟨_, line.dropWhile (· != '#'), List.takeWhile_append_dropWhile.symm, ?_, ?_, layout⟩
    · intro member
      exact absurd (List.all_eq_true.mp List.all_takeWhile '#' member) (by decide)
    · intro c head
      have stopped := List.head?_dropWhile_not (fun c => c != '#') line
      rw [Option.mem_def.mp head] at stopped
      simpa using stopped
  · rintro ⟨content, remark, rfl, noSign, sign, layout⟩
    have before : ∀ c ∈ content, (c != '#') = true := by
      intro c member
      exact bne_iff_ne.mpr fun same => noSign (same ▸ member)
    have behind : remark.takeWhile (· != '#') = [] := by
      cases remark with
      | nil => rfl
      | cons c rest =>
          rw [sign c rfl]
          rfl
    rw [List.takeWhile_append_of_pos before, behind, List.append_nil]
    exact layout

theorem direction?_eq_some_iff {word : List Char} {pressed : Bool} :
    direction? word = some pressed ↔
      isKeyword (if pressed then "down" else "up") word = true := by
  -- No word is both keywords.
  have apart : isKeyword "up" word = true → isKeyword "down" word = false := by
    simp only [isKeyword, beq_iff_eq]
    intro isUp
    rw [isUp]
    decide
  cases pressed with
  | true =>
      simp only [direction?, ↓reduceIte]
      split
      case isTrue down => exact iff_of_true rfl down
      case isFalse down =>
        split
        · exact iff_of_false nofun down
        · exact iff_of_false nofun down
  | false =>
      simp only [direction?, Bool.false_eq_true, ↓reduceIte]
      split
      case isTrue down =>
        exact iff_of_false nofun fun up => Bool.noConfusion (down.symm.trans (apart up))
      case isFalse =>
        split
        case isTrue up => exact iff_of_true rfl up
        case isFalse up => exact iff_of_false nofun up

theorem key?_eq_ok_iff {number : Int} {key : Key} :
    Keypad.key? number = .ok key ↔ number = (key.val : Nat) := by
  constructor
  · intro found
    unfold Keypad.key? at found
    split at found
    · cases found
      simp only
      omega
    · cases found
  · rintro rfl
    exact Keypad.key?_val key

theorem of_readField {base : Text.Base} {field : List Char} {value : Int}
    (read : readField base field = .ok value) : Text.readInt base field = .ok value :=
  of_mapError read

theorem readField_of {base : Text.Base} {field : List Char} {value : Int}
    (read : Text.readInt base field = .ok value) : readField base field = .ok value := by
  rw [readField, read]
  rfl

theorem readAction_eq_ok_iff {fields : List (List Char)} {action : Action} :
    readAction fields = .ok action ↔ Denotes fields action := by
  constructor
  · intro read
    unfold readAction at read
    split at read
    · split at read
      case isTrue word quits =>
        cases read
        exact .quit quits
      case isFalse => cases read
    · split at read
      · cases read
      case h_2 number word _ pressed direction =>
        obtain ⟨value, field, rest⟩ := of_bind read
        cases inRange : Keypad.key? value with
        | error cause =>
            rw [inRange] at rest
            cases rest
        | ok key =>
            rw [inRange] at rest
            cases rest
            rw [key?_eq_ok_iff.mp inRange] at field
            exact .key (of_readField field) (direction?_eq_some_iff.mp direction)
    · cases read
  · intro denotes
    cases denotes with
    | quit quits => simp only [readAction, quits, ↓reduceIte]
    | key number word =>
        simp only [readAction, direction?_eq_some_iff.mpr word, readField_of number,
          key?_eq_ok_iff.mpr rfl, bind, Except.bind, pure, Except.pure]

theorem readLine_eq_none_iff {line : List Char} :
    readLine line = .ok none ↔ Says line none := by
  constructor
  · intro read
    unfold readLine at read
    split at read
    case h_1 none => exact .nothing (lineFields_eq_iff.mp none)
    case h_2 =>
      obtain ⟨frame, _, rest⟩ := of_bind read
      obtain ⟨action, _, rest⟩ := of_bind rest
      cases rest
  · intro meaning
    cases meaning with
    | nothing shows => simp only [readLine, lineFields_eq_iff.mpr shows]

theorem readLine_eq_some_iff {line : List Char} {frame : Nat} {action : Action} :
    readLine line = .ok (some ((frame : Int), action)) ↔ Says line (some ⟨frame, action⟩) := by
  constructor
  · intro read
    unfold readLine at read
    split at read
    · cases read
    case h_2 fields =>
      obtain ⟨number, isFrame, rest⟩ := of_bind read
      obtain ⟨said, isAction, rest⟩ := of_bind rest
      cases rest
      exact .event (lineFields_eq_iff.mp fields) (of_readField isFrame)
        (readAction_eq_ok_iff.mp isAction)
  · intro meaning
    cases meaning with
    | event shows number denotes =>
        simp only [readLine, lineFields_eq_iff.mpr shows, readField_of number,
          readAction_eq_ok_iff.mpr denotes, bind, Except.bind, pure, Except.pure]

theorem spells_of_parseFrom {lines : List (List Char)} {line last : Nat} {events : List Event}
    (parsed : parseFrom line last lines = .ok events) : Spells lines events := by
  induction lines generalizing line last events with
  | nil =>
      cases parsed
      exact .nil
  | cons text rest ih =>
      simp only [parseFrom] at parsed
      split at parsed
      case h_1 => cases parsed
      case h_2 read => exact .skip (readLine_eq_none_iff.mp read) (ih parsed)
      case h_3 frame action read =>
        split at parsed
        case isTrue => cases parsed
        case isFalse reached =>
          obtain ⟨number, rfl⟩ := Int.eq_ofNat_of_zero_le (show 0 ≤ frame by omega)
          cases others : parseFrom (line + 1) number rest with
          | error cause =>
              rw [Int.toNat_natCast, others] at parsed
              cases parsed
          | ok later =>
              rw [Int.toNat_natCast, others] at parsed
              cases parsed
              exact .event (readLine_eq_some_iff.mp read) (ih others)

theorem parseFrom_of_spells {lines : List (List Char)} {line last : Nat} {events : List Event}
    (spells : Spells lines events) (reached : ∀ event ∈ events, last ≤ event.frame)
    (inOrder : InOrder events) : parseFrom line last lines = .ok events := by
  induction spells generalizing line last with
  | nil => rfl
  | skip meaning _ ih =>
      simp only [parseFrom, readLine_eq_none_iff.mpr meaning]
      exact ih reached inOrder
  | @event text rest event others meaning _ ih =>
      obtain ⟨first, _⟩ := List.forall_mem_cons.mp reached
      obtain ⟨behind, later⟩ := List.pairwise_cons.mp inOrder
      have early : ¬(event.frame : Int) < last := by omega
      simp only [parseFrom, readLine_eq_some_iff.mpr meaning, if_neg early, Int.toNat_natCast]
      rw [ih behind later]
      rfl

theorem parse_eq_ok_iff {lines : List (List Char)} {events : List Event} :
    parse lines = .ok events ↔ Trace lines events := by
  constructor
  · intro parsed
    exact ⟨spells_of_parseFrom parsed, inOrder_parse parsed⟩
  · intro trace
    exact parseFrom_of_spells trace.spells (fun _ _ => Nat.zero_le _) trace.inOrder

/-- The line of a fault, told by the lines that can be read up to there. -/
theorem line_of_parseFrom {lines : List (List Char)} {line last : Nat} {error : ParseError}
    (failed : parseFrom line last lines = .error error) :
    line ≤ error.line ∧ ∀ count,
      (∃ events, parseFrom line last (lines.take count) = .ok events) ↔
        line + count ≤ error.line := by
  induction lines generalizing line last with
  | nil => cases failed
  | cons text rest ih =>
      have beyond (count : Nat) : ¬line + 1 + count ≤ line := by omega
      -- The first line at fault is this one, or it is the first one among the others.
      have behind : line ≤ error.line ∧ ∀ count,
          (∃ events, parseFrom line last (text :: rest.take count) = .ok events) ↔
            line + 1 + count ≤ error.line := by
        simp only [parseFrom] at failed ⊢
        cases read : readLine text with
        | error cause =>
          rw [read] at failed
          cases failed
          exact ⟨Nat.le_refl line, fun count => iff_of_false (error_not_ok _) (beyond count)⟩
        | ok said =>
          rw [read] at failed
          cases said with
          | none =>
              obtain ⟨later, readable⟩ := ih failed
              exact ⟨by omega, readable⟩
          | some entry =>
              obtain ⟨frame, action⟩ := entry
              by_cases early : frame < last
              · simp only [early, ↓reduceIte] at failed ⊢
                cases failed
                exact ⟨Nat.le_refl line, fun count => iff_of_false (error_not_ok _) (beyond count)⟩
              · simp only [early, ↓reduceIte] at failed ⊢
                obtain ⟨later, readable⟩ := ih (map_eq_error_iff.mp failed)
                refine ⟨by omega, fun count => ?_⟩
                rw [← readable count]
                exact exists_map_eq_ok_iff
      refine ⟨behind.1, ?_⟩
      intro count
      cases count with
      | zero => exact iff_of_true ⟨[], rfl⟩ behind.1
      | succ count =>
          rw [List.take_succ_cons, behind.2 count]
          omega

theorem message_forms (error : ParseError) :
    (∃ reason, error.message =
      "Bad input trace on line " ++ toString error.line ++ ": " ++ reason) ∨
    error.message = "Input trace events on line " ++ toString error.line ++
      " are out of frame order" := by
  obtain ⟨line, cause⟩ := error
  cases cause with
  | badLine error => exact .inl ⟨error.message, rfl⟩
  | outOfOrder => exact .inr rfl

/-- Lines are read exactly if they are a trace, and then as its events. Reading them fails exactly
if they are none, and finds the first line at fault. -/
theorem parse_follows_grammar (lines : List (List Char)) :
    (∀ events, parse lines = .ok events ↔ Trace lines events) ∧
      ((∃ error, parse lines = .error error) ↔ ¬∃ events, Trace lines events) ∧
      ∀ error, parse lines = .error error → FirstFault lines error := by
  refine ⟨fun _ => parse_eq_ok_iff, ?_, ?_⟩
  · simp only [← parse_eq_ok_iff]
    cases parse lines with
    | ok events => simp
    | error cause => simp
  · intro error failed
    obtain ⟨_, readable⟩ := line_of_parseFrom failed
    refine ⟨?_, message_forms error⟩
    intro count
    simp only [← parse_eq_ok_iff, parse, readable]
    omega

/-- A trace in which the third line belongs in front of the first. -/
def misplaced : List (List Char) := ["2 a down".toList, "# later".toList, "1 quit".toList]

theorem parse_follows_grammar_misplaced :
    (∃ events, Trace (misplaced.take 2) events) ∧ ¬∃ events, Trace misplaced events := by
  obtain ⟨_, fails_iff, faults⟩ := parse_follows_grammar misplaced
  have failed : parse misplaced = .error ⟨3, .outOfOrder⟩ := by rfl
  exact ⟨((faults _ failed).line 2).mpr (by decide), fails_iff.mp ⟨_, failed⟩⟩

end Chip8.InputTrace
