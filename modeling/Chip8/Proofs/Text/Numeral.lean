import Chip8.Text.Numeral

/-!
# Numerals read back

A run of ASCII digits without a sign, a mark or underscores is read as its value. In base ten it
must not be too long, so every natural number that is written in at most that many digits is read
back.
-/

set_option autoImplicit false

namespace Chip8.Text

theorem isBlank_eq_false {c : Char} (low : 0x21 ≤ c.toNat) (high : c.toNat ≤ 0x7e) :
    isBlank c = false := by
  have wide : ∀ blank ∈ wideBlanks, 0x7e < blank := by decide
  have space : c ≠ ' ' := by
    rintro rfl
    exact absurd low (by decide)
  have notWide : c.toNat ∉ wideBlanks := fun member => absurd (wide _ member) (by omega)
  simp only [isBlank, isPadding, Bool.or_eq_false_iff, Bool.and_eq_false_iff,
    decide_eq_false_iff_not, beq_eq_false_iff_ne, List.contains_eq_mem]
  exact ⟨⟨⟨space, .inr (by omega)⟩, .inr (by omega)⟩, notWide⟩

theorem digit_bounds {base : Base} {c : Char} (digit : (base.digit? c).isSome = true) :
    (48 ≤ c.toNat ∧ c.toNat ≤ 57) ∨ (65 ≤ c.toNat ∧ c.toNat ≤ 70) ∨
      (97 ≤ c.toNat ∧ c.toNat ≤ 102) := by
  obtain ⟨value, found⟩ := Option.isSome_iff_exists.mp digit
  have hex : (hexValue? c).isSome = true := by
    rw [(Option.filter_eq_some_iff.mp found).1]
    rfl
  unfold hexValue? at hex
  simp only [Char.le_def, UInt32.le_iff_toNat_le] at hex
  split at hex
  case isTrue number => exact .inl number
  case isFalse =>
    split at hex
    case isTrue lower => exact .inr (.inr lower)
    case isFalse =>
      split at hex
      case isTrue upper => exact .inr (.inl upper)
      case isFalse => cases hex

section

variable {base : Base} {digits : List Char}
  (areDigits : ∀ c ∈ digits, (base.digit? c).isSome = true)

include areDigits

theorem asciiText_of_digits : asciiText digits = digits := by
  refine if_pos (List.all_eq_true.mpr ?_)
  intro c member
  have bounds := digit_bounds (areDigits c member)
  exact decide_eq_true (by omega)

theorem ne_of_digits {c other : Char} (member : c ∈ digits)
    (apart : ¬((48 ≤ other.toNat ∧ other.toNat ≤ 57) ∨ (65 ≤ other.toNat ∧ other.toNat ≤ 70) ∨
      (97 ≤ other.toNat ∧ other.toNat ≤ 102))) : c ≠ other := by
  rintro rfl
  exact apart (digit_bounds (areDigits c member))

theorem digitRun_of_digits : digitRun base digits = digits := by
  have each : ∀ c ∈ digits, (c == '_' || (base.digit? c).isSome) = true := by
    intro c member
    rw [areDigits c member, Bool.or_true]
  have whole : digitRun base (digits ++ []) = digits ++ digitRun base [] :=
    List.takeWhile_append_of_pos each
  rw [List.append_nil] at whole
  exact whole.trans (List.append_nil digits)

theorem wellSpaced_of_digits : wellSpaced digits = true := by
  induction digits with
  | nil => rfl
  | cons c rest ih =>
      obtain ⟨_, others⟩ := List.forall_mem_cons.mp areDigits
      have noLine : c ≠ '_' := ne_of_digits areDigits List.mem_cons_self (by decide)
      rw [wellSpaced]
      · exact ih others
      · exact fun same => noLine same

theorem countP_of_digits : digits.countP (· != '_') = digits.length := by
  refine List.countP_eq_length.mpr ?_
  intro c member
  exact bne_iff_ne.mpr (ne_of_digits areDigits member (by decide))

theorem splitSign_of_digits : splitSign (digits.dropWhile isPadding) = (false, digits) := by
  cases digits with
  | nil => rfl
  | cons c rest =>
      have first := digit_bounds (areDigits c List.mem_cons_self)
      have solid : ¬isPadding c = true := by
        intro padding
        have blank : isBlank c = true := by simp only [isBlank, padding, Bool.true_or]
        rw [isBlank_eq_false (by omega) (by omega)] at blank
        cases blank
      have noMinus : c ≠ '-' := ne_of_digits areDigits List.mem_cons_self (by decide)
      have noPlus : c ≠ '+' := ne_of_digits areDigits List.mem_cons_self (by decide)
      rw [List.dropWhile_cons_of_neg solid, splitSign]
      · exact fun _ same => noMinus (List.cons.inj same).1
      · exact fun _ same => noPlus (List.cons.inj same).1

/-- Digits that are neither too many nor led by a mark are a numeral. -/
theorem readInt_of_digits (nonempty : digits ≠ []) (unmarked : dropMark base digits = digits)
    (short : base = .ten → digits.length ≤ maxDecimalDigits) :
    readInt base digits = .ok (runValue base digits) := by
  have noLine : (digits.head? == some '_') = false := by
    refine beq_eq_false_iff_ne.mpr ?_
    intro first
    exact ne_of_digits areDigits (List.mem_of_head? first) (by decide) rfl
  have many : (digits.length == 0) = false :=
    beq_eq_false_iff_ne.mpr fun none => nonempty (List.eq_nil_of_length_eq_zero none)
  have fits : (base == .ten && decide (maxDecimalDigits < digits.length)) = false := by
    cases base with
    | ten => exact decide_eq_false (Nat.not_lt.mpr (short rfl))
    | sixteen => rfl
  simp only [readInt, asciiText_of_digits areDigits, splitSign_of_digits areDigits, unmarked,
    digitRun_of_digits areDigits, wellSpaced_of_digits areDigits, countP_of_digits areDigits,
    noLine, many, fits, List.drop_length, List.any_nil, Bool.not_true, Bool.or_self,
    Bool.false_eq_true, ↓reduceIte]

end

theorem digit?_of_isDigit {c : Char} (isDigit : c.isDigit = true) :
    Base.ten.digit? c = some (c.toNat - '0'.toNat) := by
  simp only [Char.isDigit, Bool.and_eq_true, decide_eq_true_eq] at isDigit
  have number : '0' ≤ c ∧ c ≤ '9' := isDigit
  have bounds : c.toNat ≤ 57 := isDigit.2
  have small : c.toNat - '0'.toNat < Base.ten.size := by
    have zero : '0'.toNat = 48 := rfl
    have ten : Base.ten.size = 10 := rfl
    omega
  rw [Base.digit?, hexValue?, if_pos number, Option.filter_some, if_pos (decide_eq_true small)]

theorem foldl_of_isDigit {digits : List Char} (areDigits : ∀ c ∈ digits, c.isDigit = true)
    (value : Nat) : (digits.filterMap Base.ten.digit?).foldl
      (fun value digit => value * Base.ten.size + digit) value =
        Nat.ofDigitChars 10 digits value := by
  induction digits generalizing value with
  | nil => rfl
  | cons c rest ih =>
      obtain ⟨first, others⟩ := List.forall_mem_cons.mp areDigits
      rw [List.filterMap_cons_some (digit?_of_isDigit first), List.foldl_cons, ih others,
        Nat.mul_comm]
      rfl

theorem readInt_toDigits {number : Nat}
    (short : (Nat.toDigits 10 number).length ≤ maxDecimalDigits) :
    readInt .ten (Nat.toDigits 10 number) = .ok number := by
  have isDigit : ∀ c ∈ Nat.toDigits 10 number, c.isDigit = true :=
    fun c member => Nat.isDigit_of_mem_toDigits (by decide) (by decide) member
  have areDigits : ∀ c ∈ Nat.toDigits 10 number, (Base.ten.digit? c).isSome = true := by
    intro c member
    rw [digit?_of_isDigit (isDigit c member)]
    rfl
  have value : runValue .ten (Nat.toDigits 10 number) = number :=
    (foldl_of_isDigit isDigit 0).trans Nat.ofDigitChars_ten_toDigits
  rw [readInt_of_digits areDigits Nat.toDigits_ne_nil rfl fun _ => short, value]

/-- A number below sixteen is read back from its digit, a letter in either case. -/
theorem readInt_hexDigit {digit : Char} {number : Fin 16}
    (written : digit = Nat.digitChar number ∨ digit = (Nat.digitChar number).toUpper) :
    readInt .sixteen [digit] = .ok (number.val : Nat) := by
  have found : Base.sixteen.digit? digit = some number.val := by
    rcases written with rfl | rfl
    · revert number
      decide
    · revert number
      decide
  have isDigit : ∀ c ∈ [digit], (Base.sixteen.digit? c).isSome = true :=
    List.forall_mem_singleton.mpr (by rw [found]; rfl)
  have value : runValue .sixteen [digit] = number := by
    rw [runValue, List.filterMap_cons_some found]
    exact Nat.zero_add number
  have unmarked : dropMark .sixteen [digit] = [digit] := by
    rw [dropMark]
    exact fun _ _ _ same => List.cons_ne_nil _ _ (List.cons.inj same).2.symm
  rw [readInt_of_digits isDigit (List.cons_ne_nil digit []) unmarked nofun, value]

end Chip8.Text
