import Chip8.Text.Hex
import Chip8.Proofs.Text.Numeral

/-!
# Hexadecimal text read back

The digits of a number are read back as the number, and zeros in front of them change nothing. With
the sign this makes the text of an integer its own, whatever the width. Behind the sign stand
hexadecimal digits only, so the text ends where a blank follows.
-/

set_option autoImplicit false

namespace Chip8.Text

theorem digit?_digitChar {digit : Nat} (small : digit < 16) :
    Base.sixteen.digit? digit.digitChar = some digit := by
  revert digit
  decide

theorem runValue_concat {base : Base} {c : Char} {digit : Nat}
    (found : base.digit? c = some digit) (run : List Char) :
    runValue base (run ++ [c]) = runValue base run * base.size + digit := by
  simp only [runValue, List.filterMap_append, List.filterMap_cons_some found, List.filterMap_nil,
    List.foldl_append, List.foldl_cons, List.foldl_nil]

theorem runValue_zeros (count : Nat) (run : List Char) :
    runValue .sixteen (List.replicate count '0' ++ run) = runValue .sixteen run := by
  induction count with
  | zero => rfl
  | succ count ih =>
      rw [List.replicate_succ, List.cons_append, ← ih]
      rfl

theorem runValue_toDigits (number : Nat) :
    runValue .sixteen (Nat.toDigits 16 number) = number := by
  induction number using Nat.strongRecOn with
  | ind number ih =>
      rw [Nat.toDigits_eq_if (by decide)]
      split
      case isTrue small =>
        exact (runValue_concat (digit?_digitChar small) []).trans (Nat.zero_add number)
      case isFalse large =>
        have last : number % 16 < 16 := Nat.mod_lt number (by decide)
        rw [runValue_concat (digit?_digitChar last), ih (number / 16) (by omega)]
        exact Nat.div_add_mod' number 16

theorem runValue_zeroPad (width number : Nat) :
    runValue .sixteen (zeroPad width (Nat.toDigits 16 number)) = number :=
  (runValue_zeros _ _).trans (runValue_toDigits number)

theorem areDigits_toDigits (number : Nat) :
    ∀ c ∈ Nat.toDigits 16 number, (Base.sixteen.digit? c).isSome = true := by
  induction number using Nat.strongRecOn with
  | ind number ih =>
      have digit {value : Nat} (small : value < 16) :
          (Base.sixteen.digit? value.digitChar).isSome = true := by
        rw [digit?_digitChar small]
        rfl
      rw [Nat.toDigits_eq_if (by decide)]
      split
      case isTrue small => exact List.forall_mem_singleton.mpr (digit small)
      case isFalse large =>
        refine List.forall_mem_append.mpr ⟨ih (number / 16) (by omega), ?_⟩
        exact List.forall_mem_singleton.mpr (digit (Nat.mod_lt number (by decide)))

theorem areDigits_zeroPad (width number : Nat) :
    ∀ c ∈ zeroPad width (Nat.toDigits 16 number), (Base.sixteen.digit? c).isSome = true := by
  refine List.forall_mem_append.mpr ⟨?_, areDigits_toDigits number⟩
  intro c member
  rw [List.eq_of_mem_replicate member]
  rfl

/-- The integers have different texts of any one width. -/
theorem hexChars_injective (width : Nat) : Function.Injective (hexChars width) := by
  have unsigned {width number : Nat} : '-' ∉ zeroPad width (Nat.toDigits 16 number) :=
    fun member => ne_of_digits (areDigits_zeroPad width number) member (by decide) rfl
  intro first second same
  simp only [hexChars] at same
  split at same <;> split at same
  case isTrue.isTrue below below' =>
    have sizes := congrArg (runValue .sixteen) (List.cons.inj same).2
    rw [runValue_zeroPad, runValue_zeroPad] at sizes
    omega
  case isTrue.isFalse => exact absurd (same ▸ List.mem_cons_self) unsigned
  case isFalse.isTrue => exact absurd (same ▸ List.mem_cons_self) unsigned
  case isFalse.isFalse above above' =>
    have sizes := congrArg (runValue .sixteen) same
    rw [runValue_zeroPad, runValue_zeroPad] at sizes
    omega

/-- Nothing but a sign and digits stands in the text. -/
theorem notMem_hexChars {width : Nat} {value : Int} {c : Char} (minus : c ≠ '-')
    (other : Base.sixteen.digit? c = none) : c ∉ hexChars width value := by
  have notDigits {width : Nat} : c ∉ zeroPad width (Nat.toDigits 16 value.natAbs) := by
    intro member
    have digit := areDigits_zeroPad width value.natAbs c member
    rw [other] at digit
    cases digit
  intro member
  simp only [hexChars] at member
  split at member
  case isTrue => exact (List.mem_cons.mp member).elim minus notDigits
  case isFalse => exact notDigits member

/-- The width is filled exactly by a number that needs no more digits. -/
theorem length_hexChars {width number : Nat} (positive : 0 < width)
    (fits : number < Nat.pow 16 width) : (hexChars width number).length = width := by
  have short : (Nat.toDigits 16 number).length ≤ width :=
    (Nat.length_toDigits_le_iff (by decide) positive).mpr fits
  rw [hexChars, if_neg (Int.not_lt.mpr (Int.natCast_nonneg number)), length_zeroPad,
    Int.natAbs_natCast, Nat.max_eq_left short]

end Chip8.Text
