import Chip8.Proofs.Machine.Effects
import Chip8.Proofs.Text.Hex

/-!
# Printed lines

A line of live debugging is made of labels, numbers and the wording of an instruction, and none of
these has a character beyond ASCII in it. So every output can write the lines of a run.
-/

set_option autoImplicit false

namespace Chip8

def Text.IsAscii (text : List Char) : Prop := ∀ c ∈ text, c.toNat < 128

namespace Text

-- Over the characters of the text, and not over all that there are.
instance (text : List Char) : Decidable (IsAscii text) :=
  List.decidableBAll (fun c : Char => c.toNat < 128) text

theorem isAscii_append {first second : List Char} :
    IsAscii (first ++ second) ↔ IsAscii first ∧ IsAscii second :=
  List.forall_mem_append

theorem IsAscii.concat {first second : String} (plain : IsAscii first.toList)
    (plain' : IsAscii second.toList) : IsAscii (first ++ second).toList := by
  rw [String.toList_append, isAscii_append]
  exact ⟨plain, plain'⟩

theorem isAscii_hexChars (width : Nat) (value : Int) : IsAscii (hexChars width value) := by
  have digits (width : Nat) : IsAscii (zeroPad width (Nat.toDigits 16 value.natAbs)) := by
    intro c member
    have bounds := digit_bounds (areDigits_zeroPad width value.natAbs c member)
    omega
  unfold hexChars
  dsimp only
  split
  · exact List.forall_mem_cons.mpr ⟨by decide, digits _⟩
  · exact digits width

theorem isAscii_hex (width : Nat) (value : Int) : IsAscii (hex width value).toList := by
  rw [toList_hex]
  exact isAscii_hexChars width value

theorem isAscii_flatMap_hexChars (width : Nat) (values : List Int) :
    IsAscii (values.flatMap (hexChars width)) := by
  intro c member
  obtain ⟨value, -, inside⟩ := List.mem_flatMap.mp member
  exact isAscii_hexChars width value c inside

end Text

open Text

theorem Readout.isAscii_short (readout : Readout) (address : Int) {instruction : String}
    (plain : IsAscii instruction.toList) : IsAscii (readout.short address instruction).toList := by
  rw [toList_short]
  unfold shortChars
  repeat rw [isAscii_append]
  simp only [isAscii_hexChars, isAscii_flatMap_hexChars, plain, and_true]
  decide

namespace Instruction

theorem isAscii_registerName (x : Register) : IsAscii (registerName x).toList :=
  .concat (by decide) (isAscii_hex 1 x.val)

theorem isAscii_addressText (target : Address) : IsAscii (addressText target).toList :=
  .concat (by decide) (isAscii_hex 3 target.val)

theorem isAscii_byteText (byte : UInt8) : IsAscii (byteText byte).toList :=
  .concat (by decide) (isAscii_hex 2 byte.toNat)

section

variable {operation : String} (plain : IsAscii operation.toList)

include plain

theorem isAscii_oneRegister (x : Register) : IsAscii (oneRegister operation x).toList :=
  .concat (.concat plain (by decide)) (isAscii_registerName x)

theorem isAscii_twoRegisters (x y : Register) : IsAscii (twoRegisters operation x y).toList :=
  .concat (.concat (isAscii_oneRegister plain x) (by decide)) (isAscii_registerName y)

theorem isAscii_registerAnd (x : Register) {operand : String} (plain' : IsAscii operand.toList) :
    IsAscii (registerAnd operation x operand).toList :=
  .concat (.concat (isAscii_oneRegister plain x) (by decide)) plain'

theorem isAscii_shiftWording (dialect : Dialect) (x y : Register) :
    IsAscii (shiftWording operation dialect x y).toList := by
  unfold shiftWording
  split
  · exact isAscii_oneRegister plain x
  · exact isAscii_twoRegisters plain x y

end

theorem isAscii_wording (dialect : Dialect) (instruction : Instruction) :
    IsAscii (instruction.wording dialect).toList := by
  have clears : IsAscii "CLS".toList := by decide
  have returns : IsAscii "RET".toList := by decide
  cases instruction with
  | clearScreen => exact clears
  | ret => exact returns
  | jump target | call target | loadIndex target =>
      exact .concat (by decide) (isAscii_addressText target)
  | skipIfByte x byte | skipUnlessByte x byte | loadByte x byte | addByte x byte
  | random x byte => exact isAscii_registerAnd (by decide) x (isAscii_byteText byte)
  | skipIfSame x y | copy x y | bitOr x y | bitAnd x y | bitXor x y | add x y | subtract x y
  | subtractFrom x y | skipUnlessSame x y => exact isAscii_twoRegisters (by decide) x y
  | shiftRight x y | shiftLeft x y => exact isAscii_shiftWording (by decide) dialect x y
  | jumpOffset target => exact isAscii_registerAnd (by decide) _ (isAscii_addressText target)
  | draw x y rows =>
      exact .concat (.concat (isAscii_twoRegisters (by decide) x y) (by decide))
        (isAscii_hex 1 rows.val)
  | skipIfDown x | skipIfUp x => exact isAscii_oneRegister (by decide) x
  | readDelay x | awaitKey x | loadBlock x => exact isAscii_registerAnd (by decide) x (by decide)
  | setDelay x | setSound x | addIndex x | pointGlyph x | storeDecimal x | storeBlock x =>
      exact .concat (by decide) (isAscii_registerName x)

end Instruction

namespace Machine

variable {machine : Machine} {text : String}

theorem isAscii_of_liveLines {instruction : Instruction}
    (printed : .line text ∈ machine.liveLines instruction) : IsAscii text.toList := by
  unfold liveLines at printed
  split at printed
  · rw [Signal.line.inj (List.mem_singleton.mp printed)]
    exact Readout.isAscii_short _ _ (instruction.isAscii_wording machine.dialect)
  · cases printed

theorem isAscii_of_perform (printed : .line text ∈ machine.perform.signals) :
    IsAscii text.toList := by
  unfold perform at printed
  split at printed
  · cases printed
  · split at printed
    case h_1 => exact isAscii_of_liveLines printed
    case h_2 executed =>
      rcases List.mem_append.mp printed with line | effect
      · exact isAscii_of_liveLines line
      · cases isEffect_execute executed _ effect

/-- Whatever is done to a machine, the lines that it tells its host are ASCII. -/
theorem isAscii_of_operate {operation : Operation}
    (printed : .line text ∈ (machine.operate operation).signals) : IsAscii text.toList := by
  by_cases cycles : operation = .cycle
  · subst cycles
    have told : .line text ∈ machine.cycle.signals := printed
    cases fetch : machine.fetch with
    | error cause =>
        simp only [cycle, fetch] at told
        cases told
    | ok opcode =>
        rw [signals_cycle fetch] at told
        exact isAscii_of_perform told
  · cases isEffect_operate cycles _ printed

end Machine

end Chip8
