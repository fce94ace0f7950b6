import Chip8.Proofs.Machine.Writes
import Mathlib.Data.Nat.Bitwise

/-!
# Results and flags

The operations on two registers read both of them before they write, so nothing changes where the
two are the same. A flag is written behind the result and wins where both go to one register;
elsewhere flag and result together account for the sum, the difference or the shifted value.
-/

set_option autoImplicit false

namespace Chip8

inductive Arithmetic where
  | bitOr
  | bitAnd
  | bitXor
  | add
  | subtract
  | shiftRight
  | subtractFrom
  | shiftLeft
  deriving DecidableEq

def Arithmetic.instruction : Arithmetic → Register → Register → Instruction
  | bitOr => .bitOr
  | bitAnd => .bitAnd
  | bitXor => .bitXor
  | add => .add
  | subtract => .subtract
  | shiftRight => .shiftRight
  | subtractFrom => .subtractFrom
  | shiftLeft => .shiftLeft

namespace Byte

variable (a b value : UInt8)

theorem add_eq : (a.toNat : Int) + b.toNat =
    256 * (if 255 < (a.toNat : Int) + b.toNat then 1 else 0) + (a + b).toNat := by
  have first := a.toNat_lt
  have second := b.toNat_lt
  rw [UInt8.toNat_add]
  split <;> omega

theorem sub_eq : (a.toNat : Int) - b.toNat =
    (a - b).toNat - 256 * (1 - if (b.toNat : Int) ≤ a.toNat then 1 else 0) := by
  have first := a.toNat_lt
  have second := b.toNat_lt
  rw [UInt8.toNat_sub]
  split <;> omega

theorem toNat_shiftRight_one : (value >>> 1).toNat = value.toNat / 2 := by
  rw [UInt8.toNat_shiftRight]
  exact Nat.shiftRight_eq_div_pow value.toNat 1

theorem toNat_shiftLeft_one : (value <<< 1).toNat = value.toNat * 2 % 256 := by
  rw [UInt8.toNat_shiftLeft]
  exact congrArg (· % 256) (Nat.shiftLeft_eq value.toNat 1)

/-- What a mask of one bit leaves is a binary digit. -/
theorem toNat_masked (mask : UInt8) (place : Nat) (isBit : mask.toNat = 2 ^ place) :
    (value &&& mask != 0).toNat = value.toNat / 2 ^ place % 2 := by
  have masked : (value &&& mask).toNat = (value.toNat.testBit place).toNat * 2 ^ place := by
    rw [UInt8.toNat_and, isBit, Nat.and_two_pow]
  rw [← Nat.toNat_testBit]
  congr 1
  rw [Bool.eq_iff_iff, bne_iff_ne, ne_eq, ← UInt8.toNat_inj, masked]
  cases value.toNat.testBit place with
  | false => simp
  | true => simp

end Byte

namespace Machine

def number (machine : Machine) (x : Register) : Int := (machine.register x).toNat

/-- What a bitwise operation leaves in its register and in the flag register. -/
structure Combines (before : Machine) (x : Register) (bits : UInt8) (after : Machine) : Prop where
  result : x ≠ flagRegister ∨ before.dialect.logic = false → after.register x = bits
  cleared : before.dialect.logic = true → after.register flagRegister = 0
  kept : x ≠ flagRegister → before.dialect.logic = false →
    after.register flagRegister = before.register flagRegister

/-- The flag register holds a flag, and the result balances with it unless it was to go to the
flag register. -/
structure Yields (after : Machine) (x : Register) (flag : Int) (balance : Int → Int → Prop) :
    Prop where
  flag : after.number flagRegister = flag
  result : x ≠ flagRegister → balance (after.number flagRegister) (after.number x)

def Computes (before : Machine) (operation : Arithmetic) (x y : Register) (after : Machine) :
    Prop :=
  let a := before.number x
  let b := before.number y
  let s := if before.dialect.shift then a else b
  match operation with
  | .bitOr => before.Combines x (before.register x ||| before.register y) after
  | .bitAnd => before.Combines x (before.register x &&& before.register y) after
  | .bitXor => before.Combines x (before.register x ^^^ before.register y) after
  | .add =>
      after.Yields x (if 255 < a + b then 1 else 0) fun flag result => a + b = 256 * flag + result
  | .subtract =>
      after.Yields x (if b ≤ a then 1 else 0) fun flag result => a - b = result - 256 * (1 - flag)
  | .subtractFrom =>
      after.Yields x (if a ≤ b then 1 else 0) fun flag result => b - a = result - 256 * (1 - flag)
  | .shiftRight => after.Yields x (s % 2) fun flag result => s = 2 * result + flag
  | .shiftLeft => after.Yields x (s / 128) fun flag result => 2 * s = 256 * flag + result

variable {machine : Machine} {x y : Register}

theorem register_setRegister (value : UInt8) : (machine.setRegister x value).register x = value :=
  Vector.getElem_set_self x.isLt

theorem combines_setBitwise (bits : UInt8) :
    machine.Combines x bits (machine.setBitwise x bits) := by
  cases logic : machine.dialect.logic with
  | false =>
      have stored : machine.setBitwise x bits = machine.setRegister x bits := by
        simp only [setBitwise, logic, Bool.false_eq_true, ↓reduceIte]
      rw [stored]
      refine ⟨fun _ => register_setRegister bits, fun set => ?_, fun other _ => ?_⟩
      · cases logic.symm.trans set
      · exact register_setRegister_of_ne (Ne.symm other) bits
  | true =>
      have stored : machine.setBitwise x bits = (machine.setRegister x bits).setFlag false := by
        simp only [setBitwise, logic, ↓reduceIte]
      rw [stored]
      refine ⟨fun other => ?_, fun _ => register_setFlag _ false, fun _ unset => ?_⟩
      · have apart : x ≠ flagRegister := other.resolve_right (by rw [logic]; decide)
        rw [register_setFlag_of_ne apart, register_setRegister]
      · cases logic.symm.trans unset

/-- A flag that is written behind a result is there, whatever became of the result. -/
theorem yields_setFlag {value : UInt8} {flag : Bool} {expected : Int} {balance : Int → Int → Prop}
    (same : (flag.toNat : Int) = expected) (balanced : balance expected value.toNat) :
    ((machine.setRegister x value).setFlag flag).Yields x expected balance := by
  have written : ((machine.setRegister x value).setFlag flag).number flagRegister = expected := by
    rw [number, register_setFlag, ← same]
    cases flag with
    | false => rfl
    | true => rfl
  refine ⟨written, fun apart => ?_⟩
  rw [written, number, register_setFlag_of_ne apart, register_setRegister]
  exact balanced

theorem toNat_decide {held expected : Prop} [Decidable held] [Decidable expected]
    (same : held ↔ expected) : ((decide held).toNat : Int) = if expected then 1 else 0 := by
  by_cases holds : expected
  · rw [if_pos holds, decide_eq_true (same.mpr holds)]
    rfl
  · rw [if_neg holds, decide_eq_false (mt same.mp holds)]
    rfl

theorem yields_setDifference (value less : UInt8) :
    (machine.setDifference x value less).Yields x
      (if (less.toNat : Int) ≤ value.toNat then 1 else 0)
      fun flag result => (value.toNat : Int) - less.toNat = result - 256 * (1 - flag) := by
  apply yields_setFlag
  · apply toNat_decide
    rw [UInt8.le_iff_toNat_le, Int.ofNat_le]
  · exact Byte.sub_eq value less

theorem number_shifted :
    (if machine.dialect.shift then machine.number x else machine.number y) =
      (machine.shifted x y).toNat := by
  unfold shifted
  split
  · rfl
  · rfl

theorem computes_execute (machine : Machine) (operation : Arithmetic) (x y : Register) :
    ∃ next, machine.execute (operation.instruction x y) = .ok (next, []) ∧
      machine.Computes operation x y next := by
  cases operation with
  | bitOr | bitAnd | bitXor => exact ⟨_, rfl, combines_setBitwise _⟩
  | subtract | subtractFrom => exact ⟨_, rfl, yields_setDifference _ _⟩
  | add =>
      refine ⟨_, rfl, ?_⟩
      apply yields_setFlag
      · apply toNat_decide
        simp only [number]
        omega
      · exact Byte.add_eq (machine.register x) (machine.register y)
  | shiftRight =>
      refine ⟨_, rfl, ?_⟩
      simp only [Computes, number_shifted]
      apply yields_setFlag
      · rw [Byte.toNat_masked _ 1 0 rfl]
        omega
      · rw [Byte.toNat_shiftRight_one]
        omega
  | shiftLeft =>
      have bound := (machine.shifted x y).toNat_lt
      refine ⟨_, rfl, ?_⟩
      simp only [Computes, number_shifted]
      apply yields_setFlag
      · rw [Byte.toNat_masked _ 128 7 rfl]
        omega
      · rw [Byte.toNat_shiftLeft_one]
        omega

theorem cycle_of_execute {instruction : Instruction} {next : Machine} {told : List Signal}
    (met : machine.fetch = .ok (instruction.word : Int))
    (executed : (machine.fetched instruction.word).execute instruction = .ok (next, told)) :
    machine.cycle.answer = .ok () ∧
      machine.cycle.state = { next with processor.cycles := next.processor.cycles + 1 } := by
  have decoded : Instruction.decode? (instruction.word : Int) = some instruction :=
    (Instruction.decode?_eq_some_iff instruction.word_lt).mpr rfl
  have opcode : (machine.fetched instruction.word).processor.opcode = instruction.word := rfl
  rw [answer_cycle met, state_cycle met, perform, opcode]
  simp only [decoded, executed]
  exact ⟨trivial, rfl⟩

/-- Both registers are read before either is written, so the numbers come out the same whether the
registers differ or not, and whether the operation is executed by itself or fetched by a cycle. -/
theorem computes_of_operation (machine : Machine) (operation : Arithmetic) (x y : Register) :
    (∃ next, machine.execute (operation.instruction x y) = .ok (next, []) ∧
      machine.Computes operation x y next) ∧
    (machine.fetch = .ok ((operation.instruction x y).word : Int) →
      machine.cycle.answer = .ok () ∧ machine.Computes operation x y machine.cycle.state) := by
  refine ⟨computes_execute machine operation x y, fun met => ?_⟩
  obtain ⟨next, executed, computed⟩ :=
    computes_execute (machine.fetched (operation.instruction x y).word) operation x y
  obtain ⟨completed, state⟩ := cycle_of_execute met executed
  rw [state]
  refine ⟨completed, ?_⟩
  -- Fetching and counting the cycle touch no register, so every part carries over as it is.
  cases operation with
  | bitOr | bitAnd | bitXor =>
      obtain ⟨result, cleared, kept⟩ := computed
      exact ⟨result, cleared, kept⟩
  | add | subtract | subtractFrom | shiftRight | shiftLeft =>
      obtain ⟨flag, result⟩ := computed
      exact ⟨flag, result⟩

/-- A machine about to take a larger number from the flag register. -/
def borrower : Machine :=
  (assemble {} (.scripted [] 0) false).1.after
    [.loadRom [0x60, 0x09, 0x6f, 0x05, 0x8f, 0x05], .cycle, .cycle]

theorem computes_of_operation_borrower :
    borrower.fetch = .ok ((Arithmetic.subtract.instruction flagRegister 0).word : Int) ∧
    borrower.cycle.answer = .ok () ∧
    borrower.Computes .subtract flagRegister 0 borrower.cycle.state := by
  have wellFormed : borrower.WellFormed := (Reachable.after (.assembled _ _ _) _).wellFormed
  have word : borrower.nextWord = (Arithmetic.subtract.instruction flagRegister 0).word := by
    decide +kernel
  have met := wellFormed.fetch_eq
  rw [word] at met
  exact ⟨met, (computes_of_operation borrower .subtract flagRegister 0).2 met⟩

end Machine

end Chip8
