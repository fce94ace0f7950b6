import Chip8.Instruction.Decode

/-!
# Words and instructions

A word of 16 bits stands for an instruction exactly when it is the word in
which that instruction is stored. So a word that decodes to nothing is the
word of no instruction at all.
-/

set_option autoImplicit false

namespace Chip8.Instruction

private theorem addressWord_eq_iff {leading word : Nat} {address : Address} :
    addressWord leading address = word ↔ word / 4096 = leading ∧ lastAddress word = address := by
  simp only [addressWord, lastAddress, Fin.ext_iff]
  omega

private theorem byteWord_eq_iff {leading word : Nat} {x : Register} {byte : UInt8} :
    byteWord leading x byte = word ↔
      word / 4096 = leading ∧ lastDigit (word / 256) = x ∧ UInt8.ofNat word = byte := by
  have := byte.toNat_lt
  simp only [byteWord, lastDigit, Fin.ext_iff, ← UInt8.toNat_inj, UInt8.toNat_ofNat']
  omega

private theorem pairWord_eq_iff {leading word last : Nat} {x y : Register} (digit : last < 16) :
    pairWord leading x y last = word ↔
      word / 4096 = leading ∧ lastDigit (word / 256) = x ∧ lastDigit (word / 16) = y ∧
        word % 16 = last := by
  simp only [pairWord, lastDigit, Fin.ext_iff]
  omega

theorem word_lt (instruction : Instruction) : instruction.word < 65536 := by
  cases instruction
  all_goals
    simp only [word, addressWord, byteWord, pairWord]
    grind [UInt8.toNat_lt]

private theorem toNat_emod_of_lt {word : Nat} (bound : word < 65536) :
    ((word : Int) % 65536).toNat = word := by
  omega

private theorem decode?_of_word {instruction : Instruction} {word : Nat}
    (encoded : instruction.word = word) : decode? word = some instruction := by
  have low := toNat_emod_of_lt (encoded ▸ instruction.word_lt)
  cases instruction with
  | clearScreen | ret =>
      cases encoded
      rfl
  | jump | call | loadIndex | jumpOffset =>
      obtain ⟨lead, address⟩ := addressWord_eq_iff.mp encoded
      simp only [decode?, low, lead, address]
  | skipIfSame | skipUnlessSame | copy | bitOr | bitAnd | bitXor | add | subtract | shiftRight
  | subtractFrom | shiftLeft =>
      obtain ⟨lead, first, second, last⟩ := (pairWord_eq_iff (by omega)).mp encoded
      simp only [decode?, low, lead, first, second, last, ↓reduceIte]
  | draw =>
      obtain ⟨lead, first, second, last⟩ := (pairWord_eq_iff (by omega)).mp encoded
      simp only [decode?, low, lead, first, second, Fin.ext (a := lastDigit word) last]
  | skipIfByte | skipUnlessByte | loadByte | addByte | random | skipIfDown | skipIfUp | readDelay
  | awaitKey | setDelay | setSound | addIndex | pointGlyph | storeDecimal | storeBlock
  | loadBlock =>
      obtain ⟨lead, first, byte⟩ := byteWord_eq_iff.mp encoded
      simp only [decode?, low, lead, first, byte]

-- The split follows the leading digits in their order.
private theorem word_of_decode? {instruction : Instruction} {word : Nat} (bound : word < 65536)
    (decoded : decode? word = some instruction) : instruction.word = word := by
  simp only [decode?, toNat_emod_of_lt bound] at decoded
  split at decoded
  case h_1 =>
    split at decoded
    case isTrue exactly =>
      cases decoded
      exact (Int.ofNat_inj.mp exactly).symm
    case isFalse =>
      split at decoded
      case isTrue exactly =>
        cases decoded
        exact (Int.ofNat_inj.mp exactly).symm
      case isFalse => cases decoded
  case h_2 lead | h_3 lead | h_11 lead | h_12 lead =>
    cases decoded
    exact addressWord_eq_iff.mpr ⟨lead, rfl⟩
  case h_4 lead | h_5 lead | h_7 lead | h_8 lead | h_13 lead =>
    cases decoded
    exact byteWord_eq_iff.mpr ⟨lead, rfl, rfl⟩
  case h_6 lead | h_10 lead =>
    split at decoded
    case isTrue last =>
      cases decoded
      exact (pairWord_eq_iff (by omega)).mpr ⟨lead, rfl, rfl, last⟩
    case isFalse => cases decoded
  case h_9 lead =>
    split at decoded <;> cases decoded
    all_goals exact (pairWord_eq_iff (by omega)).mpr ⟨lead, rfl, rfl, by assumption⟩
  case h_14 lead =>
    cases decoded
    exact (pairWord_eq_iff (Fin.isLt _)).mpr ⟨lead, rfl, rfl, rfl⟩
  case h_15 lead | h_16 lead =>
    split at decoded <;> cases decoded
    all_goals exact byteWord_eq_iff.mpr ⟨lead, rfl, by assumption⟩
  case h_17 => cases decoded

theorem decode?_eq_some_iff {instruction : Instruction} {word : Nat} (bound : word < 65536) :
    decode? word = some instruction ↔ instruction.word = word :=
  ⟨word_of_decode? bound, decode?_of_word⟩

theorem word_injective {first second : Instruction} (same : first.word = second.word) :
    first = second := by
  have decoded := decode?_of_word same
  rw [decode?_of_word rfl] at decoded
  exact (Option.some.inj decoded).symm

theorem decode?_eq_none_iff {word : Nat} (bound : word < 65536) :
    decode? word = none ↔ ∀ instruction : Instruction, instruction.word ≠ word := by
  simp only [Option.eq_none_iff_forall_ne_some, ne_eq, decode?_eq_some_iff bound]

end Chip8.Instruction
