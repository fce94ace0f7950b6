import Chip8.Proofs.Machine.Reachable
import Chip8.Proofs.Text.Hex

/-!
# Readouts told from their texts

Each value in the short form has a blank behind it that is not its own, but for the registers: they
stand side by side, and only two places for each of them tell them apart. The wording of the
instruction may be any text. It ends where the last line begins, which is the line on the stack.
-/

set_option autoImplicit false

namespace Chip8

namespace Text

/-- A text is cut in front of a mark that its first part does not hold. -/
theorem cut_first {mark : Char} {word word' rest rest' : List Char} (absent : mark ∉ word)
    (absent' : mark ∉ word') (same : word ++ mark :: rest = word' ++ mark :: rest') :
    word = word' ∧ rest = rest' := by
  induction word generalizing word' with
  | nil =>
      cases word' with
      | nil => exact ⟨rfl, (List.cons.inj same).2⟩
      | cons c word' => exact absurd ((List.cons.inj same).1 ▸ List.mem_cons_self) absent'
  | cons c word ih =>
      obtain ⟨first, others⟩ := List.ne_and_not_mem_of_not_mem_cons absent
      cases word' with
      | nil => exact absurd (List.cons.inj same).1.symm first
      | cons d word' =>
          obtain ⟨head, tail⟩ := List.cons.inj same
          obtain ⟨words, rests⟩ := ih others (List.not_mem_of_not_mem_cons absent') tail
          exact ⟨List.cons_eq_cons.mpr ⟨head, words⟩, rests⟩

theorem cut_last {mark : Char} {text text' line line' : List Char} (absent : mark ∉ line)
    (absent' : mark ∉ line') (same : text ++ mark :: line = text' ++ mark :: line') :
    text = text' ∧ line = line' := by
  have reversed := congrArg List.reverse same
  simp only [List.reverse_append, List.reverse_cons, List.append_assoc, List.cons_append,
    List.nil_append] at reversed
  obtain ⟨lines, texts⟩ :=
    cut_first (mt List.mem_reverse.mp absent) (mt List.mem_reverse.mp absent') reversed
  exact ⟨List.reverse_inj.mp texts, List.reverse_inj.mp lines⟩

/-- A label that begins with a blank ends the value that stands before it. -/
theorem cut_label {label value value' rest rest' : List Char} (absent : ' ' ∉ value)
    (absent' : ' ' ∉ value') (same : value ++ (label ++ rest) = value' ++ (label ++ rest'))
    (starts : label.head? = some ' ') : value = value' ∧ rest = rest' := by
  cases label with
  | nil => cases starts
  | cons c label =>
      cases starts
      obtain ⟨values, rests⟩ := cut_first absent absent' same
      exact ⟨values, List.append_cancel_left rests⟩

theorem cut_label_last {mark : Char} {label text text' value value' : List Char}
    (absent : mark ∉ value) (absent' : mark ∉ value')
    (same : text ++ label ++ value = text' ++ label ++ value')
    (ends : label.getLast? = some mark) : text = text' ∧ value = value' := by
  obtain ⟨front, rfl⟩ := List.getLast?_eq_some_iff.mp ends
  have marked : text ++ front ++ mark :: value = text' ++ front ++ mark :: value' := by
    simpa only [List.append_assoc, List.singleton_append] using same
  obtain ⟨texts, values⟩ := cut_last absent absent' marked
  exact ⟨List.append_cancel_right texts, values⟩

/-- Words with a blank in front of each are told from the text they make. -/
theorem spaced_inj {words words' : List (List Char)} (solid : ∀ word ∈ words, ' ' ∉ word)
    (solid' : ∀ word ∈ words', ' ' ∉ word)
    (same : words.flatMap (' ' :: ·) = words'.flatMap (' ' :: ·)) : words = words' := by
  have joined (word : List Char) (words : List (List Char)) :
      [' '].intercalate (word :: words) = word ++ words.flatMap (' ' :: ·) := by
    induction words generalizing word with
    | nil => simp
    | cons next words ih => simp [List.intercalate_cons_cons, ih]
  have split {words : List (List Char)} (solid : ∀ word ∈ words, ' ' ∉ word) :
      (words.flatMap (' ' :: ·)).splitOn ' ' = [] :: words := by
    have solids : ∀ word ∈ [] :: words, ' ' ∉ word :=
      List.forall_mem_cons.mpr ⟨List.not_mem_nil, solid⟩
    have parts := List.splitOn_intercalate ' ' solids (List.cons_ne_nil _ _)
    rwa [joined, List.nil_append] at parts
  have parts := congrArg (List.splitOn ' ') same
  rw [split solid, split solid'] at parts
  exact (List.cons.inj parts).2

theorem notMem_decimal {value : Int} {c : Char} (minus : c ≠ '-') (other : c.isDigit = false) :
    c ∉ (toString value).toList := by
  have notDigits {number : Nat} : c ∉ number.repr.toList := by
    intro member
    rw [Nat.toList_repr] at member
    have digit := Nat.isDigit_of_mem_toDigits (by decide) (by decide) member
    rw [other] at digit
    cases digit
  intro member
  rw [Int.toString_eq_repr, Int.repr_eq_if] at member
  split at member
  · exact notDigits member
  · rw [String.toList_append, List.mem_append] at member
    exact member.elim (fun sign => minus (by simpa using sign)) notDigits

end Text

namespace Readout

/-- What holds of every readout of a machine. -/
structure WellFormed (readout : Readout) : Prop where
  registers : ∀ value ∈ readout.registers, IsByte value
  depth : readout.depth = readout.stack.length

theorem wellFormed_of_machine (machine : Machine) : machine.readout.WellFormed where
  registers := by
    intro value member
    obtain ⟨byte, -, rfl⟩ := Vector.mem_map.mp member
    exact isByte_toNat byte
  depth := by simp [Machine.readout, CallStack.depth, CallStack.toList]

theorem flatMap_registers_inj {values values' : List Int} (sizes : values.length = values'.length)
    (bytes : ∀ value ∈ values, IsByte value) (bytes' : ∀ value ∈ values', IsByte value)
    (same : values.flatMap (Text.hexChars 2) = values'.flatMap (Text.hexChars 2)) :
    values = values' := by
  have places {values : List Int} (bytes : ∀ value ∈ values, IsByte value) :
      (values.map (Text.hexChars 2)).map List.length = List.replicate values.length 2 := by
    rw [List.map_map, ← List.map_const']
    refine List.map_congr_left fun value member => ?_
    have isByte := bytes value member
    obtain ⟨number, rfl⟩ := Int.eq_ofNat_of_zero_le isByte.1
    have above := isByte.2
    have small : number < 256 := by omega
    exact Text.length_hexChars (by decide) small
  -- Nothing stands between the values, so the places of each are what cuts the text.
  rw [List.flatMap_def, List.flatMap_def] at same
  have each := List.eq_iff_flatten_eq.mpr ⟨same, by rw [places bytes, places bytes', sizes]⟩
  exact (List.map_inj_right fun _ _ equal => Text.hexChars_injective 2 equal).mp each

def stackWords : List Int → List (List Char)
  | [] => ["(Empty)".toList]
  | stack => stack.map fun address => "0x".toList ++ Text.hexChars 3 address

theorem stackChars_cons (address : Int) (stack : List Int) :
    stackChars (address :: stack) =
      (address :: stack).flatMap fun address => " 0x".toList ++ Text.hexChars 3 address :=
  rfl

theorem stackWords_cons (address : Int) (stack : List Int) :
    stackWords (address :: stack) =
      (address :: stack).map fun address => "0x".toList ++ Text.hexChars 3 address :=
  rfl

theorem stackChars_eq (stack : List Int) :
    stackChars stack = (stackWords stack).flatMap (' ' :: ·) := by
  have entry (address : Int) : " 0x".toList ++ Text.hexChars 3 address =
      ' ' :: ("0x".toList ++ Text.hexChars 3 address) := rfl
  cases stack with
  | nil => rfl
  | cons address stack => simp only [stackChars_cons, stackWords_cons, entry, List.flatMap_map]

theorem mem_stackWords {stack : List Int} {word : List Char} (member : word ∈ stackWords stack) :
    word = "(Empty)".toList ∨ ∃ address, word = "0x".toList ++ Text.hexChars 3 address := by
  cases stack with
  | nil => exact .inl (List.mem_singleton.mp member)
  | cons address stack =>
      obtain ⟨address, -, made⟩ := List.mem_map.mp member
      exact .inr ⟨address, made.symm⟩

theorem notMem_of_mem_stackWords {stack : List Int} :
    ∀ word ∈ stackWords stack, ' ' ∉ word ∧ '\n' ∉ word := by
  intro word member
  obtain rfl | ⟨address, rfl⟩ := mem_stackWords member
  · decide
  · have blank : ' ' ∉ Text.hexChars 3 address := Text.notMem_hexChars (by decide) rfl
    have newline : '\n' ∉ Text.hexChars 3 address := Text.notMem_hexChars (by decide) rfl
    simp only [List.mem_append, blank, newline]
    decide

theorem stackWords_injective : Function.Injective stackWords := by
  have held (address : Int) (stack : List Int) :
      "(Empty)".toList ∉ stackWords (address :: stack) := by
    intro member
    obtain ⟨address, -, made⟩ := List.mem_map.mp member
    exact absurd (List.cons.inj made).1 (by decide)
  have alone : "(Empty)".toList ∈ stackWords [] := List.mem_singleton.mpr rfl
  intro first second same
  cases first with
  | nil =>
      cases second with
      | nil => rfl
      | cons address second => exact absurd (same ▸ alone) (held address second)
  | cons address first =>
      cases second with
      | nil => exact absurd (same ▸ alone) (held address first)
      | cons address' second =>
          rw [stackWords_cons, stackWords_cons] at same
          refine (List.map_inj_right ?_).mp same
          intro address address' equal
          exact Text.hexChars_injective 3 (List.append_cancel_left equal)

theorem stackChars_injective : Function.Injective stackChars := by
  intro first second same
  rw [stackChars_eq, stackChars_eq] at same
  have solid {stack : List Int} : ∀ word ∈ stackWords stack, ' ' ∉ word :=
    fun word member => (notMem_of_mem_stackWords word member).1
  exact stackWords_injective (Text.spaced_inj solid solid same)

theorem newline_notMem_stackChars {stack : List Int} : '\n' ∉ stackChars stack := by
  rw [stackChars_eq, List.mem_flatMap]
  rintro ⟨word, listed, member⟩
  rcases List.mem_cons.mp member with blank | inside
  · exact absurd blank (by decide)
  · exact (notMem_of_mem_stackWords word listed).2 inside

theorem shortChars_inj {first second : Readout} {address address' : Int}
    {instruction instruction' : List Char} (firstBytes : ∀ value ∈ first.registers, IsByte value)
    (secondBytes : ∀ value ∈ second.registers, IsByte value)
    (same : first.shortChars address instruction = second.shortChars address' instruction') :
    first.registers = second.registers ∧ first.index = second.index ∧
      first.delay = second.delay ∧ first.sound = second.sound ∧ address = address' ∧
      first.opcode = second.opcode ∧ instruction = instruction' := by
  have blank {width : Nat} {value : Int} : ' ' ∉ Text.hexChars width value :=
    Text.notMem_hexChars (by decide) rfl
  have solid {values : List Int} : ' ' ∉ values.flatMap (Text.hexChars 2) := by
    intro member
    obtain ⟨value, -, inside⟩ := List.mem_flatMap.mp member
    exact blank inside
  unfold shortChars at same
  simp only [List.append_assoc] at same
  -- Each value ends where the label of the next one begins; the wording is what is left.
  have same := List.append_cancel_left same
  obtain ⟨registers, same⟩ := Text.cut_label solid solid same rfl
  obtain ⟨index, same⟩ := Text.cut_label blank blank same rfl
  obtain ⟨delay, same⟩ := Text.cut_label blank blank same rfl
  obtain ⟨sound, same⟩ := Text.cut_label blank blank same rfl
  obtain ⟨counter, same⟩ := Text.cut_label blank blank same rfl
  obtain ⟨opcode, wording⟩ := Text.cut_label blank blank same rfl
  have values := flatMap_registers_inj (by simp) (by simpa using firstBytes)
    (by simpa using secondBytes) registers
  refine ⟨Vector.toList_inj.mp (List.reverse_inj.mp values), ?_⟩
  exact ⟨Text.hexChars_injective 3 index, Text.hexChars_injective 2 delay,
    Text.hexChars_injective 2 sound, Text.hexChars_injective 3 counter,
    Text.hexChars_injective 4 opcode, wording⟩

def stackLine (readout : Readout) : List Char :=
  "SP: ".toList ++ ((toString readout.depth).toList ++
    (" Stack:".toList ++ stackChars readout.stack))

theorem fullChars_eq (readout : Readout) (address : Int) (instruction : List Char) :
    readout.fullChars address instruction =
      readout.shortChars address instruction ++ '\n' :: readout.stackLine := by
  unfold fullChars stackLine
  simp only [List.append_assoc]
  rfl

theorem newline_notMem_stackLine {readout : Readout} : '\n' ∉ readout.stackLine := by
  have decimal : '\n' ∉ (toString readout.depth).toList :=
    Text.notMem_decimal (by decide) (by decide)
  simp only [stackLine, List.mem_append, decimal, newline_notMem_stackChars, or_false, false_or]
  decide

theorem stack_of_stackLine {first second : Readout} (same : first.stackLine = second.stackLine) :
    first.stack = second.stack := by
  have solid {value : Int} : ' ' ∉ (toString value).toList :=
    Text.notMem_decimal (by decide) (by decide)
  obtain ⟨-, addresses⟩ := Text.cut_label solid solid (List.append_cancel_left same) rfl
  exact stackChars_injective addresses

theorem fullChars_inj {first second : Readout} {address address' : Int}
    {instruction instruction' : List Char} (wellFormed : first.WellFormed)
    (wellFormed' : second.WellFormed)
    (same : first.fullChars address instruction = second.fullChars address' instruction') :
    first = second ∧ address = address' ∧ instruction = instruction' := by
  rw [fullChars_eq, fullChars_eq] at same
  obtain ⟨shorts, lines⟩ := Text.cut_last newline_notMem_stackLine newline_notMem_stackLine same
  obtain ⟨registers, index, delay, sound, addresses, opcode, wordings⟩ :=
    shortChars_inj wellFormed.registers wellFormed'.registers shorts
  have stack := stack_of_stackLine lines
  have depth : first.depth = second.depth := by rw [wellFormed.depth, wellFormed'.depth, stack]
  refine ⟨?_, addresses, wordings⟩
  cases first
  cases second
  simp only [Readout.mk.injEq]
  exact ⟨registers, index, delay, sound, opcode, depth, stack⟩

/-- Well-formed readouts have the same full form only if they are the same and were given the same
address and wording. The address and the values beside the registers may be any integers, and the
wording may have several lines. -/
theorem eq_of_full_eq {first second : Readout} {address address' : Int}
    {instruction instruction' : String} (wellFormed : first.WellFormed)
    (wellFormed' : second.WellFormed)
    (same : first.full address instruction = second.full address' instruction') :
    first = second ∧ address = address' ∧ instruction = instruction' := by
  have texts := congrArg String.toList same
  rw [toList_full, toList_full] at texts
  obtain ⟨readouts, addresses, wordings⟩ := fullChars_inj wellFormed wellFormed' texts
  exact ⟨readouts, addresses, String.toList_inj.mp wordings⟩

/-- A machine that met a word without an instruction inside a call. -/
def stranded : Machine :=
  (Machine.assemble {} (.scripted [] 0) false).1.after
    [.loadRom [0x6a, 0xbc, 0xa1, 0x23, 0x22, 0x08, 0x00, 0x00, 0xff, 0xff], .cycle, .cycle, .cycle,
      .cycle]

def strandedReadout : Readout where
  registers := (Vector.replicate 16 0).set 0xa 0xbc
  index := 0x123
  delay := 0
  sound := 0
  opcode := 0xffff
  depth := 1
  stack := [0x206]

theorem eq_of_full_eq_stranded :
    stranded.readout.full stranded.processor.origin "???" = strandedReadout.full 0x208 "???" ∧
      stranded.readout = strandedReadout ∧ stranded.processor.origin = 0x208 := by
  have registers : ∀ value ∈ strandedReadout.registers, 0 ≤ value ∧ value ≤ 255 := by decide
  have same : stranded.readout.full stranded.processor.origin "???" =
      strandedReadout.full 0x208 "???" := by decide +kernel
  obtain ⟨readouts, addresses, -⟩ :=
    eq_of_full_eq (wellFormed_of_machine stranded) ⟨registers, rfl⟩ same
  exact ⟨same, readouts, addresses⟩

end Readout

/-- The report on a word that is no instruction tells where it was met and all that the readout
shows. -/
theorem Fault.eq_of_report_eq {first second : Readout} {address address' : Int}
    (wellFormed : first.WellFormed) (wellFormed' : second.WellFormed)
    (same : invalidOpcodeReport first address = invalidOpcodeReport second address') :
    first = second ∧ address = address' := by
  have plain {width : Nat} {value : Int} : 'x' ∉ Text.hexChars width value :=
    Text.notMem_hexChars (by decide) rfl
  have texts := congrArg String.toList same
  unfold invalidOpcodeReport at texts
  simp only [String.toList_append, Text.toList_hex] at texts
  -- Read from the end, for what is shown in front may hold any character.
  have texts := List.append_cancel_right texts
  obtain ⟨texts, -⟩ := Text.cut_label_last plain plain texts rfl
  obtain ⟨texts, -⟩ := Text.cut_label_last plain plain texts rfl
  have forms := List.append_cancel_left texts
  rw [Readout.toList_full, Readout.toList_full] at forms
  obtain ⟨readouts, addresses, -⟩ := Readout.fullChars_inj wellFormed wellFormed' forms
  exact ⟨readouts, addresses⟩

end Chip8
