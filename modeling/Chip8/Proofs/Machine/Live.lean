import Chip8.Proofs.Machine.Effects
import Chip8.Proofs.Readout

/-!
# Live debugging

A machine that prints its instructions and one that does not go through the
same states, and tell their hosts the same but for the lines. Every cycle that
fetches the word of an instruction prints one line on the machine as the cycle
found it, also when the instruction is then refused. Nothing else prints.

A line is told apart from every other one by what it shows: two machines that print the same line
had the same registers, index and timers, and were about to carry out the same number at the same
address.
-/

set_option autoImplicit false

namespace Chip8

def Signal.isLine : Signal → Bool
  | line _ => true
  | resolution .. | pixel .. | refresh _ | rates .. | beep _ | buzzer _ => false

def Machine.quieted (machine : Machine) : Machine := { machine with live := false }

def Outcome.quieted (outcome : Outcome Machine Unit) : Outcome Machine Unit where
  state := outcome.state.quieted
  signals := outcome.signals.filter (!·.isLine)
  answer := outcome.answer

theorem Signal.isLine_of_isEffect {signal : Signal} (effect : signal.isEffect = true) :
    signal.isLine = false := by
  cases signal with
  | pixel | beep | buzzer => rfl
  | resolution | refresh | rates | line => cases effect

section

variable {told : List Signal}

theorem Signal.filter_of_lineless (lineless : ∀ signal ∈ told, signal.isLine = false) :
    told.filter (!·.isLine) = told := by
  rw [List.filter_eq_self]
  intro signal member
  rw [lineless signal member]
  rfl

theorem Signal.lines_of_lineless (lineless : ∀ signal ∈ told, signal.isLine = false) :
    told.filter Signal.isLine = [] := by
  rw [List.filter_eq_nil_iff]
  intro signal member
  rw [lineless signal member]
  nofun

end

namespace Machine

variable {machine next : Machine} {instruction : Instruction} {told : List Signal}

theorem isLine_execute (executed : machine.execute instruction = .ok (next, told)) :
    ∀ signal ∈ told, signal.isLine = false :=
  fun signal member => signal.isLine_of_isEffect (isEffect_execute executed signal member)

theorem execute_quieted (machine : Machine) (instruction : Instruction) :
    machine.quieted.execute instruction =
      (machine.execute instruction).map fun ran => (ran.1.quieted, ran.2) := by
  let context : Context := { machine.context with live := false }
  have agrees : instruction.Agrees machine context := by
    have same := machine.agrees_context instruction
    cases instruction with
    | _ => exact same
  have quiet : machine.quieted = machine.under context := rfl
  rw [quiet, execute_under machine context agrees]
  cases executed : machine.execute instruction with
  | error cause => rfl
  | ok ran =>
      obtain ⟨next, told⟩ := ran
      have kept := context_execute executed
      have after : context.after machine instruction = { next.context with live := false } := by
        rw [kept]
        cases instruction with
        | _ => rfl
      simp only [Except.map, after]
      rfl

theorem isLine_liveLines (machine : Machine) (instruction : Instruction) :
    ∀ signal ∈ machine.liveLines instruction, signal.isLine = true := by
  intro signal member
  obtain ⟨_, rfl⟩ := machine.line_of_liveLines instruction signal member
  rfl

theorem perform_quieted (machine : Machine) :
    machine.quieted.perform = machine.perform.quieted := by
  have opcode : machine.quieted.processor.opcode = machine.processor.opcode := rfl
  unfold perform
  rw [opcode]
  cases Instruction.decode? machine.processor.opcode with
  | none => rfl
  | some instruction =>
      have dropped : (machine.liveLines instruction).filter (!·.isLine) = [] := by
        rw [List.filter_eq_nil_iff]
        intro signal member
        simp [machine.isLine_liveLines instruction signal member]
      simp only [execute_quieted]
      cases executed : machine.execute instruction with
      | error cause =>
          simp only [Except.map, Outcome.quieted, dropped]
          rfl
      | ok ran =>
          obtain ⟨next, told⟩ := ran
          simp only [Except.map, Outcome.quieted, List.filter_append, dropped,
            Signal.filter_of_lineless (isLine_execute executed)]
          rfl

theorem cycle_quieted (machine : Machine) : machine.quieted.cycle = machine.cycle.quieted := by
  have fetch : machine.quieted.fetch = machine.fetch := rfl
  unfold cycle
  rw [fetch]
  cases machine.fetch with
  | error cause => rfl
  | ok opcode =>
      have same : machine.quieted.fetched opcode = (machine.fetched opcode).quieted := rfl
      simp only [same, perform_quieted]
      generalize (machine.fetched opcode).perform = performed
      obtain ⟨state, signals, answer⟩ := performed
      cases answer with
      | error cause => rfl
      | ok _ => rfl

theorem isLine_operate {operation : Operation} (other : operation ≠ .cycle) :
    ∀ signal ∈ (machine.operate operation).signals, signal.isLine = false :=
  fun signal member => signal.isLine_of_isEffect (isEffect_operate other signal member)

/-- Without live debugging an operation does the same and tells the same but for the lines. -/
theorem operate_quieted (machine : Machine) (operation : Operation) :
    machine.quieted.operate operation = (machine.operate operation).quieted := by
  by_cases cycle : operation = .cycle
  · rw [cycle]
    exact machine.cycle_quieted
  · rw [Outcome.quieted, Signal.filter_of_lineless (isLine_operate cycle)]
    cases operation with
    | cycle => exact absurd rfl cycle
    | reset | tick | setDialect => rfl
    | loadRom rom =>
        have fresh : machine.quieted.reset = (machine.reset.1.quieted, machine.reset.2) := rfl
        have memory : machine.reset.1.quieted.memory = machine.reset.1.memory := rfl
        simp only [operate, loadRom, fresh, memory]
        cases machine.reset.1.memory.loadRom rom programStart with
        | error cause => rfl
        | ok loaded => rfl
    | setKey number pressed =>
        have keypad : machine.quieted.keypad = machine.keypad := rfl
        simp only [operate, setKey, keypad]
        cases machine.keypad.set number pressed with
        | error cause => rfl
        | ok changed => rfl

theorem after_quieted (machine : Machine) (history : List Operation) :
    machine.quieted.after history = (machine.after history).quieted := by
  induction history generalizing machine with
  | nil => rfl
  | cons operation rest ih =>
      have operated := congrArg Outcome.state (machine.operate_quieted operation)
      simp only [after, List.foldl_cons]
      rw [operated]
      exact ih (machine.operate operation).state

theorem live_operate (machine : Machine) (operation : Operation) :
    (machine.operate operation).state.live = machine.live := by
  cases operation with
  | reset | tick | setDialect => rfl
  | loadRom rom =>
      obtain ⟨_, state, _⟩ := machine.operate_loadRom rom
      rw [state]
      rfl
  | setKey number pressed =>
      obtain ⟨_, state, _⟩ := machine.operate_setKey number pressed
      rw [state]
  | cycle =>
      obtain ⟨_, _, _, _, _, same⟩ := machine.context_cycle
      exact congrArg Context.live same

theorem live_after (machine : Machine) (history : List Operation) :
    (machine.after history).live = machine.live := by
  induction history generalizing machine with
  | nil => rfl
  | cons operation rest ih =>
      have later := ih (machine.operate operation).state
      exact later.trans (machine.live_operate operation)

/-- The line of a cycle shows the machine as it was, with the number that the cycle fetches. -/
def lineOf (machine : Machine) (instruction : Instruction) : Signal :=
  .line ({ machine.readout with opcode := machine.nextWord }.short machine.processor.counter
    (instruction.wording machine.dialect))

theorem lines_cycle (wellFormed : machine.WellFormed) (live : machine.live = true) :
    machine.cycle.signals.filter Signal.isLine =
      ((Instruction.decode? machine.nextWord).map machine.lineOf).toList := by
  have opcode : (machine.fetched machine.nextWord).processor.opcode = machine.nextWord := rfl
  rw [signals_cycle wellFormed.fetch_eq]
  unfold perform
  rw [opcode]
  cases Instruction.decode? machine.nextWord with
  | none => rfl
  | some instruction =>
      have line : (machine.fetched machine.nextWord).liveLines instruction =
          [machine.lineOf instruction] := if_pos live
      simp only [line]
      cases executed : (machine.fetched machine.nextWord).execute instruction with
      | error cause => rfl
      | ok ran =>
          obtain ⟨next, told⟩ := ran
          simp only [List.filter_append, Signal.lines_of_lineless (isLine_execute executed)]
          rfl

/-- Live debugging adds to an operation the line of a cycle that fetches the word of an
instruction, and nothing else. -/
structure Transparent (live quiet : Machine) (operation : Operation) : Prop where
  state : (quiet.operate operation).state = { (live.operate operation).state with live := false }
  answer : (quiet.operate operation).answer = (live.operate operation).answer
  signals : (quiet.operate operation).signals =
    (live.operate operation).signals.filter (!·.isLine)
  line : operation = .cycle → ∀ instruction : Instruction, instruction.word = live.nextWord →
    (live.operate operation).signals.filter Signal.isLine = [live.lineOf instruction]
  noLine : (operation = .cycle → ∀ instruction : Instruction, instruction.word ≠ live.nextWord) →
    (live.operate operation).signals.filter Signal.isLine = []

theorem transparent_quieted (wellFormed : machine.WellFormed) (live : machine.live = true)
    (operation : Operation) : Transparent machine machine.quieted operation where
  state := by
    rw [operate_quieted]
    rfl
  answer := by
    rw [operate_quieted]
    rfl
  signals := by
    rw [operate_quieted]
    rfl
  line := by
    intro cycle instruction word
    have decoded := (Instruction.decode?_eq_some_iff machine.nextWord_lt).mpr word
    have lines := lines_cycle wellFormed live
    rw [decoded] at lines
    rw [cycle]
    exact lines
  noLine := by
    intro unknown
    by_cases cycle : operation = .cycle
    · have decoded := (Instruction.decode?_eq_none_iff machine.nextWord_lt).mpr (unknown cycle)
      have lines := lines_cycle wellFormed live
      rw [decoded] at lines
      rw [cycle]
      exact lines
    · exact Signal.lines_of_lineless (isLine_operate cycle)

/-- Two machines do not differ in anything that a line shows. -/
structure ShowsSame (first second : Machine) : Prop where
  registers : first.processor.registers = second.processor.registers
  index : first.processor.index = second.processor.index
  delay : first.processor.delay = second.processor.delay
  sound : first.processor.sound = second.processor.sound
  address : first.processor.counter = second.processor.counter
  opcode : first.nextWord = second.nextWord
  wording : ∀ instruction : Instruction, instruction.word = first.nextWord →
    instruction.wording first.dialect = instruction.wording second.dialect

theorem registers_of_readout {first second : Machine}
    (same : first.readout.registers = second.readout.registers) :
    first.processor.registers = second.processor.registers := by
  refine Vector.ext fun place inside => ?_
  have values := congrArg (fun registers : Vector Int 16 => registers[place]) same
  simp only [readout, Vector.getElem_map, Int.natCast_inj] at values
  exact UInt8.toNat_inj.mp values

/-- What is printed in a cycle is the line of the instruction whose word the cycle fetches. -/
theorem line_of_cycle (wellFormed : machine.WellFormed) (live : machine.live = true) {text : String}
    (printed : .line text ∈ machine.cycle.signals) :
    ∃ instruction : Instruction, instruction.word = machine.nextWord ∧
      Signal.line text = machine.lineOf instruction := by
  have member : Signal.line text ∈ machine.cycle.signals.filter Signal.isLine :=
    List.mem_filter.mpr ⟨printed, rfl⟩
  rw [lines_cycle wellFormed live, Option.mem_toList, Option.map_eq_some_iff] at member
  obtain ⟨instruction, decoded, line⟩ := member
  exact ⟨instruction, (Instruction.decode?_eq_some_iff machine.nextWord_lt).mp decoded, line.symm⟩

/-- The line of a cycle tells what the machine held before it. -/
theorem showsSame_of_line {first second : Machine} (wellFormed : first.WellFormed)
    (wellFormed' : second.WellFormed) (live : first.live = true) (live' : second.live = true)
    {text : String} (printed : .line text ∈ first.cycle.signals)
    (printed' : .line text ∈ second.cycle.signals) : ShowsSame first second := by
  obtain ⟨instruction, word, line⟩ := line_of_cycle wellFormed live printed
  obtain ⟨instruction', word', line'⟩ := line_of_cycle wellFormed' live' printed'
  have texts := line.symm.trans line'
  simp only [lineOf, Signal.line.injEq] at texts
  have texts := congrArg String.toList texts
  rw [Readout.toList_short, Readout.toList_short] at texts
  have bytes (machine : Machine) : ∀ value ∈
      ({ machine.readout with opcode := machine.nextWord } : Readout).registers, IsByte value :=
    (Readout.wellFormed_of_machine machine).registers
  obtain ⟨registers, index, delay, sound, address, opcode, wording⟩ :=
    Readout.shortChars_inj (bytes first) (bytes second) texts
  have opcode : first.nextWord = second.nextWord := Int.natCast_inj.mp opcode
  -- Both lines are those of the one instruction that has this word.
  have decoded := (Instruction.decode?_eq_some_iff first.nextWord_lt).mpr word
  have decoded' := (Instruction.decode?_eq_some_iff second.nextWord_lt).mpr word'
  rw [← opcode, decoded] at decoded'
  cases decoded'
  refine ⟨registers_of_readout registers, index, delay, sound, address, opcode, ?_⟩
  intro other alike
  have same := (Instruction.decode?_eq_some_iff first.nextWord_lt).mpr alike
  rw [decoded] at same
  cases same
  exact String.toList_inj.mp wording

/-- A machine with live debugging and one without are put together alike, pass through the same
states, and differ in every operation by the printed lines alone. Whatever machine prints a line
that the live one prints, it showed the same before its cycle. -/
theorem live_transparent (dialect : Dialect) (random : RandomSource) (history : List Operation) :
    let live := (assemble dialect random true).1.after history
    let quiet := (assemble dialect random false).1.after history
    (assemble dialect random false).2 = (assemble dialect random true).2 ∧
      quiet = { live with live := false } ∧
      (∀ operation, Transparent live quiet operation) ∧
      ∀ (dialect' : Dialect) (random' : RandomSource) (history' : List Operation) (text : String),
        let other := (assemble dialect' random' true).1.after history'
        .line text ∈ live.cycle.signals → .line text ∈ other.cycle.signals →
        ShowsSame live other := by
  intro live quiet
  have same : quiet = live.quieted := (assemble dialect random true).1.after_quieted history
  have wellFormed := wellFormed_after dialect random true history
  have prints : live.live = true := (assemble dialect random true).1.live_after history
  refine ⟨rfl, same, ?_, ?_⟩
  · intro operation
    rw [same]
    exact transparent_quieted wellFormed prints operation
  · intro dialect' random' history' text other printed printed'
    exact showsSame_of_line wellFormed (wellFormed_after dialect' random' true history') prints
      ((assemble dialect' random' true).1.live_after history') printed printed'

/-- A program that adds to a register and goes back. -/
def counting : List UInt8 := [0x7a, 0x17, 0x12, 0x00]

/-- One machine has run the program before and has a key down, and its line is the same. -/
theorem live_transparent_counting :
    let live := (assemble {} (.scripted [] 0) true).1.after [.loadRom counting, .cycle]
    let other := (assemble {} (.scripted [7] 0) true).1.after
      [.loadRom counting, .cycle, .cycle, .loadRom counting, .setKey 3 true, .cycle]
    let text := "V: 0x00000000001700000000000000000000 I: 0x000 DT: 0x00 ST: 0x00 PC: 0x202 " ++
      "OP: 0x1200 IN: JP 0x200"
    .line text ∈ live.cycle.signals ∧ .line text ∈ other.cycle.signals ∧ ShowsSame live other := by
  intro live other text
  have printed : Signal.line text ∈ live.cycle.signals := by decide +kernel
  have printed' : Signal.line text ∈ other.cycle.signals := by decide +kernel
  obtain ⟨_, _, _, shows⟩ := live_transparent {} (.scripted [] 0) [.loadRom counting, .cycle]
  exact ⟨printed, printed', shows _ _ _ text printed printed'⟩

end Machine

end Chip8
