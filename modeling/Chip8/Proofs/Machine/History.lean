import Chip8.Proofs.Machine.Cycle

/-!
# Histories of machines

A new machine has a past of operations, some of which may have failed. Every
operation keeps a machine well formed, so the ranges hold after every history,
and the cycles that fail after one are known.
-/

set_option autoImplicit false

namespace Chip8.Machine

/-- What a host does with a machine. It exchanges dialects between instructions. -/
inductive Operation where
  | reset
  | loadRom (rom : List UInt8)
  | setKey (number : Int) (pressed : Bool)
  | tick
  | cycle
  | setDialect (dialect : Dialect)

def operate (machine : Machine) : Operation → Outcome Machine Unit
  | .reset => { state := machine.reset.1, signals := machine.reset.2, answer := .ok () }
  | .loadRom rom => machine.loadRom rom
  | .setKey number pressed => .ofExcept machine (machine.setKey number pressed)
  | .tick => { state := machine.tick.1, signals := machine.tick.2.1, answer := .ok () }
  | .cycle => machine.cycle
  | .setDialect dialect => { state := { machine with dialect := dialect }, answer := .ok () }

/-- Putting keys down or up tells nothing and changes the keypad alone, if it changes anything. -/
theorem operate_setKey (machine : Machine) (number : Int) (pressed : Bool) :
    ∃ keypad, (machine.operate (.setKey number pressed)).state =
        { machine with keypad := keypad } ∧
      (machine.operate (.setKey number pressed)).signals = [] := by
  simp only [operate, setKey]
  cases machine.keypad.set number pressed with
  | error cause => exact ⟨machine.keypad, rfl, rfl⟩
  | ok keypad => exact ⟨keypad, rfl, rfl⟩

/-- A load is a reset with the program in memory, if there is room for it. -/
theorem operate_loadRom (machine : Machine) (rom : List UInt8) :
    ∃ memory, (machine.operate (.loadRom rom)).state =
        { machine.reset.1 with memory := memory } ∧
      (machine.operate (.loadRom rom)).signals = machine.reset.2 := by
  simp only [operate, loadRom]
  split
  · exact ⟨_, rfl, rfl⟩
  · exact ⟨_, rfl, rfl⟩

/-- The machine after some operations. One that fails does not end a history. -/
def after (machine : Machine) (history : List Operation) : Machine :=
  history.foldl (fun machine operation => (machine.operate operation).state) machine

theorem after_append (machine : Machine) (earlier later : List Operation) :
    machine.after (earlier ++ later) = (machine.after earlier).after later :=
  List.foldl_append

/-- The ranges that a machine never leaves. -/
structure InRanges (machine : Machine) : Prop where
  memory : machine.memory.cells.size = 4096
  registers : ∀ x, (machine.register x).toNat ≤ 255
  counter : 0 ≤ machine.processor.counter ∧ machine.processor.counter ≤ 0xfff
  origin : 0 ≤ machine.processor.origin ∧ machine.processor.origin ≤ 0xfff
  index : 0 ≤ machine.processor.index ∧ machine.processor.index ≤ 0xfff
  opcode : 0 ≤ machine.processor.opcode ∧ machine.processor.opcode ≤ 0xffff
  depth : machine.stack.toList.length ≤ 16
  addresses : ∀ address ∈ machine.stack.toList, 0 ≤ address ∧ address ≤ 0xfff
  delay : 0 ≤ machine.processor.delay ∧ machine.processor.delay ≤ 255
  sound : 0 ≤ machine.processor.sound ∧ machine.processor.sound ≤ 255
  resolution : machine.screen.width = 64 ∧ machine.screen.height = 32
  cells : machine.screen.cells.cells.size = 64 * 32
  bits : ∀ x y, machine.screen.get x y = .ok 0 ∨ machine.screen.get x y = .ok 1

theorem wellFormed_blank (dialect : Dialect) (random : RandomSource) (live : Bool) :
    (blank dialect random live).WellFormed where
  memory_size := rfl
  stack := ⟨rfl, Nat.zero_le _, nofun⟩
  screen := Screen.wellFormed_blank (by decide) (by decide) rfl
  resolution := rfl
  counter := (⟨by decide, by decide⟩ : IsAddress Processor.start.counter)
  origin := (⟨by decide, by decide⟩ : IsAddress Processor.start.origin)
  index := (⟨by decide, by decide⟩ : IsAddress Processor.start.index)
  delay := (⟨by decide, by decide⟩ : IsByte Processor.start.delay)
  sound := (⟨by decide, by decide⟩ : IsByte Processor.start.sound)
  opcode := ⟨Int.le_refl 0, Int.ofNat_lt.mpr (Nat.zero_lt_succ _)⟩

namespace WellFormed

variable {machine : Machine} (wellFormed : machine.WellFormed)

include wellFormed

theorem reset : machine.reset.1.WellFormed := by
  have cleared := wellFormed.screen.clear
  have same : machine.screen.clear.state.resolution = machine.screen.resolution := by
    rw [wellFormed.screen.clear_eq]
    rfl
  exact { wellFormed_blank machine.dialect machine.random machine.live with
    screen := cleared
    resolution := same.trans wellFormed.resolution }

theorem loadRom (rom : List UInt8) : (machine.loadRom rom).state.WellFormed := by
  have fresh := wellFormed.reset
  simp only [Machine.loadRom]
  cases stored : machine.reset.1.memory.loadRom rom programStart with
  | ok memory =>
      exact { fresh with memory_size := (Memory.size_loadRom stored).trans fresh.memory_size }
  | error cause => exact fresh

theorem tick : machine.tick.1.WellFormed := by
  have delay := wellFormed.delay
  have sound := wellFormed.sound
  refine { wellFormed with delay := ?_, sound := ?_ }
  · simp only [IsByte, Machine.tick] at delay ⊢
    omega
  · simp only [IsByte, Machine.tick] at sound ⊢
    omega

theorem delay_tick :
    machine.tick.1.processor.delay = max (machine.processor.delay - 1) 0 := by
  have delay := wellFormed.delay
  simp only [IsByte, Machine.tick] at delay ⊢
  omega

theorem sound_tick :
    machine.tick.1.processor.sound = max (machine.processor.sound - 1) 0 := by
  have sound := wellFormed.sound
  simp only [IsByte, Machine.tick] at sound ⊢
  omega

theorem operate (operation : Operation) : (machine.operate operation).state.WellFormed := by
  cases operation with
  | reset => exact wellFormed.reset
  | loadRom rom => exact wellFormed.loadRom rom
  | setKey number pressed =>
      obtain ⟨keypad, state, _⟩ := machine.operate_setKey number pressed
      rw [state]
      exact { wellFormed with }
  | tick => exact wellFormed.tick
  | cycle => exact wellFormed.cycle
  | setDialect dialect => exact { wellFormed with }

theorem after (history : List Operation) : (machine.after history).WellFormed := by
  induction history generalizing machine with
  | nil => exact wellFormed
  | cons operation rest ih => exact ih (wellFormed.operate operation)

theorem get_eq (x y : Int) :
    machine.screen.get x y = .ok 0 ∨ machine.screen.get x y = .ok 1 := by
  have screen := wellFormed.screen
  have inRange := screen.place_inRange (screen.column_bounds x) (screen.row_bounds y)
  rw [Screen.get, screen.wrap_eq]
  simp only [bind, Except.bind, Memory.read_of_inRange inRange]
  rcases screen.bits (machine.screen.place (x % machine.screen.width, y % machine.screen.height))
    with blank | set
  · exact .inl (congrArg Except.ok blank)
  · exact .inr (congrArg Except.ok set)

theorem inRanges : machine.InRanges := by
  have opcode := wellFormed.opcode
  have width : machine.screen.width = 64 := congrArg Resolution.width wellFormed.resolution
  have height : machine.screen.height = 32 := congrArg Resolution.height wellFormed.resolution
  have cells : machine.screen.cells.size = 64 * 32 := by
    rw [wellFormed.screen.size_eq, Screen.size, width, height]
  exact {
    memory := by rw [machine.memory.size_cells, wellFormed.memory_size]; rfl
    registers := fun x => Nat.le_of_lt_succ (machine.register x).toNat_lt
    counter := wellFormed.counter.bounds
    origin := wellFormed.origin.bounds
    index := wellFormed.index.bounds
    opcode := by omega
    depth := by
      rw [CallStack.toList, List.length_reverse]
      exact wellFormed.stack.depth_le
    addresses := fun address held =>
      (wellFormed.stack.addresses address (List.mem_reverse.mp held)).bounds
    delay := wellFormed.delay
    sound := wellFormed.sound
    resolution := ⟨width, height⟩
    cells := by rw [machine.screen.cells.size_cells, cells]; rfl
    bits := wellFormed.get_eq }

end WellFormed

theorem wellFormed_after (dialect : Dialect) (random : RandomSource) (live : Bool)
    (history : List Operation) : ((assemble dialect random live).1.after history).WellFormed :=
  (wellFormed_blank dialect random live).after history

theorem inRanges_after (dialect : Dialect) (random : RandomSource) (live : Bool)
    (history : List Operation) : ((assemble dialect random live).1.after history).InRanges :=
  (wellFormed_after dialect random live history).inRanges

theorem cycleLaw_after (dialect : Dialect) (random : RandomSource) (live : Bool)
    (history : List Operation) : ((assemble dialect random live).1.after history).CycleLaw :=
  (wellFormed_after dialect random live history).cycleLaw

end Chip8.Machine
