import Chip8.Proofs.Machine.Reachable
import Chip8.Sounder

/-!
# What a load forgets

Loading a program resets every part of a machine, so the machine behind a load
depends on the program, the dialect, the random bytes and live debugging alone.
Two machines with different pasts that agree in these go the same way from then
on.
-/

set_option autoImplicit false

namespace Chip8

theorem Screen.WellFormed.clear_eq_blank {screen : Screen} (wellFormed : screen.WellFormed)
    (resolution : screen.resolution = ⟨columns, rowCount⟩) :
    screen.clear = Machine.blankScreen.clear := by
  have blank : Machine.blankScreen.WellFormed := wellFormed_blank (by decide) (by decide) rfl
  have shown : screen.shown = ⟨columns, rowCount⟩ := wellFormed.shown_eq.trans resolution
  rw [wellFormed.clear_eq, blank.clear_eq, resolution]
  obtain ⟨width, height, shownSize, cells, dirty⟩ := screen
  cases resolution
  cases shown
  rfl

namespace Machine

def loadedByte (rom : List UInt8) (address : Int) : UInt8 :=
  if 0x50 ≤ address ∧ address ≤ 0x9f then font.getD (address - 0x50).toNat 0
  else if rom.length ≤ 0xe00 ∧ 0x200 ≤ address ∧ address < 0x200 + rom.length then
    rom.getD (address - 0x200).toNat 0
  else 0

/-- The state behind a load: of the machine before it only what a host has set remains. -/
structure Loaded (before : Machine) (rom : List UInt8) (after : Machine) : Prop where
  size : after.memory.cells.size = 4096
  memory : ∀ address, 0 ≤ address → address ≤ 0xfff →
    after.memory.read address = .ok (loadedByte rom address)
  registers : ∀ x, after.register x = 0
  index : after.processor.index = 0
  counter : after.processor.counter = 0x200
  origin : after.processor.origin = 0x200
  opcode : after.processor.opcode = 0
  delay : after.processor.delay = 0
  sound : after.processor.sound = 0
  cycles : after.processor.cycles = 0
  awaitingKey : after.processor.awaitingKey = false
  stack : after.stack.toList = []
  keys : ∀ key, after.keypad.isDown key = false
  picture : ∀ x y, after.screen.get x y = .ok 0
  dirty : after.screen.dirty = true
  dialect : after.dialect = before.dialect
  random : after.random = before.random
  live : after.live = before.live

def outcomes (machine : Machine) : List Operation → List (Outcome Machine Unit)
  | [] => []
  | operation :: rest =>
      machine.operate operation :: (machine.operate operation).state.outcomes rest

theorem byteAt_blankMemory (address : Int) :
    blankMemory.byteAt address =
      if 0x50 ≤ address ∧ address ≤ 0x9f then font.getD (address - 0x50).toNat 0 else 0 := by
  have fits : (fontStart + font.length : Int) ≤ (Memory.zeros memorySize).size := by decide
  have glyphs : (fontStart + font.length : Int) = 0xa0 := by decide
  rw [blankMemory, Memory.byteAt_overwrite fits, Memory.byteAt_zeros, glyphs]
  have bounds : (fontStart : Int) ≤ address ∧ address < 0xa0 ↔
      0x50 ≤ address ∧ address ≤ 0x9f := by
    simp only [fontStart]
    omega
  simp only [bounds]
  rfl

theorem loadRom_blankMemory_of_fits {rom : List UInt8} (fits : rom.length ≤ 0xe00) :
    ∃ memory, blankMemory.loadRom rom programStart = .ok memory ∧ memory.size = memorySize ∧
      ∀ address, memory.byteAt address = loadedByte rom address := by
  have room : (programStart + rom.length : Int) ≤ blankMemory.size := by
    have size : blankMemory.size = 0x1000 := rfl
    rw [size, programStart]
    omega
  obtain ⟨memory, loaded, size, bytes⟩ := Memory.loadRom_of_fits room
  refine ⟨memory, loaded, size, ?_⟩
  intro address
  rw [bytes, byteAt_blankMemory, loadedByte]
  -- The program begins behind the glyphs.
  by_cases glyph : 0x50 ≤ address ∧ address ≤ 0x9f
  · rw [if_pos glyph, if_pos glyph, if_neg]
    simp only [programStart]
    omega
  · rw [if_neg glyph, if_neg glyph]
    simp only [fits, true_and]
    rfl

theorem loadRom_blankMemory_of_large {rom : List UInt8} (large : 0xe00 < rom.length) :
    blankMemory.loadRom rom programStart = .error (.romTooLarge rom.length 0xe00 0x200) ∧
      ∀ address, blankMemory.byteAt address = loadedByte rom address := by
  have capacity : blankMemory.size - programStart = 0xe00 := rfl
  have writable : Text.isWritable 0xe00 = true := Text.isWritable_of_natAbs_lt (by decide)
  constructor
  · rw [Memory.loadRom, capacity, if_pos (by omega), Fault.tooLarge, if_pos writable]
    rfl
  · intro address
    have unloaded : ¬rom.length ≤ 0xe00 := Nat.not_le_of_lt large
    rw [byteAt_blankMemory, loadedByte]
    simp only [unloaded, false_and, ↓reduceIte]

theorem clear_blankScreen : blankScreen.clear.state = blankScreen := by
  have blank : blankScreen.WellFormed := Screen.wellFormed_blank (by decide) (by decide) rfl
  rw [blank.clear_eq]
  rfl

namespace WellFormed

variable {machine : Machine} (wellFormed : machine.WellFormed)

include wellFormed

theorem reset_eq :
    machine.reset = (blank machine.dialect machine.random machine.live, resetSignals) := by
  rw [Machine.reset, wellFormed.screen.clear_eq_blank wellFormed.resolution]
  simp only [clear_blankScreen]
  rfl

theorem loadRom_eq (rom : List UInt8) :
    machine.loadRom rom = (blank machine.dialect machine.random machine.live).loadRom rom := by
  have blank := (wellFormed_blank machine.dialect machine.random machine.live).reset_eq
  rw [Machine.loadRom, Machine.loadRom, blank, wellFormed.reset_eq]
  rfl

end WellFormed

section

variable (dialect : Dialect) (random : RandomSource) (live : Bool) (rom : List UInt8)

theorem loaded_of_memory {memory : Memory} (size : memory.size = memorySize)
    (bytes : ∀ address, memory.byteAt address = loadedByte rom address) :
    Loaded (blank dialect random live) rom { blank dialect random live with memory := memory } where
  size := by
    rw [memory.size_cells, size]
    rfl
  memory := by
    intro address low high
    rw [← bytes]
    refine Memory.read_of_inRange ⟨low, ?_⟩
    rw [size, memorySize]
    omega
  registers := by
    intro x
    exact Vector.getElem_replicate _
  index := rfl
  counter := rfl
  origin := rfl
  opcode := rfl
  delay := rfl
  sound := rfl
  cycles := rfl
  awaitingKey := rfl
  stack := rfl
  keys := Keypad.isDown_released
  picture := by
    intro x y
    have screen := (wellFormed_blank dialect random live).screen
    have inRange := screen.place_inRange (screen.column_bounds x) (screen.row_bounds y)
    rw [Screen.get, screen.wrap_eq]
    refine (Memory.read_of_inRange inRange).trans ?_
    exact congrArg Except.ok (Memory.byteAt_zeros _ _)
  dirty := rfl
  dialect := rfl
  random := rfl
  live := rfl

theorem loadRom_blank :
    Loaded (blank dialect random live) rom ((blank dialect random live).loadRom rom).state ∧
    ((blank dialect random live).loadRom rom).signals = resetSignals ∧
    ((blank dialect random live).loadRom rom).answer =
      if rom.length ≤ 0xe00 then .ok () else .error (.romTooLarge rom.length 0xe00 0x200) := by
  have fresh := (wellFormed_blank dialect random live).reset_eq
  simp only [Machine.loadRom, fresh]
  by_cases fits : rom.length ≤ 0xe00
  · obtain ⟨memory, loaded, size, bytes⟩ := loadRom_blankMemory_of_fits fits
    simp only [blank, loaded, if_pos fits]
    exact ⟨loaded_of_memory dialect random live rom size bytes, trivial, trivial⟩
  · obtain ⟨refused, bytes⟩ := loadRom_blankMemory_of_large (Nat.lt_of_not_le fits)
    simp only [blank, refused, if_neg fits]
    exact ⟨loaded_of_memory dialect random live rom rfl bytes, trivial, trivial⟩

end

theorem buzzer_resetSignals (sounder : Sounder) :
    (sounder.receiveAll resetSignals).buzzer = false := by
  simp only [resetSignals, Sounder.receiveAll, List.foldl_append]
  rfl

/-- Nothing survives a load. Whatever two machines have been through, a program is loaded into
both or refused by both, and leaves them in the same state, from which they cannot be told
apart. -/
theorem loadRom_forgets {first second : Machine} (firstReachable : first.Reachable)
    (secondReachable : second.Reachable) (dialect : second.dialect = first.dialect)
    (random : second.random = first.random) (live : second.live = first.live)
    (rom : List UInt8) :
    second.loadRom rom = first.loadRom rom ∧
    ((first.loadRom rom).answer = .ok () ↔ rom.length ≤ 0xe00) ∧
    (0xe00 < rom.length →
      (first.loadRom rom).answer = .error (.romTooLarge rom.length 0xe00 0x200)) ∧
    Loaded first rom (first.loadRom rom).state ∧
    (∀ sounder : Sounder, (sounder.receiveAll (first.loadRom rom).signals).buzzer = false) ∧
    ∀ history, (second.loadRom rom).state.outcomes history =
      (first.loadRom rom).state.outcomes history := by
  have firstLoad := firstReachable.wellFormed.loadRom_eq rom
  have secondLoad := secondReachable.wellFormed.loadRom_eq rom
  rw [dialect, random, live] at secondLoad
  have same := secondLoad.trans firstLoad.symm
  obtain ⟨loaded, signals, answer⟩ := loadRom_blank first.dialect first.random first.live rom
  rw [← firstLoad] at loaded signals answer
  refine ⟨same, ?_, ?_, { loaded with }, ?_, ?_⟩
  · rw [answer]
    split
    case isTrue fits => exact ⟨fun _ => fits, fun _ => rfl⟩
    case isFalse large => exact ⟨nofun, fun fits => absurd fits large⟩
  · intro large
    rw [answer, if_neg (Nat.not_le_of_lt large)]
  · intro sounder
    rw [signals]
    exact buzzer_resetSignals sounder
  · intro history
    rw [same]

/-- A machine that has met a number without an instruction. -/
def crashed : Machine :=
  (assemble .plain (.scripted [7] 0) false).1.after [.loadRom [0xff, 0xff], .cycle]

/-- A machine that waits for a key. -/
def waiting : Machine :=
  (assemble .plain (.scripted [7] 0) false).1.after
    [.loadRom [0x6a, 0x05, 0xf1, 0x0a], .cycle, .cycle, .tick]

theorem loadRom_forgets_crash :
    waiting.processor.awaitingKey = true ∧ crashed.processor.opcode = 0xffff ∧
    waiting.loadRom [0x12, 0x00] = crashed.loadRom [0x12, 0x00] := by
  have assembled : (assemble .plain (.scripted [7] 0) false).1.Reachable := .assembled _ _ _
  obtain ⟨waits, fetched, dialect, random, live⟩ :
      waiting.processor.awaitingKey = true ∧ crashed.processor.opcode = 0xffff ∧
      waiting.dialect = crashed.dialect ∧ waiting.random = crashed.random ∧
      waiting.live = crashed.live := by decide +kernel
  have law := loadRom_forgets (assembled.after [.loadRom [0xff, 0xff], .cycle])
    (assembled.after [.loadRom [0x6a, 0x05, 0xf1, 0x0a], .cycle, .cycle, .tick])
    dialect random live [0x12, 0x00]
  exact ⟨waits, fetched, law.1⟩

end Machine

end Chip8
