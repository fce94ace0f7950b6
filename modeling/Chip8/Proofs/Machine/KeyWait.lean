import Chip8.Proofs.Machine.Stuck
import Mathlib.Data.List.Induction

/-!
# Waiting for a key

A key wait without an answer moves the counter back and marks the machine, so
it is met again by the next cycle. No other instruction sets the mark and none
is met while it is set, so the mark tells what the last cycle was. While no
cycle finds a key down only the timers count, and the first one that does takes
the lowest key and goes on behind the wait.
-/

set_option autoImplicit false

namespace Chip8

namespace Machine

/-- The last cycle of a history met a key wait at an address and found no key down. -/
def EndsInWait (start : Machine) (history : List Operation) (x : Register) (address : Int) :
    Prop :=
  ∃ earlier rest, history = earlier ++ .cycle :: rest ∧
    (∀ operation ∈ rest, operation.isCycle = false) ∧
    (start.after earlier).processor.counter = address ∧
    (Instruction.awaitKey x).word = (start.after earlier).nextWord ∧
    ∀ key, (start.after earlier).keypad.isDown key = false

def Unanswered (machine : Machine) (history : List Operation) : Prop :=
  ∀ earlier later, history = earlier ++ .cycle :: later →
    ∀ key, (machine.after earlier).keypad.isDown key = false

/-- What waiting for a number of ticks makes of a machine. -/
structure Waited (before : Machine) (ticks : Nat) (after : Machine) : Prop where
  unmoved : Unmoved before after
  marked : after.processor.awaitingKey = true
  delay : after.processor.delay = max (before.processor.delay - ticks) 0
  sound : after.processor.sound = max (before.processor.sound - ticks) 0
  completes : after.cycle.answer = .ok ()

structure Answered (machine : Machine) (x : Register) (address : Int) (key : Key) : Prop where
  down : machine.keypad.isDown key = true
  lowest : ∀ lower < key, machine.keypad.isDown lower = false
  completes : machine.cycle.answer = .ok ()
  registers : machine.cycle.state.processor.registers =
    (machine.setRegister x (UInt8.ofNat key)).processor.registers
  counter : machine.cycle.state.processor.counter = (address + 2) % 4096
  unmarked : machine.cycle.state.processor.awaitingKey = false

/-- The machine is in a key wait at an address, and leaves it for a key alone. -/
structure KeyWait (machine : Machine) (x : Register) (address : Int) : Prop where
  counter : machine.processor.counter = address
  word : (Instruction.awaitKey x).word = machine.nextWord
  waits : ∀ history : List Operation, (∀ operation ∈ history, operation.isAmbient) →
    machine.Unanswered history →
    Waited machine (history.countP Operation.isTick) (machine.after history)
  answers : ∀ history : List Operation, (∀ operation ∈ history, operation.isAmbient) →
    machine.Unanswered history → (∃ key, (machine.after history).keypad.isDown key = true) →
    ∃ key, Answered (machine.after history) x address key

theorem unanswered_nil (machine : Machine) : machine.Unanswered [] := by
  intro earlier later split
  cases (List.nil_eq_append_iff.mp split).2

theorem unanswered_cons {machine : Machine} {operation : Operation} {rest : List Operation} :
    machine.Unanswered (operation :: rest) ↔
      (operation.isCycle → ∀ key, machine.keypad.isDown key = false) ∧
        (machine.operate operation).state.Unanswered rest := by
  constructor
  · intro unanswered
    constructor
    · intro isCycle
      cases operation with
      | cycle => exact unanswered [] rest rfl
      | _ => cases isCycle
    · intro earlier later split
      exact unanswered (operation :: earlier) later (congrArg (operation :: ·) split)
  · rintro ⟨up, others⟩ earlier later split
    cases earlier with
    | nil =>
        obtain ⟨rfl, _⟩ := List.cons.inj split
        exact up rfl
    | cons first earlier =>
        obtain ⟨rfl, remaining⟩ := List.cons.inj split
        exact others earlier later remaining

instance decidableUnanswered (machine : Machine) :
    (history : List Operation) → Decidable (machine.Unanswered history)
  | [] => .isTrue machine.unanswered_nil
  | operation :: rest =>
      have := decidableUnanswered (machine.operate operation).state rest
      decidable_of_iff' _ unanswered_cons

/-- The next instruction is a key wait at an address that has been met before. -/
structure Waiting (machine : Machine) (x : Register) (address : Int) : Prop where
  counter : machine.processor.counter = address
  word : (Instruction.awaitKey x).word = machine.nextWord
  marked : machine.processor.awaitingKey = true

theorem Waited.trans {first second third : Machine} {ticks more : Nat}
    (before : Waited first ticks second) (after : Waited second more third) :
    Waited first (ticks + more) third := by
  have delay := before.delay
  have sound := before.sound
  have delayLater := after.delay
  have soundLater := after.sound
  refine ⟨before.unmoved.trans after.unmoved, after.marked, ?_, ?_, after.completes⟩
  · omega
  · omega

theorem Waiting.decode {machine : Machine} {x : Register} {address : Int}
    (waiting : machine.Waiting x address) :
    Instruction.decode? machine.nextWord = some (.awaitKey x) :=
  (Instruction.decode?_eq_some_iff machine.nextWord_lt).mpr waiting.word

section

variable {machine : Machine} (wellFormed : machine.WellFormed) {x : Register} {address : Int}

include wellFormed

theorem waiting_cycle (counter : machine.processor.counter = address)
    (word : (Instruction.awaitKey x).word = machine.nextWord)
    (up : ∀ key, machine.keypad.isDown key = false) :
    machine.cycle.state.Waiting x address := by
  have decoded := (Instruction.decode?_eq_some_iff machine.nextWord_lt).mpr word
  have unanswered := machine.keypad.first?_eq_none_iff.mpr up
  rw [wellFormed.state_cycle_of_unanswered decoded unanswered]
  exact ⟨counter, word, rfl⟩

variable (waiting : machine.Waiting x address)

include waiting

theorem Waiting.completes : machine.cycle.answer = .ok () :=
  wellFormed.cycle_of_awaitKey waiting.decode

theorem Waiting.waited : Waited machine 0 machine := by
  have delay := wellFormed.delay.1
  have sound := wellFormed.sound.1
  refine ⟨.refl machine, waiting.marked, ?_, ?_, waiting.completes wellFormed⟩
  · omega
  · omega

theorem Waiting.answered (pressed : ∃ key, machine.keypad.isDown key = true) :
    ∃ key, Answered machine x address key := by
  cases first : machine.keypad.first? with
  | none =>
      obtain ⟨key, down⟩ := pressed
      have up := machine.keypad.first?_eq_none_iff.mp first key
      cases up.symm.trans down
  | some key =>
      obtain ⟨down, lowest⟩ := machine.keypad.first?_eq_some_iff.mp first
      have state := wellFormed.state_cycle_of_answered waiting.decode first
      refine ⟨key, down, lowest, waiting.completes wellFormed, ?_, ?_, ?_⟩
      · rw [state]
      · rw [state, ← waiting.counter]
        rfl
      · rw [state]

theorem Waiting.operate {operation : Operation} (ambient : operation.isAmbient)
    (up : operation.isCycle → ∀ key, machine.keypad.isDown key = false) :
    (machine.operate operation).state.Waiting x address ∧
      Waited machine (if operation.isTick then 1 else 0) (machine.operate operation).state := by
  have later := wellFormed.operate operation
  have here := waiting.waited wellFormed
  cases operation with
  | reset | loadRom | setDialect => cases ambient
  | tick =>
      have still : (machine.operate .tick).state.Waiting x address :=
        ⟨waiting.counter, waiting.word, waiting.marked⟩
      exact ⟨still, ⟨rfl, rfl, rfl, rfl, rfl, rfl⟩, waiting.marked, wellFormed.delay_tick,
        wellFormed.sound_tick, still.completes later⟩
  | setKey number pressed =>
      obtain ⟨keypad, state, _⟩ := machine.operate_setKey number pressed
      rw [state] at later ⊢
      have still : { machine with keypad := keypad }.Waiting x address :=
        ⟨waiting.counter, waiting.word, waiting.marked⟩
      exact ⟨still, ⟨rfl, rfl, rfl, rfl, rfl, rfl⟩, waiting.marked, here.delay, here.sound,
        still.completes later⟩
  | cycle =>
      have still := waiting_cycle wellFormed waiting.counter waiting.word (up rfl)
      have state := wellFormed.state_cycle_of_unanswered waiting.decode
        (machine.keypad.first?_eq_none_iff.mpr (up rfl))
      have completes := still.completes later
      refine ⟨still, ?_, still.marked, ?_, ?_, completes⟩
      · change Unmoved machine machine.cycle.state
        rw [state]
        exact ⟨rfl, rfl, rfl, rfl, rfl, rfl⟩
      · change machine.cycle.state.processor.delay = _
        rw [state]
        exact here.delay
      · change machine.cycle.state.processor.sound = _
        rw [state]
        exact here.sound

theorem Waiting.after {history : List Operation}
    (ambient : ∀ operation ∈ history, operation.isAmbient)
    (unanswered : machine.Unanswered history) :
    (machine.after history).Waiting x address ∧
      Waited machine (history.countP Operation.isTick) (machine.after history) := by
  induction history generalizing machine with
  | nil => exact ⟨waiting, waiting.waited wellFormed⟩
  | cons operation rest ih =>
      obtain ⟨first, others⟩ := List.forall_mem_cons.mp ambient
      obtain ⟨up, unanswered⟩ := unanswered_cons.mp unanswered
      obtain ⟨still, waited⟩ := waiting.operate wellFormed first up
      obtain ⟨final, more⟩ := ih (wellFormed.operate operation) still others unanswered
      rw [List.countP_cons, Nat.add_comm]
      exact ⟨final, waited.trans more⟩

theorem Waiting.keyWait : machine.KeyWait x address where
  counter := waiting.counter
  word := waiting.word
  waits := by
    intro history ambient unanswered
    exact (waiting.after wellFormed ambient unanswered).2
  answers := by
    intro history ambient unanswered pressed
    obtain ⟨still, _⟩ := waiting.after wellFormed ambient unanswered
    exact still.answered (wellFormed.after history) pressed

end

section

variable {start : Machine} {history : List Operation} {x : Register} {address : Int}

theorem endsInWait_concat_cycle :
    start.EndsInWait (history ++ [.cycle]) x address ↔
      (start.after history).processor.counter = address ∧
      (Instruction.awaitKey x).word = (start.after history).nextWord ∧
      ∀ key, (start.after history).keypad.isDown key = false := by
  constructor
  · rintro ⟨earlier, rest, split, quiet, met⟩
    rcases concat_eq_append_cons split with ⟨rfl, _, _⟩ | ⟨between, _, rfl⟩
    · exact met
    · cases quiet .cycle (by simp)
  · intro met
    exact ⟨history, [], rfl, nofun, met⟩

theorem endsInWait_concat {operation : Operation} (other : operation.isCycle = false) :
    start.EndsInWait (history ++ [operation]) x address ↔ start.EndsInWait history x address := by
  constructor
  · rintro ⟨earlier, rest, split, quiet, met⟩
    rcases concat_eq_append_cons split with ⟨_, rfl, _⟩ | ⟨between, rfl, rfl⟩
    · cases other
    · exact ⟨earlier, between, rfl, (List.forall_mem_append.mp quiet).1, met⟩
  · rintro ⟨earlier, rest, rfl, quiet, met⟩
    refine ⟨earlier, rest ++ [operation], ?_, ?_, met⟩
    · rw [List.append_assoc, List.cons_append]
    · exact List.forall_mem_append.mpr ⟨quiet, List.forall_mem_singleton.mpr other⟩

end

namespace Reachable

variable {start : Machine} (reachable : start.Reachable) {history : List Operation}
  (ambient : ∀ operation ∈ history, operation.isAmbient)

include reachable ambient

theorem waiting_of_endsInWait {x : Register} {address : Int}
    (ends : start.EndsInWait history x address) : (start.after history).Waiting x address := by
  obtain ⟨earlier, rest, rfl, quiet, counter, word, up⟩ := ends
  have met := waiting_cycle (reachable.after earlier).wellFormed counter word up
  have others : ∀ operation ∈ rest, operation.isAmbient := by
    intro operation member
    exact ambient operation (by simp [member])
  have unanswered : (start.after earlier).cycle.state.Unanswered rest := by
    rintro before later rfl
    cases quiet .cycle (by simp)
  rw [after_append]
  exact (met.after (reachable.after earlier).wellFormed.cycle others unanswered).1

theorem endsInWait_of_marked (unmarked : start.processor.awaitingKey = false)
    (marked : (start.after history).processor.awaitingKey = true) :
    ∃ x address, start.EndsInWait history x address := by
  induction history using List.reverseRecOn with
  | nil => cases unmarked.symm.trans marked
  | append_singleton earlier operation ih =>
      have before : ∀ operation ∈ earlier, operation.isAmbient := by
        intro other member
        exact ambient other (List.mem_append_left _ member)
      have last : operation.isAmbient := ambient operation (by simp)
      rw [after_append] at marked
      cases operation with
      | reset | loadRom | setDialect => cases last
      | cycle =>
          obtain ⟨⟨x, word⟩, up⟩ := (reachable.after earlier).awaitingKey_cycle_iff.mp marked
          exact ⟨x, _, endsInWait_concat_cycle.mpr ⟨rfl, word, up⟩⟩
      | tick =>
          obtain ⟨x, address, ends⟩ := ih before marked
          exact ⟨x, address, (endsInWait_concat rfl).mpr ends⟩
      | setKey number pressed =>
          obtain ⟨keypad, state, _⟩ := (start.after earlier).operate_setKey number pressed
          have same : (start.after earlier).processor.awaitingKey = true := by
            rw [Machine.after, List.foldl_cons, List.foldl_nil, state] at marked
            exact marked
          obtain ⟨x, address, ends⟩ := ih before same
          exact ⟨x, address, (endsInWait_concat rfl).mpr ends⟩

end Reachable

theorem awaitingKey_loadRom (machine : Machine) (rom : List UInt8) :
    (machine.loadRom rom).state.processor.awaitingKey = false := by
  obtain ⟨memory, state, _⟩ := machine.operate_loadRom rom
  exact congrArg (fun loaded : Machine => loaded.processor.awaitingKey) state

/-- Behind a load the mark tells that the last cycle was a key wait without an answer. The
machine is then still at that wait, and only a key that a cycle finds down ends it. -/
theorem keyWait_after_load {machine : Machine} (reachable : machine.Reachable) (rom : List UInt8)
    {history : List Operation} (ambient : ∀ operation ∈ history, operation.isAmbient) :
    let loaded := (machine.loadRom rom).state
    ((loaded.after history).processor.awaitingKey = true ↔
      ∃ x address, loaded.EndsInWait history x address) ∧
    ∀ x address, loaded.EndsInWait history x address →
      (loaded.after history).KeyWait x address := by
  intro loaded
  have again : loaded.Reachable := reachable.operated (.loadRom rom)
  refine ⟨⟨?_, ?_⟩, ?_⟩
  · intro marked
    exact again.endsInWait_of_marked ambient (machine.awaitingKey_loadRom rom) marked
  · rintro ⟨x, address, ends⟩
    exact (again.waiting_of_endsInWait ambient ends).marked
  · intro x address ends
    exact (again.waiting_of_endsInWait ambient ends).keyWait (again.after history).wellFormed

def asker : Machine := (assemble .plain (.scripted [7] 0) false).1

theorem keyWait_after_load_asker :
    let loaded := (asker.loadRom [0x6a, 0x05, 0xf1, 0x0a]).state
    let before : List Operation := [.cycle, .setKey 9 true, .setKey 9 false]
    let waiting := loaded.after (before ++ [.cycle, .tick])
    let further : List Operation :=
      [.tick, .cycle, .setKey 12 true, .setKey 12 false, .cycle, .setKey 12 true, .setKey 7 true]
    waiting.processor.awaitingKey = true ∧ waiting.Unanswered further ∧
    (∃ key, Answered (waiting.after further) 1 0x202 key) ∧
    (waiting.after further).cycle.state.register 1 = 7 := by
  intro loaded before waiting further
  have reachable : asker.Reachable := .assembled _ _ _
  have ambient : ∀ operation ∈ before ++ [.cycle, .tick], operation.isAmbient := by decide
  have moreAmbient : ∀ operation ∈ further, operation.isAmbient := by decide
  obtain ⟨marked, counter, word, up, unanswered, pressed, stored⟩ :
      waiting.processor.awaitingKey = true ∧ (loaded.after before).processor.counter = 0x202 ∧
      (Instruction.awaitKey 1).word = (loaded.after before).nextWord ∧
      (∀ key, (loaded.after before).keypad.isDown key = false) ∧
      waiting.Unanswered further ∧
      (∃ key, (waiting.after further).keypad.isDown key = true) ∧
      (waiting.after further).cycle.state.register 1 = 7 := by
    decide +kernel
  have ends : loaded.EndsInWait (before ++ [.cycle, .tick]) 1 0x202 :=
    ⟨before, [.tick], rfl, by decide, counter, word, up⟩
  have law := keyWait_after_load reachable [0x6a, 0x05, 0xf1, 0x0a] ambient
  have answers := (law.2 1 0x202 ends).answers further moreAmbient
  exact ⟨marked, unanswered, answers unanswered pressed, stored⟩

end Machine

end Chip8
