import Chip8.Proofs.Machine.Footprint
import Chip8.Proofs.Scheduler.Invariant

/-!
# Reachable machines

What hosts do with a machine, and what a run does with it, whatever its polls
ask for. Reachable machines are well formed. One that waits for a key is about
to meet its key wait again, so the flag of a key wait is never left over from
an earlier instruction.
-/

set_option autoImplicit false

namespace Chip8

namespace Keypad

theorem first?_eq_none_iff (keypad : Keypad) :
    keypad.first? = none ↔ ∀ key, keypad.isDown key = false := by
  simp [first?]

theorem first?_eq_some_iff (keypad : Keypad) {key : Key} :
    keypad.first? = some key ↔
      keypad.isDown key = true ∧ ∀ lower < key, keypad.isDown lower = false := by
  rw [first?, List.find?_eq_some_iff_getElem]
  simp only [List.getElem_finRange, List.length_finRange, Bool.not_eq_eq_eq_not, Bool.not_true]
  refine and_congr_right fun _ => ⟨?_, ?_⟩
  · rintro ⟨place, _, rfl, before⟩ lower below
    exact before lower below
  · intro before
    exact ⟨key, key.isLt, rfl, fun lower below => before ⟨lower, _⟩ below⟩

end Keypad

namespace Machine

/-- The machine was put together, and has since been operated and its screen refreshed. What
failed on the way makes no difference. -/
inductive Reachable : Machine → Prop where
  | assembled (dialect : Dialect) (random : RandomSource) (live : Bool) :
      Reachable (assemble dialect random live).1
  | operated {machine : Machine} (operation : Operation) :
      Reachable machine → Reachable (machine.operate operation).state
  | refreshed {machine : Machine} :
      Reachable machine → Reachable { machine with screen := machine.screen.refresh.1 }

def AtKeyWait (machine : Machine) : Prop :=
  ∃ x, (Instruction.awaitKey x).word = machine.nextWord

instance (machine : Machine) : Decidable machine.AtKeyWait :=
  inferInstanceAs (Decidable (∃ _ : Register, _))

theorem atKeyWait_of_decode {machine : Machine} {x : Register}
    (decoded : Instruction.decode? machine.nextWord = some (.awaitKey x)) : machine.AtKeyWait :=
  ⟨x, (Instruction.decode?_eq_some_iff machine.nextWord_lt).mp decoded⟩

theorem AtKeyWait.decode {machine : Machine} (atWait : machine.AtKeyWait) :
    ∃ x, Instruction.decode? machine.nextWord = some (.awaitKey x) := by
  obtain ⟨x, word⟩ := atWait
  exact ⟨x, (Instruction.decode?_eq_some_iff machine.nextWord_lt).mpr word⟩

theorem origin_cycle (machine : Machine) :
    machine.cycle.state.processor.origin = machine.processor.counter := by
  obtain ⟨_, _, _, _, _, same⟩ := machine.context_cycle
  exact congrArg Context.origin same

namespace WellFormed

variable {machine : Machine} (wellFormed : machine.WellFormed)

include wellFormed

theorem cycle_completed (completed : machine.cycle.answer = .ok ()) :
    ∃ instruction next told, Instruction.decode? machine.nextWord = some instruction ∧
      (machine.fetched machine.nextWord).execute instruction = .ok (next, told) ∧
      machine.cycle.state = { next with processor.cycles := next.processor.cycles + 1 } := by
  have opcode : (machine.fetched machine.nextWord).processor.opcode = machine.nextWord := rfl
  rw [answer_cycle wellFormed.fetch_eq] at completed
  rw [state_cycle wellFormed.fetch_eq, completed]
  unfold perform at completed ⊢
  rw [opcode] at completed ⊢
  cases decoded : Instruction.decode? machine.nextWord with
  | none =>
      rw [decoded] at completed
      cases completed
  | some instruction =>
      rw [decoded] at completed
      simp only at completed ⊢
      cases executed : (machine.fetched machine.nextWord).execute instruction with
      | error cause =>
          rw [executed] at completed
          cases completed
      | ok ran => exact ⟨instruction, ran.1, ran.2, rfl, executed, rfl⟩

theorem cycles_cycle (completed : machine.cycle.answer = .ok ()) :
    machine.cycle.state.processor.cycles = machine.processor.cycles + 1 := by
  obtain ⟨_, next, _, _, executed, state⟩ := wellFormed.cycle_completed completed
  obtain ⟨_, _, _, same⟩ := context_execute_eq executed
  have cycles : next.processor.cycles = machine.processor.cycles := congrArg Context.cycles same
  rw [state]
  exact congrArg (· + 1) cycles

theorem cycle_of_awaitKey {x : Register}
    (decoded : Instruction.decode? machine.nextWord = some (.awaitKey x)) :
    machine.cycle.answer = .ok () := by
  have spec := wellFormed.cycle_spec
  simp only [fault?, decoded] at spec
  exact spec.1

theorem state_cycle_of_awaitKey {x : Register}
    (decoded : Instruction.decode? machine.nextWord = some (.awaitKey x)) :
    machine.cycle.state =
      { (machine.fetched machine.nextWord).answerKey x with
        processor.cycles := machine.processor.cycles + 1 } := by
  obtain ⟨instruction, next, told, sameWord, executed, state⟩ :=
    wellFormed.cycle_completed (wellFormed.cycle_of_awaitKey decoded)
  cases decoded.symm.trans sameWord
  obtain ⟨answered, _⟩ := of_silent executed
  cases answered
  rw [state, answerKey_eq]
  rfl

theorem state_cycle_of_unanswered {x : Register}
    (decoded : Instruction.decode? machine.nextWord = some (.awaitKey x))
    (unanswered : machine.keypad.first? = none) :
    machine.cycle.state =
      { machine with
        processor := { machine.processor with
          opcode := machine.nextWord
          origin := machine.processor.counter
          cycles := machine.processor.cycles + 1
          awaitingKey := true } } := by
  -- The fetch has moved the counter on by as much as the wait moves it back.
  have counter : wrapAddress (wrapAddress (machine.processor.counter + 2) - 2) =
      machine.processor.counter := by
    have bounds := wellFormed.counter.bounds
    simp only [wrapAddress, memorySize]
    omega
  have keypad : (machine.fetched machine.nextWord).keypad.first? = none := unanswered
  have behind : (machine.fetched machine.nextWord).processor.counter =
      wrapAddress (machine.processor.counter + 2) := rfl
  rw [wellFormed.state_cycle_of_awaitKey decoded, answerKey_eq, keypad]
  simp only [Option.isNone_none, ↓reduceIte, behind, counter]
  rfl

theorem state_cycle_of_answered {x : Register} {key : Key}
    (decoded : Instruction.decode? machine.nextWord = some (.awaitKey x))
    (answered : machine.keypad.first? = some key) :
    machine.cycle.state =
      { machine with
        processor := { machine.processor with
          registers := (machine.setRegister x (UInt8.ofNat key)).processor.registers
          counter := wrapAddress (machine.processor.counter + 2)
          opcode := machine.nextWord
          origin := machine.processor.counter
          cycles := machine.processor.cycles + 1
          awaitingKey := false } } := by
  have keypad : (machine.fetched machine.nextWord).keypad.first? = some key := answered
  rw [wellFormed.state_cycle_of_awaitKey decoded, answerKey_eq, keypad]
  rfl

theorem nextWord_cycle_of_unanswered {x : Register}
    (decoded : Instruction.decode? machine.nextWord = some (.awaitKey x))
    (unanswered : machine.keypad.first? = none) :
    machine.cycle.state.nextWord = machine.nextWord := by
  rw [wellFormed.state_cycle_of_unanswered decoded unanswered]
  rfl

theorem awaitingKey_cycle {instruction : Instruction}
    (decoded : Instruction.decode? machine.nextWord = some instruction)
    (completed : machine.cycle.answer = .ok ()) :
    machine.cycle.state.processor.awaitingKey =
      match instruction with
      | .awaitKey _ => machine.keypad.first?.isNone
      | _ => machine.processor.awaitingKey := by
  obtain ⟨other, next, told, sameWord, executed, state⟩ := wellFormed.cycle_completed completed
  cases decoded.symm.trans sameWord
  have after := congrArg Context.awaitingKey (context_execute executed)
  rw [state]
  refine Eq.trans after ?_
  cases instruction with
  | _ => rfl

section

variable (waits : machine.processor.awaitingKey = true → machine.AtKeyWait)

include waits

theorem awaitingKey_cycle_iff :
    machine.cycle.state.processor.awaitingKey = true ↔
      machine.AtKeyWait ∧ ∀ key, machine.keypad.isDown key = false := by
  have kept (same : machine.cycle.state.processor.awaitingKey = machine.processor.awaitingKey)
      (other : ¬machine.AtKeyWait) :
      machine.cycle.state.processor.awaitingKey = true ↔
        machine.AtKeyWait ∧ ∀ key, machine.keypad.isDown key = false := by
    rw [same]
    exact ⟨fun waiting => absurd (waits waiting) other, fun waiting => absurd waiting.1 other⟩
  cases answer : machine.cycle.answer with
  | error cause =>
      -- A cycle that fails leaves the flag as it was, and a key wait never fails.
      apply kept
      · rw [(wellFormed.cycle_of_error answer).2.1]
        rfl
      · intro atWait
        obtain ⟨x, decoded⟩ := atWait.decode
        cases answer.symm.trans (wellFormed.cycle_of_awaitKey decoded)
  | ok _ =>
      obtain ⟨instruction, _, _, decoded, _⟩ := wellFormed.cycle_completed answer
      have flag := wellFormed.awaitingKey_cycle decoded answer
      by_cases wait : ∃ x, instruction = .awaitKey x
      · obtain ⟨x, rfl⟩ := wait
        rw [flag, Option.isNone_iff_eq_none, Keypad.first?_eq_none_iff]
        exact ⟨fun up => ⟨atKeyWait_of_decode decoded, up⟩, And.right⟩
      · apply kept
        · cases instruction with
          | awaitKey x => exact absurd ⟨x, rfl⟩ wait
          | _ => exact flag
        · intro atWait
          obtain ⟨x, awaited⟩ := atWait.decode
          exact wait ⟨x, Option.some.inj (decoded.symm.trans awaited)⟩

theorem atKeyWait_cycle (waiting : machine.cycle.state.processor.awaitingKey = true) :
    machine.cycle.state.AtKeyWait := by
  obtain ⟨atWait, up⟩ := (wellFormed.awaitingKey_cycle_iff waits).mp waiting
  obtain ⟨x, decoded⟩ := atWait.decode
  rw [AtKeyWait, wellFormed.nextWord_cycle_of_unanswered decoded
    ((machine.keypad.first?_eq_none_iff).mpr up)]
  exact atWait

end

end WellFormed

namespace Reachable

variable {machine : Machine} (reachable : machine.Reachable)

include reachable

theorem wellFormed : machine.WellFormed := by
  induction reachable with
  | assembled dialect random live => exact wellFormed_blank dialect random live
  | operated operation _ ih => exact ih.operate operation
  | refreshed _ ih => exact { ih with screen := ih.screen.refresh }

theorem after (history : List Operation) : (machine.after history).Reachable := by
  induction history generalizing machine with
  | nil => exact reachable
  | cons operation rest ih => exact ih (reachable.operated operation)

theorem atKeyWait (waiting : machine.processor.awaitingKey = true) : machine.AtKeyWait := by
  induction reachable with
  | assembled => cases waiting
  | refreshed _ ih => exact ih waiting
  | @operated machine operation before ih =>
      cases operation with
      | reset => cases waiting
      | tick | setDialect => exact ih waiting
      | loadRom rom =>
          obtain ⟨_, state, _⟩ := machine.operate_loadRom rom
          rw [state] at waiting
          cases waiting
      | setKey number pressed =>
          obtain ⟨_, state, _⟩ := machine.operate_setKey number pressed
          rw [state] at waiting ⊢
          exact ih waiting
      | cycle => exact before.wellFormed.atKeyWait_cycle ih waiting

/-- Behind a cycle the flag tells whether the cycle was a key wait without an answer. -/
theorem awaitingKey_cycle_iff :
    machine.cycle.state.processor.awaitingKey = true ↔
      machine.AtKeyWait ∧ ∀ key, machine.keypad.isDown key = false :=
  reachable.wellFormed.awaitingKey_cycle_iff reachable.atKeyWait

end Reachable

end Machine

variable {η : Type}

theorem Visit.keeps_reachable (visit : Visit η) :
    visit.Keeps fun world => world.machine.Reachable := by
  induction visit with
  | leave | fail => trivial
  | ask request next ih => exact ih
  | consult next ih => exact ih
  | update change next ih => exact ⟨fun _ reachable => reachable, ih⟩

/-- Runs leave machines reachable on every host, whatever its polls ask for. -/
theorem Host.invariant_reachable (host : Host η) :
    host.Invariant fun world => world.machine.Reachable where
  scheduler := fun _ _ reachable => reachable
  readClock := fun _ reachable => reachable
  sleep := fun _ _ reachable => reachable
  tell := fun _ _ _ reachable => reachable
  report := by
    intro world pictures instructions reachable
    rw [World.machine_tellAll]
    exact reachable
  refresh := by
    intro world reachable
    rw [World.machine_tellAll]
    exact reachable.refreshed
  operate := by
    intro world operation reachable
    have machine := World.machine_tellAll host
      { world with machine := (world.machine.operate operation).state }
      (world.machine.operate operation).signals
    simp only [World.adopt, machine]
    exact reachable.operated operation
  poll := fun frame => (host.poll frame).keeps_reachable

end Chip8
