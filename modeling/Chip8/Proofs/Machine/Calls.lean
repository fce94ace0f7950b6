import Chip8.Proofs.Machine.Footprint
import Chip8.Proofs.Machine.Interleaving
import Chip8.Proofs.Machine.Reachable

/-!
# Calls in progress

A call puts its return address on top of those that are held, and only returns
take addresses away. So until a call is returned from, its address lies above
those that were held before it, whatever the program calls or rewrites in
between; and the return that takes it away leads behind the call and finds the
stack as the call found it.
-/

set_option autoImplicit false

namespace Chip8

theorem CallStack.length_toList (stack : CallStack) : stack.toList.length = stack.depth :=
  List.length_reverse

namespace Machine

inductive Bracketing (machine : Machine) : Prop where
  | kept (same : machine.cycle.state.stack.toList = machine.stack.toList)
  | called (pushed : machine.cycle.state.stack.toList =
      machine.stack.toList ++ [wrapAddress (machine.processor.counter + 2)])
  | returned (word : Instruction.ret.word = machine.nextWord)
      (completed : machine.cycle.answer = .ok ())
      (popped : machine.stack.toList =
        machine.cycle.state.stack.toList ++ [machine.cycle.state.processor.counter])

theorem WellFormed.bracketing {machine : Machine} (wellFormed : machine.WellFormed) :
    machine.Bracketing := by
  cases answer : machine.cycle.answer with
  | error cause =>
      refine .kept ?_
      rw [(wellFormed.cycle_of_error answer).2.1]
      rfl
  | ok _ =>
      obtain ⟨instruction, next, told, decoded, executed, state⟩ :=
        wellFormed.cycle_completed answer
      cases instruction with
      | call target =>
          obtain ⟨stack, pushed, rfl⟩ := of_callTo (of_silent executed).1
          refine .called ?_
          rw [state]
          exact CallStack.toList_push pushed
      | ret =>
          obtain ⟨address, stack, popped, rfl⟩ := of_returnBack (of_silent executed).1
          have word := (Instruction.decode?_eq_some_iff machine.nextWord_lt).mp decoded
          refine .returned word answer ?_
          rw [state]
          exact CallStack.toList_pop popped
      | _ =>
          have same := (footprint_execute executed).stack rfl
          refine .kept ?_
          rw [state]
          exact congrArg CallStack.toList same

/-- The return address of a call lies above those that the caller held. -/
def InCall (caller machine : Machine) : Prop :=
  ∃ newer, machine.stack.toList =
    caller.stack.toList ++ wrapAddress (caller.processor.counter + 2) :: newer

/-- The next cycle returns from the call of a caller. -/
structure Returns (caller machine : Machine) : Prop where
  word : Instruction.ret.word = machine.nextWord
  completes : machine.cycle.answer = .ok ()
  counter : machine.cycle.state.processor.counter = (caller.processor.counter + 2) % 4096
  stack : machine.cycle.state.stack.toList = caller.stack.toList

section

variable {caller machine : Machine}

theorem InCall.depth_lt (inCall : InCall caller machine) :
    caller.stack.depth < machine.stack.depth := by
  obtain ⟨newer, held⟩ := inCall
  have lengths := congrArg List.length held
  simp only [CallStack.length_toList, List.length_append, List.length_cons] at lengths
  omega

theorem inCall_of_call (wellFormed : caller.WellFormed) {target : Address}
    (call : (Instruction.call target).word = caller.nextWord)
    (completed : caller.cycle.answer = .ok ()) : InCall caller caller.cycle.state := by
  have called := (Instruction.decode?_eq_some_iff caller.nextWord_lt).mpr call
  obtain ⟨instruction, next, told, decoded, executed, state⟩ :=
    wellFormed.cycle_completed completed
  cases called.symm.trans decoded
  obtain ⟨stack, pushed, rfl⟩ := of_callTo (of_silent executed).1
  refine ⟨[], ?_⟩
  rw [state]
  exact CallStack.toList_push pushed

theorem InCall.cycle (wellFormed : machine.WellFormed) (inCall : InCall caller machine) :
    InCall caller machine.cycle.state ∨ Returns caller machine := by
  obtain ⟨newer, held⟩ := inCall
  cases wellFormed.bracketing with
  | kept same => exact .inl ⟨newer, same.trans held⟩
  | called pushed =>
      refine .inl ⟨newer ++ [wrapAddress (machine.processor.counter + 2)], ?_⟩
      rw [pushed, held, List.append_assoc, List.cons_append]
  | returned word completed popped =>
      rw [held] at popped
      -- The address that is taken is that of the call only if no newer one lies above it.
      rcases concat_eq_append_cons popped.symm with ⟨stack, address, _⟩ | ⟨others, stack, _⟩
      · exact .inr ⟨word, completed, address, stack⟩
      · exact .inl ⟨others, stack⟩

theorem InCall.operate (wellFormed : machine.WellFormed) (inCall : InCall caller machine)
    {operation : Operation} (ambient : operation.isAmbient) :
    InCall caller (machine.operate operation).state ∨
      operation = .cycle ∧ Returns caller machine := by
  cases operation with
  | reset | loadRom | setDialect => cases ambient
  | tick => exact .inl inCall
  | setKey number pressed =>
      obtain ⟨keypad, state, _⟩ := machine.operate_setKey number pressed
      rw [state]
      exact .inl inCall
  | cycle =>
      rcases inCall.cycle wellFormed with still | returns
      · exact .inl still
      · exact .inr ⟨rfl, returns⟩

def InCallThroughout (caller machine : Machine) (history : List Operation) : Prop :=
  ∀ earlier later, history = earlier ++ later →
    caller.stack.depth < (machine.after earlier).stack.depth

theorem InCall.throughout_nil (inCall : InCall caller machine) :
    InCallThroughout caller machine [] := by
  intro earlier later split
  obtain ⟨rfl, rfl⟩ := List.nil_eq_append_iff.mp split
  exact inCall.depth_lt

theorem InCall.throughout_cons (inCall : InCall caller machine) {operation : Operation}
    {rest : List Operation}
    (others : InCallThroughout caller (machine.operate operation).state rest) :
    InCallThroughout caller machine (operation :: rest) := by
  intro earlier later split
  cases earlier with
  | nil => exact inCall.depth_lt
  | cons first earlier =>
      obtain ⟨rfl, remaining⟩ := List.cons.inj split
      exact others earlier later remaining

/-- A history goes on inside a call, or some cycle of it is the first to return from it. -/
theorem InCall.after (wellFormed : machine.WellFormed) (inCall : InCall caller machine)
    {history : List Operation} (ambient : ∀ operation ∈ history, operation.isAmbient) :
    InCallThroughout caller machine history ∨
      ∃ earlier later, history = earlier ++ .cycle :: later ∧
        InCallThroughout caller machine earlier ∧ Returns caller (machine.after earlier) := by
  induction history generalizing machine with
  | nil => exact .inl inCall.throughout_nil
  | cons operation rest ih =>
      obtain ⟨first, others⟩ := List.forall_mem_cons.mp ambient
      rcases inCall.operate wellFormed first with still | ⟨rfl, returns⟩
      · rcases ih (wellFormed.operate operation) still others with
          throughout | ⟨earlier, later, split, throughout, returns⟩
        · exact .inl (inCall.throughout_cons throughout)
        · refine .inr ⟨operation :: earlier, later, ?_, inCall.throughout_cons throughout, returns⟩
          rw [split, List.cons_append]
      · exact .inr ⟨[], rest, rfl, inCall.throughout_nil, returns⟩

end

/-- Behind a call the stack stays deeper than the caller's until a return brings back what the
caller held, and the counter to the instruction behind the call. -/
theorem returns_of_call {caller : Machine} (reachable : caller.Reachable) {target : Address}
    (call : (Instruction.call target).word = caller.nextWord)
    (completed : caller.cycle.answer = .ok ()) {history : List Operation}
    (ambient : ∀ operation ∈ history, operation.isAmbient) :
    InCallThroughout caller caller.cycle.state history ∨
      ∃ earlier later, history = earlier ++ .cycle :: later ∧
        InCallThroughout caller caller.cycle.state earlier ∧
        Returns caller (caller.cycle.state.after earlier) :=
  (inCall_of_call reachable.wellFormed call completed).after reachable.wellFormed.cycle ambient

/-- A machine about to call a subroutine that calls another one, which rewrites the word behind
the first call. -/
def nester : Machine :=
  (assemble .plain (.scripted [7] 0) false).1.after
    [.loadRom [0x22, 0x04, 0x00, 0x00, 0x22, 0x08, 0x00, 0xee, 0xa2, 0x02, 0xf0, 0x55, 0x00, 0xee]]

theorem returns_of_call_nester :
    let history : List Operation :=
      [.cycle, .tick, .cycle, .setKey 3 true, .cycle, .cycle, .cycle, .cycle]
    (∀ operation ∈ history, operation.isAmbient) ∧
    (Instruction.call 0x204).word = nester.nextWord ∧ nester.stack.depth = 0 ∧
    (nester.cycle.state.after [.cycle]).stack.depth = 2 ∧
    ∃ earlier later, history = earlier ++ .cycle :: later ∧
      InCallThroughout nester nester.cycle.state earlier ∧
      Returns nester (nester.cycle.state.after earlier) := by
  intro history
  have ambient : ∀ operation ∈ history, operation.isAmbient := by decide
  obtain ⟨call, completed, empty, nested, returned⟩ :
      (Instruction.call 0x204).word = nester.nextWord ∧
      nester.cycle.answer.toOption = some () ∧ nester.stack.depth = 0 ∧
      (nester.cycle.state.after [.cycle]).stack.depth = 2 ∧
      (nester.cycle.state.after history).stack.depth = 0 := by decide +kernel
  have reachable : nester.Reachable := Reachable.after (.assembled _ _ _) _
  rcases returns_of_call reachable call (answer_eq_ok completed) ambient with
    throughout | returns
  · have deeper := throughout history [] rfl
    rw [empty, returned] at deeper
    cases deeper
  · exact ⟨ambient, call, empty, nested, returns⟩

end Machine

end Chip8
