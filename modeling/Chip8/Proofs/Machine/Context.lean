import Chip8.Machine.Cycle

/-!
# Contexts of machines

A program works on its registers, index, counter, memory, stack, screen and
random bytes. The rest of a machine is the context in which it runs: the keys,
the dialect and the printing of lines belong to the host, the timers to both,
and the record of the last cycle to nobody. An instruction that makes the same
of two contexts does the same in both and leaves them as different as they were.
-/

set_option autoImplicit false

namespace Chip8

structure Context where
  keypad : Keypad
  dialect : Dialect
  live : Bool
  delay : Int
  sound : Int
  opcode : Int
  origin : Int
  cycles : Nat
  awaitingKey : Bool

namespace Machine

def context (machine : Machine) : Context where
  keypad := machine.keypad
  dialect := machine.dialect
  live := machine.live
  delay := machine.processor.delay
  sound := machine.processor.sound
  opcode := machine.processor.opcode
  origin := machine.processor.origin
  cycles := machine.processor.cycles
  awaitingKey := machine.processor.awaitingKey

/-- The program of a machine in another context. -/
def under (machine : Machine) (context : Context) : Machine :=
  { machine with
    keypad := context.keypad
    dialect := context.dialect
    live := context.live
    processor := { machine.processor with
      delay := context.delay
      sound := context.sound
      opcode := context.opcode
      origin := context.origin
      cycles := context.cycles
      awaitingKey := context.awaitingKey } }

@[simp] theorem context_under (machine : Machine) (context : Context) :
    (machine.under context).context = context :=
  rfl

@[simp] theorem under_context (machine : Machine) : machine.under machine.context = machine := rfl

@[simp] theorem under_under (machine : Machine) (first second : Context) :
    (machine.under first).under second = machine.under second :=
  rfl

end Machine

/-- The instruction makes the same of a context as of that of the machine. -/
def Instruction.Agrees (machine : Machine) (context : Context) : Instruction → Prop
  | bitOr .. | bitAnd .. | bitXor .. => context.dialect.logic = machine.dialect.logic
  | shiftRight x y | shiftLeft x y => (machine.under context).shifted x y = machine.shifted x y
  | jumpOffset target => (machine.under context).offset target = machine.offset target
  | storeBlock _ | loadBlock _ => context.dialect.load = machine.dialect.load
  | skipIfDown _ | skipIfUp _ | awaitKey _ => context.keypad = machine.keypad
  | readDelay _ => context.delay = machine.processor.delay
  | setSound _ => context.sound = machine.processor.sound
  | clearScreen | ret | jump _ | call _ | skipIfByte .. | skipUnlessByte .. | skipIfSame ..
  | loadByte .. | addByte .. | copy .. | add .. | subtract .. | subtractFrom ..
  | skipUnlessSame .. | loadIndex _ | random .. | draw .. | setDelay _ | addIndex _
  | pointGlyph _ | storeDecimal _ => True

/-- A context after an instruction of a machine: three of them write to it. -/
def Context.after (context : Context) (machine : Machine) : Instruction → Context
  | .setDelay x => { context with delay := (machine.register x).toNat }
  | .setSound x => { context with sound := (machine.register x).toNat }
  | .awaitKey _ => { context with awaitingKey := machine.keypad.first?.isNone }
  | _ => context

theorem Context.after_eq (context : Context) (machine : Machine) (instruction : Instruction) :
    ∃ delay sound awaitingKey, context.after machine instruction =
      { context with delay := delay, sound := sound, awaitingKey := awaitingKey } := by
  cases instruction with
  | _ => exact ⟨_, _, _, rfl⟩

namespace Machine

section

variable (machine : Machine) (context : Context)

@[simp] theorem memory_under : (machine.under context).memory = machine.memory := rfl

@[simp] theorem screen_under : (machine.under context).screen = machine.screen := rfl

@[simp] theorem index_under :
    (machine.under context).processor.index = machine.processor.index :=
  rfl

@[simp] theorem register_under (x : Register) :
    (machine.under context).register x = machine.register x :=
  rfl

@[simp] theorem indexed_under (places : Nat) :
    (machine.under context).indexed places = machine.indexed places :=
  rfl

theorem skipIf_under (condition : Bool) :
    (machine.under context).skipIf condition = (machine.skipIf condition).under context := by
  cases condition with
  | false => rfl
  | true => rfl

theorem setBitwise_under (same : context.dialect.logic = machine.dialect.logic) (x : Register)
    (value : UInt8) :
    (machine.under context).setBitwise x value = (machine.setBitwise x value).under context := by
  simp only [setBitwise, under, same]
  split
  · rfl
  · rfl

theorem passBlock_under (same : context.dialect.load = machine.dialect.load) (x : Register) :
    (machine.under context).passBlock x = (machine.passBlock x).under context := by
  simp only [passBlock, under, same]
  split
  · rfl
  · rfl

theorem callTo_under (target : Address) :
    (machine.under context).callTo target = (machine.callTo target).map (·.under context) := by
  simp only [callTo, under]
  cases machine.stack.push machine.processor.counter with
  | error cause => rfl
  | ok stack => rfl

theorem returnBack_under :
    (machine.under context).returnBack = machine.returnBack.map (·.under context) := by
  simp only [returnBack, under]
  cases machine.stack.pop with
  | error cause => rfl
  | ok popped => rfl

theorem storeDelay_under (same : context.delay = machine.processor.delay) (x : Register) :
    (machine.under context).storeDelay x = (machine.storeDelay x).map (·.under context) := by
  simp only [storeDelay, under, same]
  split
  · rfl
  · rfl

theorem answerKey_under (same : context.keypad = machine.keypad) (x : Register) :
    (machine.under context).answerKey x =
      (machine.answerKey x).under (context.after machine (.awaitKey x)) := by
  simp only [answerKey, under, same, Context.after]
  cases machine.keypad.first? with
  | none => rfl
  | some key => rfl

theorem drawSprite_under (x y : Register) (rows : Nat) :
    (machine.under context).drawSprite x y rows =
      (machine.drawSprite x y rows).map fun drawn => (drawn.1.under context, drawn.2) := by
  have sprite : (machine.under context).sprite rows = machine.sprite rows := rfl
  simp only [drawSprite, sprite, register_under, screen_under, bind, Except.bind]
  cases machine.sprite rows with
  | error cause => rfl
  | ok bytes =>
      simp only
      split
      · rfl
      · rfl

theorem storeDigits_under (value : Nat) :
    (machine.under context).storeDigits value =
      (machine.storeDigits value).map (·.under context) := by
  simp only [storeDigits, memory_under, index_under, indexed_under, bind, Except.bind]
  split
  · rfl
  · split
    · rfl
    · split
      · rfl
      · rfl

theorem storeRegisters_under (same : context.dialect.load = machine.dialect.load) (x : Register) :
    (machine.under context).storeRegisters x =
      (machine.storeRegisters x).map (·.under context) := by
  simp only [storeRegisters, memory_under, register_under, indexed_under, bind, Except.bind]
  split
  · rfl
  · next memory _ =>
      exact congrArg Except.ok (passBlock_under { machine with memory := memory } context same x)

def blockLoaded (x : Register) : Except Fault (Vector UInt8 16) :=
  (registersTo x).foldlM
    (fun (registers : Vector UInt8 16) (y : Register) =>
      (machine.memory.read (machine.indexed y)).map (registers.setIfInBounds y ·))
    machine.processor.registers

theorem loadRegisters_eq (x : Register) :
    machine.loadRegisters x =
      (machine.blockLoaded x).map fun registers =>
        { machine with processor.registers := registers }.passBlock x := by
  have folded (block : List Register) (registers : Vector UInt8 16) :
      block.foldlM
        (fun (loaded : Machine) (y : Register) =>
          (machine.memory.read (machine.indexed y)).map (loaded.setRegister y))
        { machine with processor.registers := registers } =
      (block.foldlM
        (fun (registers : Vector UInt8 16) (y : Register) =>
          (machine.memory.read (machine.indexed y)).map (registers.setIfInBounds y ·))
        registers).map fun registers => { machine with processor.registers := registers } := by
    induction block generalizing registers with
    | nil => rfl
    | cons y rest ih =>
        simp only [List.foldlM_cons, bind, Except.bind]
        cases machine.memory.read (machine.indexed y) with
        | error cause => rfl
        | ok byte =>
            have within : registers.setIfInBounds y byte = registers.set y byte := by
              simp [Vector.setIfInBounds, Array.setIfInBounds, Vector.set]
            simp only [Except.map, within]
            exact ih (registers.set y byte)
  have loaded := folded (registersTo x) machine.processor.registers
  change _ = (machine.blockLoaded x).map _ at loaded
  simp only [loadRegisters, loaded]
  cases machine.blockLoaded x with
  | error cause => rfl
  | ok registers => rfl

theorem loadRegisters_under (same : context.dialect.load = machine.dialect.load) (x : Register) :
    (machine.under context).loadRegisters x =
      (machine.loadRegisters x).map (·.under context) := by
  have loaded : (machine.under context).blockLoaded x = machine.blockLoaded x := rfl
  simp only [loadRegisters_eq, loaded]
  cases machine.blockLoaded x with
  | error cause => rfl
  | ok registers =>
      exact congrArg Except.ok (passBlock_under
        { machine with processor.registers := registers } context same x)

theorem silent_map (result : Except Fault Machine) (change : Machine → Machine) :
    silent (result.map change) = (silent result).map fun ran => (change ran.1, ran.2) := by
  cases result with
  | error cause => rfl
  | ok next => rfl

theorem of_silent {result : Except Fault Machine} {next : Machine} {told : List Signal}
    (ran : silent result = .ok (next, told)) : result = .ok next ∧ told = [] := by
  cases result with
  | error cause => cases ran
  | ok final =>
      cases ran
      exact ⟨rfl, rfl⟩

/-- An instruction that makes the same of two contexts does the same in both. -/
theorem execute_under {instruction : Instruction} (agrees : instruction.Agrees machine context) :
    (machine.under context).execute instruction =
      (machine.execute instruction).map fun ran =>
        (ran.1.under (context.after machine instruction), ran.2) := by
  cases instruction with
  | clearScreen =>
      simp only [execute, screen_under, bind, Except.bind]
      split
      · rfl
      · rfl
  | ret => exact (congrArg silent (machine.returnBack_under context)).trans (silent_map _ _)
  | call target =>
      exact (congrArg silent (machine.callTo_under context target)).trans (silent_map _ _)
  | skipIfByte | skipUnlessByte | skipIfSame | skipUnlessSame =>
      exact congrArg (fun next => silent (.ok next)) (machine.skipIf_under context _)
  | skipIfDown | skipIfUp =>
      have keypad : (machine.under context).keypad = machine.keypad := agrees
      simp only [execute, namedKey, keypad, register_under]
      exact congrArg (fun next => silent (.ok next)) (machine.skipIf_under context _)
  | bitOr | bitAnd | bitXor =>
      exact congrArg (fun next => silent (.ok next)) (machine.setBitwise_under context agrees _ _)
  | shiftRight x y | shiftLeft x y =>
      have shifted : (machine.under context).shifted x y = machine.shifted x y := agrees
      simp only [execute, shifted]
      rfl
  | jumpOffset target =>
      have offset : (machine.under context).offset target = machine.offset target := agrees
      simp only [execute, offset]
      rfl
  | draw x y rows => exact machine.drawSprite_under context x y rows
  | readDelay x =>
      exact (congrArg silent (machine.storeDelay_under context agrees x)).trans (silent_map _ _)
  | awaitKey x =>
      exact congrArg (fun next => silent (.ok next)) (machine.answerKey_under context agrees x)
  | setSound x =>
      have sound : (machine.under context).processor.sound = machine.processor.sound := agrees
      simp only [execute, startSound, sound, register_under]
      rfl
  | storeDecimal =>
      exact (congrArg silent (machine.storeDigits_under context _)).trans (silent_map _ _)
  | storeBlock =>
      exact (congrArg silent (machine.storeRegisters_under context agrees _)).trans
        (silent_map _ _)
  | loadBlock =>
      exact (congrArg silent (machine.loadRegisters_under context agrees _)).trans
        (silent_map _ _)
  | _ => rfl

end

variable {machine next : Machine} {instruction : Instruction} {told : List Signal}

theorem agrees_context (machine : Machine) (instruction : Instruction) :
    instruction.Agrees machine machine.context := by
  cases instruction with
  | bitOr | bitAnd | bitXor | shiftRight | shiftLeft | jumpOffset | storeBlock | loadBlock
  | skipIfDown | skipIfUp | awaitKey | readDelay | setSound => rfl
  | _ => trivial

/-- An instruction leaves the context alone, but for the three that write to it. -/
theorem context_execute (executed : machine.execute instruction = .ok (next, told)) :
    next.context = machine.context.after machine instruction := by
  have same := machine.execute_under machine.context (machine.agrees_context instruction)
  rw [under_context, executed] at same
  have states := congrArg Prod.fst (Except.ok.inj same)
  exact congrArg context states

theorem context_execute_eq (executed : machine.execute instruction = .ok (next, told)) :
    ∃ delay sound awaitingKey, next.context =
      { machine.context with delay := delay, sound := sound, awaitingKey := awaitingKey } := by
  rw [context_execute executed]
  exact machine.context.after_eq machine instruction

theorem context_perform (machine : Machine) :
    ∃ delay sound awaitingKey, machine.perform.state.context =
      { machine.context with delay := delay, sound := sound, awaitingKey := awaitingKey } := by
  unfold perform
  cases Instruction.decode? machine.processor.opcode with
  | none => exact ⟨_, _, _, rfl⟩
  | some instruction =>
      simp only
      cases executed : machine.execute instruction with
      | error cause => exact ⟨_, _, _, rfl⟩
      | ok ran => exact context_execute_eq executed

/-- A cycle leaves the keys, the dialect and the printing to the host, and remembers where it
fetched. -/
theorem context_cycle (machine : Machine) :
    ∃ delay sound opcode cycles awaitingKey, machine.cycle.state.context =
      { machine.context with
        delay := delay
        sound := sound
        opcode := opcode
        origin := machine.processor.counter
        cycles := cycles
        awaitingKey := awaitingKey } := by
  cases fetched : machine.fetch with
  | error cause =>
      simp only [cycle, fetched]
      exact ⟨_, _, _, _, _, rfl⟩
  | ok opcode =>
      obtain ⟨delay, sound, awaitingKey, same⟩ := (machine.fetched opcode).context_perform
      have counted (final : Machine) :
          Machine.context { final with processor.cycles := final.processor.cycles + 1 } =
            { final.context with cycles := final.context.cycles + 1 } := rfl
      rw [state_cycle fetched]
      split
      · rw [counted, same]
        exact ⟨_, _, _, _, _, rfl⟩
      · rw [same]
        exact ⟨_, _, _, _, _, rfl⟩

end Machine

end Chip8
