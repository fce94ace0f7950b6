import Chip8.Proofs.Machine.Footprint
import Chip8.Proofs.Machine.History
import Chip8.Proofs.Mirror

/-!
# Displays of machines

An instruction changes the screen only by blanking it or by turning cells over,
and tells the host exactly the signals of that. So whatever a host does with a
machine, a display that mirrors the screen goes on mirroring it.
-/

set_option autoImplicit false

namespace Chip8.Machine

/-- What an instruction has done to the screen, and what it has told the display of it. -/
inductive Draws (screen : Screen) : Screen → List Signal → Prop where
  | nothing {signals : List Signal} (ignored : ∀ signal ∈ signals, Display.Ignores signal) :
      Draws screen screen signals
  | blanked : Draws screen screen.clear.state screen.clear.signals
  | toggled (positions : List (Int × Int)) :
      Draws screen (screen.toggleAll positions).state (screen.toggleAll positions).signals

theorem startSound_draws (machine : Machine) (ticks : UInt8) :
    Draws machine.screen (machine.startSound ticks).1.screen (machine.startSound ticks).2 := by
  refine .nothing fun signal member => ?_
  rcases List.mem_append.mp member with beep | buzzer
  · split at beep
    · rw [List.mem_singleton.mp beep]
      trivial
    · cases beep
  · rw [List.mem_singleton.mp buzzer]
    trivial

theorem execute_draws {machine next : Machine} {instruction : Instruction}
    {signals : List Signal} (executed : machine.execute instruction = .ok (next, signals)) :
    Draws machine.screen next.screen signals := by
  cases instruction with
  | clearScreen =>
      obtain ⟨rfl, rfl⟩ := of_clearScreen executed
      exact .blanked
  | draw =>
      obtain ⟨positions, hit, rfl, rfl⟩ := of_drawSprite executed
      exact .toggled positions
  | setSound x =>
      cases executed
      exact startSound_draws machine _
  | _ =>
      rw [(footprint_execute executed).screen rfl, (of_silent executed).2]
      exact .nothing (List.forall_mem_nil _)

theorem ignores_liveLines (machine : Machine) (instruction : Instruction) :
    ∀ signal ∈ machine.liveLines instruction, Display.Ignores signal := by
  intro signal member
  simp only [liveLines] at member
  split at member
  · rw [List.mem_singleton.mp member]
    trivial
  · cases member

end Chip8.Machine

namespace Chip8.Display.Mirrors

open Machine

variable {display : Display} {machine : Machine}

theorem draws {screen next : Screen} {signals : List Signal} (mirrors : display.Mirrors screen)
    (drawn : Draws screen next signals) : (display.receiveAll signals).Mirrors next := by
  cases drawn with
  | nothing ignored => exact mirrors.ignore ignored
  | blanked => exact mirrors.clear
  | toggled positions => exact mirrors.toggleAll positions

variable (mirrors : display.Mirrors machine.screen)

include mirrors

theorem perform :
    (display.receiveAll machine.perform.signals).Mirrors machine.perform.state.screen := by
  simp only [Machine.perform]
  split
  case h_1 => exact mirrors
  case h_2 instruction _ =>
    have lines := mirrors.ignore (machine.ignores_liveLines instruction)
    cases executed : machine.execute instruction with
    | error cause => exact lines
    | ok result =>
        obtain ⟨next, signals⟩ := result
        simp only
        rw [receiveAll_append]
        exact lines.draws (execute_draws executed)

theorem cycle :
    (display.receiveAll machine.cycle.signals).Mirrors machine.cycle.state.screen := by
  simp only [Machine.cycle]
  split
  case h_1 => exact mirrors
  case h_2 opcode _ =>
    have fetched : display.Mirrors (machine.fetched opcode).screen := mirrors
    have performed := fetched.perform
    split
    · exact performed
    · exact performed

theorem reset : (display.receiveAll machine.reset.2).Mirrors machine.reset.1.screen := by
  have silenced : ∀ signal ∈ [Signal.buzzer false], Ignores signal := by simp [Ignores]
  simp only [Machine.reset]
  rw [receiveAll_append]
  exact mirrors.clear.ignore silenced

theorem operate (operation : Operation) :
    (display.receiveAll (machine.operate operation).signals).Mirrors
      (machine.operate operation).state.screen := by
  cases operation with
  | reset => exact mirrors.reset
  | loadRom rom =>
      obtain ⟨memory, state, signals⟩ := machine.operate_loadRom rom
      rw [state, signals]
      exact mirrors.reset
  | setKey number pressed =>
      obtain ⟨keypad, state, signals⟩ := machine.operate_setKey number pressed
      rw [state, signals]
      exact mirrors
  | tick =>
      simp only [Machine.operate, Machine.tick]
      refine mirrors.ignore fun signal member => ?_
      split at member
      · rw [List.mem_singleton.mp member]
        trivial
      · cases member
  | cycle => exact mirrors.cycle
  | setDialect => exact mirrors

end Chip8.Display.Mirrors
