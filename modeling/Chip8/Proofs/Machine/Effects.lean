import Chip8.Proofs.Machine.Footprint
import Chip8.Proofs.Machine.History

/-!
# What machines tell

A machine shows itself by pixels and sound. Only a cycle prints, and no
operation touches the size of the picture, shows it or reports rates.
-/

set_option autoImplicit false

namespace Chip8

namespace Signal

def isPixel : Signal → Bool
  | pixel .. => true
  | _ => false

def isSound : Signal → Bool
  | beep _ | buzzer _ => true
  | _ => false

def isEffect : Signal → Bool
  | pixel .. | beep _ | buzzer _ => true
  | resolution .. | refresh _ | rates .. | line _ => false

theorem isEffect_of_isPixel {signal : Signal} (pixel : signal.isPixel = true) :
    signal.isEffect = true := by
  cases signal with
  | pixel => rfl
  | _ => cases pixel

theorem isSound_of_isPixel {signal : Signal} (pixel : signal.isPixel = true) :
    signal.isSound = false := by
  cases signal with
  | pixel => rfl
  | _ => cases pixel

end Signal

namespace Screen

theorem isPixel_toggle (screen : Screen) (x y : Int) :
    ∀ signal ∈ (screen.toggle x y).signals, signal.isPixel = true := by
  intro signal member
  unfold toggle at member
  split at member
  · cases member
  · split at member
    · cases member
    · simp only at member
      split at member
      · cases member
      · split at member
        · rw [List.mem_singleton.mp member]
          rfl
        · rw [List.mem_singleton.mp member]
          rfl

theorem isPixel_toggleAll (screen : Screen) (positions : List (Int × Int)) :
    ∀ signal ∈ (screen.toggleAll positions).signals, signal.isPixel = true := by
  induction positions generalizing screen with
  | nil => exact List.forall_mem_nil _
  | cons position rest ih =>
      obtain ⟨x, y⟩ := position
      have first := screen.isPixel_toggle x y
      simp only [toggleAll]
      split
      · exact first
      · exact List.forall_mem_append.mpr ⟨first, ih _⟩

theorem isPixel_clear (screen : Screen) :
    ∀ signal ∈ screen.clear.signals, signal.isPixel = true := by
  intro signal member
  unfold clear at member
  split at member
  · cases member
  · obtain ⟨_, _, rfl⟩ := List.mem_map.mp member
    rfl

end Screen

namespace Machine

variable {machine next : Machine} {instruction : Instruction} {told : List Signal}

theorem isPixel_execute (executed : machine.execute instruction = .ok (next, told))
    (other : ∀ x, instruction ≠ .setSound x) : ∀ signal ∈ told, signal.isPixel = true := by
  cases instruction with
  | setSound x => exact absurd rfl (other x)
  | clearScreen =>
      obtain ⟨_, rfl⟩ := of_clearScreen executed
      exact machine.screen.isPixel_clear
  | draw =>
      obtain ⟨positions, _, _, rfl⟩ := of_drawSprite executed
      exact machine.screen.isPixel_toggleAll positions
  | _ =>
      rw [(of_silent executed).2]
      exact List.forall_mem_nil _

theorem isEffect_execute (executed : machine.execute instruction = .ok (next, told)) :
    ∀ signal ∈ told, signal.isEffect = true := by
  intro signal member
  cases instruction with
  | setSound x =>
      cases executed
      rcases List.mem_append.mp member with beep | buzzer
      · split at beep
        · rw [List.mem_singleton.mp beep]
          rfl
        · cases beep
      · rw [List.mem_singleton.mp buzzer]
        rfl
  | _ => exact Signal.isEffect_of_isPixel (isPixel_execute executed nofun signal member)

theorem line_of_liveLines (machine : Machine) (instruction : Instruction) :
    ∀ signal ∈ machine.liveLines instruction, ∃ text, signal = .line text := by
  intro signal member
  simp only [liveLines] at member
  split at member
  · exact ⟨_, List.mem_singleton.mp member⟩
  · cases member

theorem signals_perform (machine : Machine) :
    ∀ signal ∈ machine.perform.signals, signal.isEffect = true ∨ ∃ text, signal = .line text := by
  intro signal member
  unfold perform at member
  split at member
  · cases member
  · split at member
    · exact .inr (machine.line_of_liveLines _ signal member)
    case h_2 executed =>
      rcases List.mem_append.mp member with line | effect
      · exact .inr (machine.line_of_liveLines _ signal line)
      · exact .inl (isEffect_execute executed signal effect)

theorem effect_or_line_of_cycle (machine : Machine) :
    ∀ signal ∈ machine.cycle.signals, signal.isEffect = true ∨ ∃ text, signal = .line text := by
  cases fetch : machine.fetch with
  | error cause =>
      simp only [cycle, fetch]
      exact List.forall_mem_nil _
  | ok opcode =>
      rw [signals_cycle fetch]
      exact signals_perform _

theorem isEffect_reset (machine : Machine) :
    ∀ signal ∈ machine.reset.2, signal.isEffect = true := by
  intro signal member
  rcases List.mem_append.mp member with cleared | buzzer
  · exact Signal.isEffect_of_isPixel (machine.screen.isPixel_clear signal cleared)
  · rw [List.mem_singleton.mp buzzer]
    rfl

theorem isEffect_tick (machine : Machine) :
    ∀ signal ∈ machine.tick.2.1, signal.isEffect = true := by
  intro signal member
  simp only [tick] at member
  split at member
  · rw [List.mem_singleton.mp member]
    rfl
  · cases member

theorem isEffect_operate {operation : Operation} (other : operation ≠ .cycle) :
    ∀ signal ∈ (machine.operate operation).signals, signal.isEffect = true := by
  cases operation with
  | reset => exact machine.isEffect_reset
  | loadRom rom =>
      obtain ⟨_, _, signals⟩ := machine.operate_loadRom rom
      rw [signals]
      exact machine.isEffect_reset
  | setKey number pressed =>
      obtain ⟨_, _, signals⟩ := machine.operate_setKey number pressed
      rw [signals]
      exact List.forall_mem_nil _
  | tick => exact machine.isEffect_tick
  | cycle => exact absurd rfl other
  | setDialect dialect => exact List.forall_mem_nil _

theorem effect_or_line_of_operate (operation : Operation) :
    ∀ signal ∈ (machine.operate operation).signals,
      signal.isEffect = true ∨ ∃ text, signal = .line text := by
  by_cases cycles : operation = .cycle
  · rw [cycles]
    exact machine.effect_or_line_of_cycle
  · exact fun signal member => .inl (isEffect_operate cycles signal member)

end Machine

end Chip8
