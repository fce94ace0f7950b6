import Chip8.Proofs.Results
import Chip8.Scheduler.Run

/-!
# Bounds on passes

A run that is over under one bound on its passes comes to the same world and the same answer under
every higher bound, whatever its polls ask for. So an outcome other than the bound itself belongs
to the run and not to the bound.
-/

set_option autoImplicit false

namespace Chip8.World

variable {η : Type}

/-- A further way to run does what another one does, wherever that one comes to an end. -/
def Extends (run further : Bool → World η → Turn η Nat) : Prop :=
  ∀ paused world, (run paused world).answer ≠ .error .exhausted →
    further paused world = run paused world

section

variable {run further : Bool → World η → Turn η Nat} (extends_ : Extends run further)
  (host : Host η)

include extends_

theorem perform_of_extends (request : Request) (world : World η)
    (complete : (world.perform host run request).answer ≠ .error .exhausted) :
    world.perform host further request = world.perform host run request := by
  cases request with
  | run paused =>
      have ended : (run paused world).answer ≠ .error .exhausted :=
        fun bounded => complete (map_eq_error_iff.mpr bounded)
      simp only [perform, extends_ paused world ended]
  | _ => rfl

theorem converse_of_extends (visit : Visit η) (world : World η)
    (complete : (world.converse host run visit).answer ≠ .error .exhausted) :
    world.converse host further visit = world.converse host run visit := by
  induction visit generalizing world with
  | leave | fail => rfl
  | consult next ih => exact ih world world complete
  | update change next ih => exact ih { world with host := change world.host } complete
  | ask request next ih =>
      have performed : (world.perform host run request).answer ≠ .error .exhausted := by
        intro bounded
        apply complete
        simp only [converse, bounded]
      simp only [converse, perform_of_extends extends_ host request world performed] at complete ⊢
      split
      case h_1 answer answered =>
        rw [answered] at complete
        exact ih _ _ complete
      case h_2 cause failed =>
        rw [failed] at complete
        exact ih _ _ complete
      case h_3 bounded => exact absurd bounded performed

theorem attend_of_extends (now : Float) (world : World η)
    (complete : (world.attend host run now).answer ≠ .error .exhausted) :
    world.attend host further now = world.attend host run now := by
  unfold attend at complete ⊢
  split
  case isFalse => rfl
  case isTrue due =>
    rw [if_pos due] at complete
    dsimp only at complete ⊢
    rw [converse_of_extends extends_ host]
    intro bounded
    simp only [bounded, ne_eq, not_true_eq_false] at complete

theorem slice_of_extends (world : World η)
    (complete : (world.slice host run).answer ≠ .error .exhausted) :
    world.slice host further = world.slice host run := by
  unfold slice at complete ⊢
  dsimp only at complete ⊢
  split
  case isTrue => rfl
  case isFalse on =>
    rw [if_neg on] at complete
    rw [attend_of_extends extends_ host]
    intro bounded
    simp only [bounded, ne_eq, not_true_eq_false] at complete

theorem loop_of_extends {passes more : Nat} (le : passes ≤ more) (world : World η)
    (complete : (world.loop host run passes).answer ≠ .error .exhausted) :
    world.loop host further more = world.loop host run passes := by
  induction passes generalizing world more with
  | zero => exact absurd rfl complete
  | succ passes ih =>
      obtain ⟨more, rfl⟩ := Nat.exists_eq_add_of_lt le
      have sliced : (world.slice host run).answer ≠ .error .exhausted := by
        intro bounded
        apply complete
        simp only [loop, bounded]
      simp only [loop, slice_of_extends extends_ host world sliced] at complete ⊢
      split
      · rfl
      · rfl
      case h_3 onward =>
        rw [onward] at complete
        exact ih (Nat.le_add_right passes more) _ complete

end

/-- A higher bound changes nothing about a run that is over. -/
theorem extends_run (host : Host η) {passes more : Nat} (le : passes ≤ more) :
    Extends (World.run host passes) (World.run host more) := by
  induction passes generalizing more with
  | zero =>
      intro paused world complete
      cases begun : (world.begin host paused).answer with
      | ok _ => exact absurd (by simp only [World.run, begun]; rfl) complete
      | error cause =>
          cases more with
          | zero => rfl
          | succ more =>
              simp only [World.run, begun]
              rfl
  | succ passes ih =>
      intro paused world complete
      obtain ⟨more, rfl⟩ := Nat.exists_eq_add_of_lt le
      have fewer := Nat.le_add_right passes more
      simp only [World.run] at complete ⊢
      split
      case h_1 => rfl
      case h_2 begun =>
        rw [begun] at complete
        rw [loop_of_extends (ih fewer) host fewer]
        intro bounded
        apply complete
        simp only [finish, bounded]

end Chip8.World
