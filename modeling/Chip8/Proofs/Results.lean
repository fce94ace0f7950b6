/-!
# Results of operations that can fail

An operation in several parts succeeds if each of its parts does, and fails
with the first failure among them. What every step of a fold keeps, the fold
keeps.
-/

set_option autoImplicit false

namespace Chip8

variable {ε α β : Type} {result : Except ε α} {next : α → Except ε β}

theorem of_bind {final : β} (ran : (result >>= next) = .ok final) :
    ∃ value, result = .ok value ∧ next value = .ok final := by
  cases result with
  | error cause => cases ran
  | ok value => exact ⟨value, rfl, ran⟩

theorem failure_of_bind {cause : ε} (failed : (result >>= next) = .error cause) :
    result = .error cause ∨ ∃ value, result = .ok value ∧ next value = .error cause := by
  cases result with
  | error first =>
      cases failed
      exact .inl rfl
  | ok value => exact .inr ⟨value, rfl, failed⟩

theorem map_eq_error_iff {cause : ε} {change : α → β} :
    result.map change = .error cause ↔ result = .error cause := by
  cases result with
  | error first =>
      constructor
      · intro failed
        cases failed
        rfl
      · intro failed
        cases failed
        rfl
  | ok value => exact iff_of_false nofun nofun

theorem error_not_ok (cause : ε) : ¬∃ value, (Except.error cause : Except ε α) = .ok value :=
  nofun

theorem exists_map_eq_ok_iff {change : α → β} :
    (∃ value, result.map change = .ok value) ↔ ∃ value, result = .ok value := by
  cases result with
  | error cause => exact iff_of_false (error_not_ok cause) (error_not_ok cause)
  | ok value => exact iff_of_true ⟨change value, rfl⟩ ⟨value, rfl⟩

section

variable {other : Type} {change : ε → other}

theorem mapError_ok {value : α} : (Except.ok value).mapError change = .ok value := rfl

theorem of_mapError {value : α} (ran : result.mapError change = .ok value) :
    result = .ok value := by
  cases result with
  | error cause => cases ran
  | ok _ =>
      cases ran
      rfl

theorem failure_of_mapError {cause : other} (failed : result.mapError change = .error cause) :
    ∃ first, result = .error first ∧ change first = cause := by
  cases result with
  | error first =>
      cases failed
      exact ⟨first, rfl, rfl⟩
  | ok value => cases failed

end

section

variable {step : β → α → Except ε β} {items : List α} {state : β}

theorem of_foldlM {final : β} (folded : items.foldlM step state = .ok final)
    (invariant : β → Prop) (start : invariant state)
    (next : ∀ item ∈ items, ∀ before after, invariant before →
      step before item = .ok after → invariant after) : invariant final := by
  induction items generalizing state with
  | nil =>
      cases folded
      exact start
  | cons item rest ih =>
      obtain ⟨first, others⟩ := List.forall_mem_cons.mp next
      rw [List.foldlM_cons] at folded
      obtain ⟨after, stepped, ran⟩ := of_bind folded
      exact ih ran (first state after start stepped) others

theorem foldlM_of_step {invariant : β → Prop}
    (next : ∀ state item, invariant state →
      ∃ following, step state item = .ok following ∧ invariant following)
    (items : List α) (start : invariant state) :
    ∃ final, items.foldlM step state = .ok final ∧ invariant final := by
  induction items generalizing state with
  | nil => exact ⟨state, rfl, start⟩
  | cons item rest ih =>
      obtain ⟨following, stepped, kept⟩ := next state item start
      obtain ⟨final, folded, last⟩ := ih kept
      refine ⟨final, ?_, last⟩
      rw [List.foldlM_cons, stepped]
      exact folded

theorem mapM_of_each {yield : α → Except ε β} {holds : β → Prop}
    (each : ∀ item ∈ items, ∃ value, yield item = .ok value ∧ holds value) :
    ∃ values, items.mapM yield = .ok values ∧ ∀ value ∈ values, holds value := by
  induction items with
  | nil => exact ⟨[], rfl, List.forall_mem_nil _⟩
  | cons item rest ih =>
      obtain ⟨⟨value, first, held⟩, later⟩ := List.forall_mem_cons.mp each
      obtain ⟨values, others, all⟩ := ih later
      refine ⟨value :: values, ?_, List.forall_mem_cons.mpr ⟨held, all⟩⟩
      rw [List.mapM_cons, first, others]
      rfl

end

end Chip8
