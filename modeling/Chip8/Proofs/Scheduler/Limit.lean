import Chip8.Proofs.Machine.Reachable
import Chip8.Proofs.Scheduler.Slice

/-!
# Limits of runs

A run may be limited to so many instructions, and to so many in a row that leave
the counter where it was. The scheduler only compares two counts with the
limits. Here the counts are tied to the instructions that the run has executed:
it is stopped by the first one that brings it to a limit.
-/

set_option autoImplicit false

namespace Chip8

/-- The next instruction leaves the counter at its own address, and not because it waits for a
key. -/
def Machine.Idles (machine : Machine) : Prop :=
  machine.cycle.state.processor.counter = machine.processor.counter ∧
    ¬(machine.AtKeyWait ∧ ∀ key, machine.keypad.isDown key = false)

instance (machine : Machine) : Decidable machine.Idles := inferInstanceAs (Decidable (_ ∧ ¬(_ ∧ _)))

theorem Machine.Reachable.idled_cycle_iff {machine : Machine} (reachable : machine.Reachable) :
    World.idled machine.cycle.state = true ↔ machine.Idles := by
  have flag := reachable.awaitingKey_cycle_iff
  rw [World.idled, Bool.and_eq_true, beq_iff_eq, Bool.not_eq_true', ← Bool.not_eq_true, flag,
    machine.origin_cycle]
  rfl

/-- Of the instructions executed, each given by the machine that it met, the last so many idled. -/
def IdleFor (executed : List Machine) (count : Nat) : Prop :=
  count ≤ executed.length ∧ ∀ machine ∈ executed.drop (executed.length - count), machine.Idles

/-- How many instructions a run may execute, and how many that idle in a row. Zero is no limit. -/
structure Limits where
  cycles : Nat
  idle : Nat

def Limits.Reached (limits : Limits) (executed : List Machine) : Prop :=
  (0 < limits.cycles ∧ executed.length = limits.cycles) ∨
    (0 < limits.idle ∧ IdleFor executed limits.idle)

instance (executed : List Machine) (count : Nat) : Decidable (IdleFor executed count) :=
  inferInstanceAs (Decidable (_ ∧ _))

instance (limits : Limits) (executed : List Machine) : Decidable (limits.Reached executed) :=
  inferInstanceAs (Decidable (_ ∨ _))

section

variable {executed : List Machine} {machine : Machine} {limits : Limits}

theorem idleFor_zero : IdleFor executed 0 :=
  ⟨Nat.zero_le _, by simp⟩

theorem idleFor_concat_succ {count : Nat} :
    IdleFor (executed ++ [machine]) (count + 1) ↔ machine.Idles ∧ IdleFor executed count := by
  simp only [IdleFor, List.length_append, List.length_singleton, Nat.add_le_add_iff_right,
    Nat.add_sub_add_right]
  rw [List.drop_append_of_le_length (Nat.sub_le _ _)]
  simp only [List.forall_mem_append, List.forall_mem_singleton]
  constructor
  · rintro ⟨enough, earlier, last⟩
    exact ⟨last, enough, earlier⟩
  · rintro ⟨last, enough, earlier⟩
    exact ⟨enough, earlier, last⟩

theorem Limits.not_reached_nil : ¬limits.Reached [] := by
  simp only [Reached, IdleFor, List.length_nil]
  omega

theorem Limits.length_lt_of_unreached (limited : 0 < limits.cycles)
    (unreached : ∀ count ≤ executed.length, ¬limits.Reached (executed.take count)) :
    executed.length < limits.cycles := by
  refine Nat.lt_of_not_le ?_
  intro within
  exact unreached limits.cycles within (.inl ⟨limited, List.length_take_of_le within⟩)

end

/-- What a scheduler counts in a run, and the limits that it compares the counts with. -/
structure Tally where
  cycleLimit : Int
  idleLimit : Int
  cycles : Nat
  idleCycles : Nat
  discard : Bool

def Scheduler.tally (scheduler : Scheduler) : Tally where
  cycleLimit := scheduler.cycleLimit
  idleLimit := scheduler.idleLimit
  cycles := scheduler.cycles
  idleCycles := scheduler.idleCycles
  discard := scheduler.discard

namespace Tally

def next (tally : Tally) (idled : Bool) : Tally :=
  { tally with
    cycles := tally.cycles + 1
    idleCycles :=
      if tally.idleLimit = 0 then tally.idleCycles
      else if idled then tally.idleCycles + 1
      else 0 }

structure Counts (limits : Limits) (executed : List Machine) (tally : Tally) : Prop where
  cycleLimit : tally.cycleLimit = limits.cycles
  idleLimit : tally.idleLimit = limits.idle
  cycles : tally.cycles = executed.length
  idleCycles : 0 < limits.idle → ∀ count, count ≤ tally.idleCycles ↔ IdleFor executed count
  discard : tally.discard = false

theorem Counts.next {limits : Limits} {executed : List Machine} {tally : Tally}
    (counts : tally.Counts limits executed) {machine : Machine} {idled : Bool}
    (idles : idled = true ↔ machine.Idles) :
    (tally.next idled).Counts limits (executed ++ [machine]) where
  cycleLimit := counts.cycleLimit
  idleLimit := counts.idleLimit
  cycles := by
    rw [List.length_append, ← counts.cycles]
    rfl
  idleCycles := by
    intro limited count
    have unlimited : tally.idleLimit ≠ 0 := by
      rw [counts.idleLimit]
      omega
    cases count with
    | zero => exact iff_of_true (Nat.zero_le _) idleFor_zero
    | succ count =>
        rw [idleFor_concat_succ, ← idles, ← counts.idleCycles limited, Tally.next,
          if_neg unlimited]
        cases idled with
        | false => simp
        | true => simp
  discard := counts.discard

end Tally

namespace World

variable {η θ : Type}

theorem tally_count (world : World η) :
    world.count.scheduler.tally = world.scheduler.tally.next (idled world.machine) := by
  have limited (scheduler : Scheduler) : (limitCycles scheduler).tally = scheduler.tally := by
    unfold limitCycles
    split
    · rfl
    · rfl
  refine (limited _).trans ?_
  have unlimited : (countCycle world.scheduler).idleLimit = world.scheduler.tally.idleLimit := rfl
  rw [countIdle, Tally.next, unlimited]
  split
  · rfl
  · cases idled world.machine with
    | false => rfl
    | true => rfl

theorem countTimers_keeps (host : Host η) (now : Float) (world : World η) :
    (world.countTimers host now).scheduler.tally = world.scheduler.tally ∧
      (world.countTimers host now).scheduler.state = world.scheduler.state ∧
      (world.countTimers host now).machine.processor.cycles = world.machine.processor.cycles := by
  rw [countTimers_eq]
  exact ⟨rfl, rfl, rfl⟩

structure Progress (limits : Limits) (start : Nat) (executed : List Machine)
    (world : World η) : Prop where
  counts : world.scheduler.tally.Counts limits executed
  cycles : world.machine.processor.cycles = start + executed.length
  first : ∀ count < executed.length, ¬limits.Reached (executed.take count)
  stopped : world.scheduler.state = .stopped ↔ limits.Reached executed
  left : world.scheduler.state = .stopped →
    ∃ last, executed.getLast? = some last ∧ world.machine = last.cycle.state

theorem limitReached_iff {limits : Limits} {executed : List Machine} {machine : Machine}
    {world : World η} (counts : world.scheduler.tally.Counts limits (executed ++ [machine]))
    (idles : idled world.machine = true ↔ machine.Idles)
    (room : 0 < limits.cycles → executed.length < limits.cycles) :
    world.LimitReached ↔ limits.Reached (executed ++ [machine]) := by
  have cycleLimit : world.scheduler.cycleLimit = limits.cycles := counts.cycleLimit
  have idleLimit : world.scheduler.idleLimit = limits.idle := counts.idleLimit
  have cycles : world.scheduler.cycles = executed.length + 1 := by
    have counted := counts.cycles
    rw [List.length_append] at counted
    exact counted
  have byCycles : world.scheduler.cycleLimit ≠ 0 ∧
      world.scheduler.cycleLimit ≤ world.scheduler.cycles ↔
      0 < limits.cycles ∧ (executed ++ [machine]).length = limits.cycles := by
    rw [cycleLimit, cycles, List.length_append, List.length_singleton]
    omega
  -- The scheduler asks besides whether the last instruction idled, which a count above zero says.
  have byIdling : world.scheduler.idleLimit ≠ 0 ∧ idled world.machine = true ∧
      world.scheduler.idleLimit ≤ world.scheduler.idleCycles ↔
      0 < limits.idle ∧ IdleFor (executed ++ [machine]) limits.idle := by
    rw [idleLimit, idles]
    constructor
    · rintro ⟨limited, _, enough⟩
      have positive : 0 < limits.idle := by omega
      exact ⟨positive, (counts.idleCycles positive _).mp (Int.ofNat_le.mp enough)⟩
    · rintro ⟨positive, idle⟩
      have enough := (counts.idleCycles positive _).mpr idle
      obtain ⟨count, same⟩ := Nat.exists_eq_succ_of_ne_zero (Nat.ne_of_gt positive)
      rw [same] at idle
      exact ⟨by omega, (idleFor_concat_succ.mp idle).1, Int.ofNat_le.mpr enough⟩
  rw [LimitReached, Limits.Reached, byCycles, byIdling]
  exact Or.comm

namespace Progress

variable {limits : Limits} {start : Nat} {executed : List Machine} {world : World η}
  (progress : Progress limits start executed world)

include progress

/-- What neither counts nor stops makes no progress. -/
theorem change (live : world.scheduler.state ≠ .stopped) {after : World θ}
    (tally : after.scheduler.tally = world.scheduler.tally)
    (stillLive : after.scheduler.state ≠ .stopped)
    (cycles : after.machine.processor.cycles = world.machine.processor.cycles) :
    Progress limits start executed after where
  counts := by
    rw [tally]
    exact progress.counts
  cycles := cycles.trans progress.cycles
  first := progress.first
  stopped := iff_of_false stillLive (mt progress.stopped.mpr live)
  left := fun stopped => absurd stopped stillLive

theorem keep {after : World θ} (scheduler : after.scheduler = world.scheduler)
    (machine : after.machine = world.machine) : Progress limits start executed after where
  counts := by
    rw [scheduler]
    exact progress.counts
  cycles := by
    rw [machine]
    exact progress.cycles
  first := progress.first
  stopped := by
    rw [scheduler]
    exact progress.stopped
  left := by
    rw [scheduler, machine]
    exact progress.left

theorem sleepUntilDue (host : Host η) :
    Progress limits start executed (world.sleepUntilDue host) := by
  unfold World.sleepUntilDue
  split
  · simp only
    split
    · exact progress.keep rfl rfl
    · exact progress.keep rfl rfl
  · exact progress

theorem unreached (live : world.scheduler.state ≠ .stopped) (count : Nat)
    (within : count ≤ executed.length) : ¬limits.Reached (executed.take count) := by
  rcases Nat.lt_or_eq_of_le within with before | all
  · exact progress.first count before
  · rw [all, List.take_length]
    exact mt progress.stopped.mpr live

/-- The instruction that brings a run to a limit stops it, and no other does. -/
theorem execute (host : Host η) (live : world.scheduler.state ≠ .stopped)
    (reachable : world.machine.Reachable) (completed : world.machine.cycle.answer = .ok ()) :
    (world.execute host).answer = .ok () ∧
      Progress limits start (executed ++ [world.machine]) (world.execute host).world := by
  let adopted := ((world.tell host .cycle).adopt host world.machine.cycle).world
  have counting : world.execute host = ⟨adopted.count, .ok ()⟩ := by
    simp only [World.execute, adopt, adopted, completed]
    rfl
  have scheduler : adopted.scheduler = world.scheduler := scheduler_tellAll host _ _
  have machine : adopted.machine = world.machine.cycle.state := machine_tellAll host _ _
  have idles : idled adopted.machine = true ↔ world.machine.Idles := by
    rw [machine]
    exact reachable.idled_cycle_iff
  have counts : adopted.count.scheduler.tally.Counts limits (executed ++ [world.machine]) := by
    rw [tally_count, scheduler]
    exact progress.counts.next idles
  have unreached := progress.unreached live
  have reached := limitReached_iff counts idles fun limited =>
    limits.length_lt_of_unreached limited unreached
  have state := state_count adopted
  rw [scheduler] at state
  rw [counting]
  refine ⟨rfl, { counts := counts, cycles := ?_, first := ?_, stopped := ?_, left := ?_ }⟩
  · have once := reachable.wellFormed.cycles_cycle completed
    rw [← machine, progress.cycles] at once
    rw [List.length_append]
    exact once
  · intro count before
    rw [List.length_append] at before
    have within : count ≤ executed.length := Nat.le_of_lt_succ before
    rw [List.take_append_of_le_length within]
    exact unreached count within
  · rw [← reached, state]
    split
    case isTrue limit => exact iff_of_true rfl limit
    case isFalse free => exact iff_of_false live free
  · intro _
    exact ⟨world.machine, List.getLast?_concat, machine⟩

end Progress

end World

end Chip8
