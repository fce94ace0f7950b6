import Chip8.Proofs.Scheduler.CatchUp
import Chip8.Proofs.Scheduler.Watch

/-!
# Work of slices

What the machine does in a slice can be read off the record of a watched host:
the machine at the end is the one that the poll has left, with the recorded
ticks and cycles carried out in their order.
-/

set_option autoImplicit false

namespace Chip8

def Activity.IsNotice : Activity → Prop
  | .signal _ | .poll _ => True
  | .cycle | .tick | .reset => False

theorem Activity.not_isNotice_cycle : ¬Activity.cycle.IsNotice := id

theorem Activity.not_isNotice_tick : ¬Activity.tick.IsNotice := id

namespace Machine

def carryOut (machine : Machine) (activities : List Activity) : Machine :=
  activities.foldl (fun machine activity =>
    match activity with
    | .cycle => machine.cycle.state
    | .tick => machine.tick.1
    | .reset | .poll _ | .signal _ => machine) machine

theorem carryOut_append (machine : Machine) (first second : List Activity) :
    machine.carryOut (first ++ second) = (machine.carryOut first).carryOut second :=
  List.foldl_append

theorem carryOut_of_notices (machine : Machine) {activities : List Activity}
    (notices : ∀ activity ∈ activities, activity.IsNotice) :
    machine.carryOut activities = machine := by
  induction activities with
  | nil => rfl
  | cons activity rest ih =>
      obtain ⟨first, later⟩ := List.forall_mem_cons.mp notices
      cases activity with
      | signal | poll => exact ih later
      | cycle | tick | reset => cases first

end Machine

theorem Activity.isNotice_of_mem_signals {signals : List Signal} {activity : Activity}
    (member : activity ∈ signals.map .signal) : activity.IsNotice := by
  obtain ⟨_, _, rfl⟩ := List.mem_map.mp member
  trivial

theorem Activity.count_eq_zero {activities : List Activity} {activity : Activity}
    (notices : ∀ activity ∈ activities, activity.IsNotice) (work : ¬activity.IsNotice) :
    activities.count activity = 0 :=
  List.count_eq_zero.mpr fun member => work (notices activity member)

theorem Activity.count_append_of_notices {notices activities : List Activity} {activity : Activity}
    (areNotices : ∀ activity ∈ notices, activity.IsNotice) (work : ¬activity.IsNotice) :
    (notices ++ activities).count activity = activities.count activity := by
  rw [List.count_append, Activity.count_eq_zero areNotices work, Nat.zero_add]

theorem Activity.count_signals {activity : Activity} (work : ¬activity.IsNotice)
    (signals : List Signal) : (activity :: signals.map .signal).count activity = 1 := by
  have none : (signals.map Activity.signal).count activity = 0 :=
    Activity.count_eq_zero (fun _ => Activity.isNotice_of_mem_signals) work
  rw [List.count_cons_self, none]

namespace World

variable {η : Type} (host : Host η)

/-- The machine of one world has come to that of another by what was told in between. -/
structure Worked (before after : World (Watched η)) (activities : List Activity) : Prop where
  told : after.told = before.told ++ activities
  machine : after.machine = before.machine.carryOut activities

namespace Worked

theorem refl (world : World (Watched η)) : Worked world world [] where
  told := (List.append_nil _).symm
  machine := rfl

theorem trans {first second third : World (Watched η)} {before after : List Activity}
    (earlier : Worked first second before) (later : Worked second third after) :
    Worked first third (before ++ after) where
  told := by rw [later.told, earlier.told, List.append_assoc]
  machine := by rw [later.machine, earlier.machine, Machine.carryOut_append]

theorem modifyScheduler {first second : World (Watched η)} {activities : List Activity}
    (worked : Worked first second activities) (change : Scheduler → Scheduler) :
    Worked first (second.modifyScheduler change) activities where
  told := worked.told
  machine := worked.machine

end Worked

theorem told_tellAll (world : World (Watched η)) (signals : List Signal) :
    (world.tellAll host.watched signals).told = world.told ++ signals.map .signal := by
  induction signals generalizing world with
  | nil => exact (List.append_nil _).symm
  | cons signal rest ih =>
      have later := ih (world.tell host.watched (.signal signal))
      exact later.trans (List.append_assoc world.told [.signal signal] _)

theorem tellAll_worked (world : World (Watched η)) (activity : Activity) (signals : List Signal) :
    Worked world
      (({ world.tell host.watched activity with
          machine := world.machine.carryOut [activity] }).tellAll host.watched signals)
      (activity :: signals.map .signal) := by
  have notices : ∀ signal ∈ signals.map Activity.signal, signal.IsNotice :=
    fun _ => Activity.isNotice_of_mem_signals
  constructor
  · rw [told_tellAll]
    exact List.append_assoc world.told [activity] _
  · rw [machine_tellAll]
    exact (Machine.carryOut_of_notices (world.machine.carryOut [activity]) notices).symm

theorem tick_worked (world : World (Watched η)) :
    Worked world (world.tick host.watched) (.tick :: world.machine.tick.2.1.map .signal) :=
  tellAll_worked host world .tick world.machine.tick.2.1

theorem counted_worked (counts : Nat) (world : World (Watched η)) :
    Worked world (world.counted host.watched counts)
      (tickActivities counts world.machine.processor.sound) := by
  induction counts with
  | zero =>
      rw [← repeat_tick]
      exact .refl world
  | succ counts ih =>
      have ticked := tick_worked host (world.counted host.watched counts)
      have signals : (world.counted host.watched counts).machine.tick.2.1.map Activity.signal =
          if world.machine.processor.sound = (counts : Nat) + 1 then [.signal (.buzzer false)]
          else [] := by
        rw [counted, Machine.signals_countedDown]
        split <;> rfl
      rw [tick_counted, signals] at ticked
      rw [tickActivities_succ]
      exact ih.trans ticked

theorem countTimers_worked (now : Float) (world : World (Watched η)) :
    ∃ activities, Worked world (world.countTimers host.watched now) activities ∧
      activities.count .tick ≤ catchUpLimit ∧ .cycle ∉ activities := by
  rw [countTimers_eq]
  refine ⟨_, (counted_worked host _ world).modifyScheduler _, ?_, ?_⟩
  · rw [count_tickActivities]
    exact (catchUp_law now world.scheduler.nextTick).bounded
  · intro cycle
    rcases eq_of_mem_tickActivities cycle with same | same <;> cases same

theorem execute_worked (world : World (Watched η)) :
    ∃ signals : List Signal,
      Worked world (world.execute host.watched).world (.cycle :: signals.map .signal) := by
  have worked := tellAll_worked host world .cycle world.machine.cycle.signals
  refine ⟨world.machine.cycle.signals, ?_⟩
  simp only [execute]
  split
  · exact ⟨worked.told, worked.machine⟩
  · exact worked

theorem answer_execute (world : World η) :
    (world.execute host).answer = world.machine.cycle.answer.mapError .fault := by
  simp only [execute, adopt]
  cases answer : world.machine.cycle.answer with
  | error cause => rfl
  | ok _ => rfl

def LimitReached (world : World η) : Prop :=
  (world.scheduler.idleLimit ≠ 0 ∧ idled world.machine = true ∧
    world.scheduler.idleLimit ≤ world.scheduler.idleCycles) ∨
  (world.scheduler.cycleLimit ≠ 0 ∧ world.scheduler.cycleLimit ≤ world.scheduler.cycles)

instance (world : World η) : Decidable world.LimitReached :=
  inferInstanceAs (Decidable (_ ∨ _))

theorem state_limitCycles (scheduler : Scheduler) :
    (limitCycles scheduler).state =
      if scheduler.cycleLimit ≠ 0 ∧ scheduler.cycleLimit ≤ scheduler.cycles then .stopped
      else scheduler.state := by
  unfold limitCycles
  split <;> rfl

theorem limitCycles_keeps (scheduler : Scheduler) :
    (limitCycles scheduler).idleLimit = scheduler.idleLimit ∧
    (limitCycles scheduler).idleCycles = scheduler.idleCycles ∧
    (limitCycles scheduler).cycleLimit = scheduler.cycleLimit ∧
    (limitCycles scheduler).cycles = scheduler.cycles := by
  unfold limitCycles
  split <;> exact ⟨rfl, rfl, rfl, rfl⟩

theorem state_countIdle (idled : Bool) (scheduler : Scheduler) :
    (countIdle idled scheduler).state =
      if scheduler.idleLimit ≠ 0 ∧ idled = true ∧
        scheduler.idleLimit ≤ (countIdle idled scheduler).idleCycles then .stopped
      else scheduler.state := by
  unfold countIdle
  by_cases unlimited : scheduler.idleLimit = 0
  · simp [unlimited]
  · cases idled with
    | false => simp [unlimited]
    | true => simp [unlimited]

theorem countIdle_keeps (idled : Bool) (scheduler : Scheduler) :
    (countIdle idled scheduler).idleLimit = scheduler.idleLimit := by
  unfold countIdle
  split
  · rfl
  · split <;> rfl

theorem state_count (world : World η) :
    world.count.scheduler.state =
      if world.count.LimitReached then .stopped else world.scheduler.state := by
  have idle := state_countIdle (idled world.machine) (countCycle world.scheduler)
  have idleLimit := countIdle_keeps (idled world.machine) (countCycle world.scheduler)
  have machine : world.count.machine = world.machine := rfl
  have scheduler : world.count.scheduler =
      limitCycles (countIdle (idled world.machine) (countCycle world.scheduler)) := rfl
  -- Both limits are compared with counts that nothing behind the comparison changes.
  generalize countIdle (idled world.machine) (countCycle world.scheduler) = counted at *
  obtain ⟨sameLimit, sameIdle, sameCycleLimit, sameCycles⟩ := limitCycles_keeps counted
  rw [← idleLimit] at idle
  simp only [LimitReached, machine, scheduler, state_limitCycles, sameLimit, sameIdle,
    sameCycleLimit, sameCycles]
  by_cases reached : counted.cycleLimit ≠ 0 ∧ counted.cycleLimit ≤ counted.cycles
  · rw [if_pos reached, if_pos (.inr reached)]
  · rw [if_neg reached, idle]
    simp only [reached, or_false]
    rfl

theorem state_stepOnce {world : World η} (stepping : world.scheduler.state = .stepping)
    (completed : world.machine.cycle.answer = .ok ()) :
    (world.stepOnce host).world.scheduler.state =
      if (world.stepOnce host).world.LimitReached then .stopped else .paused := by
  let adopted := ((world.tell host .cycle).adopt host world.machine.cycle).world
  have executed : world.execute host = ⟨adopted.count, .ok ()⟩ := by
    simp only [execute, adopt, completed]
    rfl
  have state : adopted.scheduler.state = .stepping := by
    rw [← stepping]
    exact congrArg Scheduler.state (scheduler_tellAll host _ _)
  have counted := state_count adopted
  rw [state] at counted
  have stepped : (world.stepOnce host).world = adopted.count.modifyScheduler fun scheduler =>
      if scheduler.state = .stepping then { scheduler with state := .paused } else scheduler := by
    simp only [stepOnce, executed]
  by_cases reached : adopted.count.LimitReached
  · rw [if_pos reached] at counted
    have same : (world.stepOnce host).world = adopted.count := by
      rw [stepped]
      simp [modifyScheduler, counted]
    rw [same, counted, if_pos reached]
  · rw [if_neg reached] at counted
    have paused : (world.stepOnce host).world =
        adopted.count.modifyScheduler fun scheduler => { scheduler with state := .paused } := by
      rw [stepped]
      simp [modifyScheduler, counted]
    rw [paused]
    exact (if_neg reached).symm

theorem answer_stepOnce (world : World η) :
    (world.stepOnce host).answer = world.machine.cycle.answer.mapError .fault := by
  have executed := answer_execute host world
  simp only [stepOnce]
  split
  case h_1 => exact executed
  case h_2 completed => exact completed.symm.trans executed

theorem stepOnce_worked (world : World (Watched η)) :
    ∃ signals : List Signal,
      Worked world (world.stepOnce host.watched).world (.cycle :: signals.map .signal) := by
  obtain ⟨signals, worked⟩ := execute_worked host world
  refine ⟨signals, ?_⟩
  simp only [stepOnce]
  split
  · exact worked
  · exact worked.modifyScheduler _

theorem sleepUntilDue_worked (world : World (Watched η)) :
    Worked world (world.sleepUntilDue host.watched) [] := by
  have same : (world.sleepUntilDue host.watched).told = world.told ∧
      (world.sleepUntilDue host.watched).machine = world.machine := by
    simp only [sleepUntilDue]
    split
    · split <;> exact ⟨rfl, rfl⟩
    · exact ⟨rfl, rfl⟩
  exact ⟨same.1.trans (List.append_nil _).symm, same.2⟩

theorem throttle_worked (now interval : Float) (world : World (Watched η)) :
    ∃ activities, Worked world (world.throttle host.watched now interval).world activities ∧
      activities.count .cycle ≤ 1 ∧ .tick ∉ activities := by
  simp only [throttle]
  split
  · obtain ⟨signals, worked⟩ := execute_worked host world
    have once := Nat.le_of_eq (Activity.count_signals Activity.not_isNotice_cycle signals)
    split
    · exact ⟨_, worked, once, by simp⟩
    · have slept := sleepUntilDue_worked host
        ((world.execute host.watched).world.modifyScheduler fun scheduler =>
          { scheduler with nextInstruction := now + interval })
      have worked := (worked.modifyScheduler _).trans slept
      rw [List.append_nil] at worked
      exact ⟨_, worked, once, by simp⟩
  · exact ⟨[], sleepUntilDue_worked host world, Nat.zero_le 1, List.not_mem_nil⟩

theorem proceed_worked (now : Float) (world : World (Watched η)) :
    ∃ activities, Worked world (world.proceed host.watched now).world activities ∧
      activities.count .cycle ≤ 1 ∧ activities.count .tick ≤ catchUpLimit := by
  obtain ⟨counted, ticked, ticks, noCycles⟩ := countTimers_worked host now world
  have later : ∃ activities, Worked (world.countTimers host.watched now)
      (world.proceed host.watched now).world activities ∧
      activities.count .cycle ≤ 1 ∧ .tick ∉ activities := by
    simp only [proceed]
    split
    · obtain ⟨signals, worked⟩ := execute_worked host
        (world.countTimers host.watched now)
      have once := Nat.le_of_eq (Activity.count_signals Activity.not_isNotice_cycle signals)
      exact ⟨_, worked, once, by simp⟩
    · exact throttle_worked host now _ _
  obtain ⟨executed, worked, cycles, noTicks⟩ := later
  refine ⟨counted ++ executed, ticked.trans worked, ?_, ?_⟩
  · rw [List.count_append, List.count_eq_zero.mpr noCycles, Nat.zero_add]
    exact cycles
  · rw [List.count_append, List.count_eq_zero.mpr noTicks, Nat.add_zero]
    exact ticks

end World

end Chip8
