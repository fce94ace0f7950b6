import Chip8.Proofs.Scheduler.Poll

/-!
# Timers that catch up

Timers that are due count in a loop that looks at their schedule before each
count. It may make no more counts than a limit, so it comes to an end even if
the intervals that it adds never bring the schedule past the clock. How often
it counts, and the schedule that it leaves, follow from the clock and from the
schedule that it finds. Nothing but the two timers of the machine changes.
-/

set_option autoImplicit false

namespace Chip8

/-- What is left of a timer behind some counts. A number below zero is no time, and stays. -/
def timeLeft (counts : Nat) (timer : Int) : Int :=
  if timer < 0 then timer else max 0 (timer - counts)

namespace Machine

def countedDown (counts : Nat) (machine : Machine) : Machine :=
  { machine with
    processor.delay := timeLeft counts machine.processor.delay
    processor.sound := timeLeft counts machine.processor.sound }

theorem countedDown_zero (machine : Machine) : machine.countedDown 0 = machine := by
  have same (timer : Int) : timeLeft 0 timer = timer := by
    unfold timeLeft
    omega
  simp only [countedDown, same]

theorem tick_countedDown (counts : Nat) (machine : Machine) :
    (machine.countedDown counts).tick.1 = machine.countedDown (counts + 1) := by
  have next (timer : Int) :
      (if 0 < timeLeft counts timer then timeLeft counts timer - 1 else timeLeft counts timer) =
        timeLeft (counts + 1) timer := by
    unfold timeLeft
    omega
  rw [countedDown, countedDown, ← next, ← next]
  rfl

theorem signals_countedDown (counts : Nat) (machine : Machine) :
    (machine.countedDown counts).tick.2.1 =
      if machine.processor.sound = (counts : Nat) + 1 then [.buzzer false] else [] := by
  have runsOut : timeLeft counts machine.processor.sound = 1 ↔
      machine.processor.sound = (counts : Nat) + 1 := by
    unfold timeLeft
    omega
  simp only [tick, countedDown, runsOut, decide_eq_true_eq]

end Machine

namespace World

variable {η : Type}

/-- What a host is told of some counts. The buzzer goes off with the one at which the sound timer
runs out. -/
def tickActivities (counts : Nat) (sound : Int) : List Activity :=
  (List.range counts).flatMap fun earlier =>
    .tick :: if sound = (earlier : Nat) + 1 then [.signal (.buzzer false)] else []

def counted (host : Host η) (counts : Nat) (world : World η) : World η :=
  { world with
    machine := world.machine.countedDown counts
    host := (tickActivities counts world.machine.processor.sound).foldl
      (fun seen activity => host.receive activity seen) world.host }

theorem tickActivities_succ (counts : Nat) (sound : Int) :
    tickActivities (counts + 1) sound = tickActivities counts sound ++
      .tick :: if sound = (counts : Nat) + 1 then [.signal (.buzzer false)] else [] := by
  simp only [tickActivities, List.range_succ, List.flatMap_append, List.flatMap_singleton]

theorem eq_of_mem_tickActivities {counts : Nat} {sound : Int} {activity : Activity}
    (member : activity ∈ tickActivities counts sound) :
    activity = .tick ∨ activity = .signal (.buzzer false) := by
  obtain ⟨earlier, _, member⟩ := List.mem_flatMap.mp member
  rcases List.mem_cons.mp member with rfl | member
  · exact .inl rfl
  · split at member
    · exact .inr (List.mem_singleton.mp member)
    · cases member

theorem count_tickActivities (counts : Nat) (sound : Int) :
    (tickActivities counts sound).count .tick = counts := by
  induction counts with
  | zero => rfl
  | succ counts ih =>
      rw [tickActivities_succ, List.count_append, ih, List.count_cons_self]
      split <;> rfl

theorem tick_counted (host : Host η) (counts : Nat) (world : World η) :
    (world.counted host counts).tick host = world.counted host (counts + 1) := by
  have machine := world.machine.tick_countedDown counts
  have signals := world.machine.signals_countedDown counts
  rw [tick]
  simp only [counted, machine, signals, tickActivities_succ, List.foldl_append]
  split
  case isTrue => rfl
  case isFalse => rfl

theorem repeat_tick (host : Host η) (counts : Nat) (world : World η) :
    Nat.repeat (tick host) counts world = world.counted host counts := by
  induction counts with
  | zero => rw [counted, Machine.countedDown_zero]; rfl
  | succ counts ih => rw [Nat.repeat, ih, tick_counted]

def postponed (counts : Nat) (due : Float) : Float := Nat.repeat (· + tickInterval) counts due

/-- How the timers catch up that are due at a moment: they were due before each count, and behind
the last one they are in time, or they have reached the limit and start afresh from now. -/
structure CatchUpLaw (now due : Float) (counts : Nat) (next : Float) : Prop where
  bounded : counts ≤ catchUpLimit
  behind : ∀ earlier < counts, postponed earlier due ≤ now
  ended : (¬next ≤ now ∧ next = postponed counts due) ∨
    (counts = catchUpLimit ∧ postponed counts due ≤ now ∧ next = now + tickInterval)

theorem catchUp_law_of_behind {now due : Float} {counts remaining : Nat}
    (bounded : counts + remaining = catchUpLimit)
    (behind : ∀ earlier < counts, postponed earlier due ≤ now) :
    CatchUpLaw now due (counts + (catchUp now remaining (postponed counts due)).1)
      (catchUp now remaining (postponed counts due)).2 := by
  induction remaining generalizing counts with
  | zero =>
      rw [catchUp]
      split
      case isTrue late =>
        exact { bounded := Nat.le_of_eq bounded, behind := behind, ended := .inr ⟨bounded, late, rfl⟩ }
      case isFalse inTime =>
        exact { bounded := Nat.le_of_eq bounded, behind := behind, ended := .inl ⟨inTime, rfl⟩ }
  | succ remaining ih =>
      rw [catchUp]
      split
      case isTrue late =>
        have further : ∀ earlier < counts + 1, postponed earlier due ≤ now := by
          intro earlier before
          rcases Nat.lt_succ_iff_lt_or_eq.mp before with before | rfl
          · exact behind earlier before
          · exact late
        have law := ih (by omega) further
        rw [Nat.add_right_comm] at law
        exact law
      case isFalse inTime =>
        exact { bounded := by omega, behind := behind, ended := .inl ⟨inTime, rfl⟩ }

theorem catchUp_law (now due : Float) :
    CatchUpLaw now due (catchUp now catchUpLimit due).1 (catchUp now catchUpLimit due).2 := by
  have law := @catchUp_law_of_behind now due 0 catchUpLimit (Nat.zero_add _) nofun
  rw [Nat.zero_add] at law
  exact law

/-- The loop of the timers. It begins behind some counts, looks at the schedule before each further
count, and leaves a world behind a total of counts. -/
inductive CatchesUp (host : Host η) (now : Float) : Nat → World η → Nat → World η → Prop where
  | inTime {counts : Nat} {world : World η} : ¬world.scheduler.nextTick ≤ now →
      CatchesUp host now counts world counts world
  | afresh {counts : Nat} {world : World η} :
      world.scheduler.nextTick ≤ now → catchUpLimit ≤ counts →
      CatchesUp host now counts world counts (world.modifyScheduler fun scheduler =>
        { scheduler with nextTick := now + tickInterval })
  | count {counts total : Nat} {world after : World η} :
      world.scheduler.nextTick ≤ now → counts < catchUpLimit →
      CatchesUp host now (counts + 1) ((world.tick host).modifyScheduler fun scheduler =>
        { scheduler with nextTick := scheduler.nextTick + tickInterval }) total after →
      CatchesUp host now counts world total after

theorem CatchesUp.unique {host : Host η} {now : Float} {counts total total' : Nat}
    {world after after' : World η} (loop : CatchesUp host now counts world total after)
    (loop' : CatchesUp host now counts world total' after') : total' = total ∧ after' = after := by
  induction loop with
  | inTime inTime =>
      cases loop' with
      | inTime => exact ⟨rfl, rfl⟩
      | afresh late | count late => exact absurd late inTime
  | afresh late limit =>
      cases loop' with
      | inTime inTime => exact absurd late inTime
      | afresh => exact ⟨rfl, rfl⟩
      | count _ below => exact absurd limit (Nat.not_le.mpr below)
  | count late below _ ih =>
      cases loop' with
      | inTime inTime => exact absurd late inTime
      | afresh _ limit => exact absurd limit (Nat.not_le.mpr below)
      | count _ _ rest => exact ih rest

def catchingUp (host : Host η) (counts : Nat) (world : World η) : World η :=
  (world.counted host counts).modifyScheduler fun scheduler =>
    { scheduler with nextTick := postponed counts scheduler.nextTick }

theorem catchingUp_zero (host : Host η) (world : World η) : world.catchingUp host 0 = world := by
  rw [catchingUp, ← repeat_tick]
  rfl

theorem tick_catchingUp (host : Host η) (counts : Nat) (world : World η) :
    ((world.catchingUp host counts).tick host).modifyScheduler (fun scheduler =>
      { scheduler with nextTick := scheduler.nextTick + tickInterval }) =
      world.catchingUp host (counts + 1) := by
  -- Counting does not look at the schedule, so the schedule may be postponed before.
  have ticked := tick_counted host counts (world.modifyScheduler fun scheduler =>
    { scheduler with nextTick := postponed counts scheduler.nextTick })
  exact congrArg (modifyScheduler fun scheduler =>
    { scheduler with nextTick := scheduler.nextTick + tickInterval }) ticked

theorem catchesUp_of_law (host : Host η) {now next : Float} {counts total : Nat} {world : World η}
    (law : CatchUpLaw now world.scheduler.nextTick total next) (begun : counts ≤ total) :
    CatchesUp host now counts (world.catchingUp host counts) total
      ((world.counted host total).modifyScheduler fun scheduler =>
        { scheduler with nextTick := next }) := by
  obtain ⟨remaining, same⟩ := Nat.exists_eq_add_of_le begun
  induction remaining generalizing counts with
  | zero =>
      obtain rfl : counts = total := same.symm
      rcases law.ended with ⟨inTime, rfl⟩ | ⟨limit, late, rfl⟩
      · exact .inTime inTime
      · exact .afresh late (Nat.le_of_eq limit.symm)
  | succ remaining ih =>
      have below : counts < total := by omega
      have rest := @ih (counts + 1) below (by omega)
      rw [← tick_catchingUp] at rest
      exact .count (law.behind counts below) (Nat.lt_of_lt_of_le below law.bounded) rest

theorem countTimers_eq (host : Host η) (now : Float) (world : World η) :
    world.countTimers host now =
      (world.counted host (catchUp now catchUpLimit world.scheduler.nextTick).1).modifyScheduler
        fun scheduler =>
          { scheduler with nextTick := (catchUp now catchUpLimit world.scheduler.nextTick).2 } := by
  simp only [countTimers, repeat_tick]

theorem nextTick_execute (host : Host η) (world : World η) :
    (world.execute host).world.scheduler.nextTick = world.scheduler.nextTick := by
  have told := congrArg Scheduler.nextTick (scheduler_tellAll host
    { world.tell host .cycle with machine := world.machine.cycle.state } world.machine.cycle.signals)
  simp only [execute]
  split
  · obtain ⟨_, _, counted⟩ := scheduler_count
      ((world.tell host .cycle).adopt host world.machine.cycle).world
    rw [counted]
    exact told
  · exact told

theorem nextTick_sleepUntilDue (host : Host η) (world : World η) :
    (world.sleepUntilDue host).scheduler.nextTick = world.scheduler.nextTick := by
  simp only [sleepUntilDue]
  split
  · split <;> rfl
  · rfl

/-- Neither an instruction nor a sleep moves the schedule of the timers. -/
theorem nextTick_proceed (host : Host η) (now : Float) (world : World η) :
    (world.proceed host now).world.scheduler.nextTick =
      (world.countTimers host now).scheduler.nextTick := by
  simp only [proceed]
  split
  · exact nextTick_execute host _
  · simp only [throttle]
    split
    · split
      · exact nextTick_execute host _
      · exact (nextTick_sleepUntilDue host _).trans (nextTick_execute host _)
    · exact nextTick_sleepUntilDue host _

/-- The clock and the schedule of the timers decide how often due timers count and when they are due
next, whatever else there is in a world: the speed and the instructions executed before included.
The loop of the timers ends in every world, with so many counts and that schedule. -/
theorem catchUp_of_due (now due : Float) :
    ∃ counts next, CatchUpLaw now due counts next ∧
      ∀ {η : Type} (host : Host η) (world : World η), world.scheduler.nextTick = due →
        (∀ total after, CatchesUp host now 0 world total after ↔
          total = counts ∧ after = world.countTimers host now) ∧
        world.countTimers host now = { world.counted host counts with
          scheduler := { world.scheduler with nextTick := next } } ∧
        (world.proceed host now).world.scheduler.nextTick = next := by
  refine ⟨_, _, catchUp_law now due, ?_⟩
  rintro η host world rfl
  have same := countTimers_eq host now world
  have loop := catchesUp_of_law host (catchUp_law now world.scheduler.nextTick) (Nat.zero_le _)
  rw [catchingUp_zero, ← same] at loop
  refine ⟨fun total after => ⟨loop.unique, ?_⟩, same, ?_⟩
  · rintro ⟨rfl, rfl⟩
    exact loop
  · rw [nextTick_proceed, same]
    rfl

def listener : Host (List Activity) where
  readClock := fun told => (0.0, told)
  wait := fun _ told => told
  receive := fun activity told => told ++ [activity]
  poll := fun _ => .leave false

def laggard : World (List Activity) where
  scheduler := { state := .running, interval := none, nextTick := 100.0 }
  machine := { Machine.blank .plain (.scripted [] 0) false with
    processor := { Processor.start with delay := 10, sound := 2 } }
  host := []

/-- Six counts bring the schedule past one moment, and leave it behind a later one. -/
theorem catchUp_of_due_laggard :
    laggard.scheduler.nextTick = 100.0 ∧
    (CatchesUp listener 100.09 0 laggard 6 (laggard.countTimers listener 100.09) ∧
      ¬(laggard.proceed listener 100.09).world.scheduler.nextTick ≤ 100.09) ∧
    CatchesUp listener 200.0 0 laggard 6 (laggard.countTimers listener 200.0) ∧
    (laggard.proceed listener 200.0).world.scheduler.nextTick = 200.0 + tickInterval := by
  have six {now next : Float} {counts : Nat}
      (same : laggard.countTimers listener now = { laggard.counted listener counts with
        scheduler := { laggard.scheduler with nextTick := next } })
      (delay : (laggard.countTimers listener now).machine.processor.delay = 4) : counts = 6 := by
    rw [same] at delay
    have left : timeLeft counts 10 = 4 := delay
    unfold timeLeft at left
    omega
  obtain ⟨counts, next, law, outcome⟩ := catchUp_of_due 100.09 100.0
  obtain ⟨loop, same, schedule⟩ := outcome listener laggard rfl
  obtain ⟨counts', next', law', outcome'⟩ := catchUp_of_due 200.0 100.0
  obtain ⟨loop', same', schedule'⟩ := outcome' listener laggard rfl
  obtain rfl := six same (by decide +kernel)
  obtain rfl := six same' (by decide +kernel)
  have reached : ¬postponed 6 100.0 ≤ 100.09 := by decide +kernel
  have missed : postponed 6 100.0 ≤ 200.0 := by decide +kernel
  refine ⟨rfl, ⟨(loop _ _).mpr ⟨rfl, rfl⟩, ?_⟩, (loop' _ _).mpr ⟨rfl, rfl⟩, ?_⟩
  · rw [schedule]
    rcases law.ended with ⟨inTime, _⟩ | ⟨_, late, _⟩
    · exact inTime
    · exact absurd late reached
  · rw [schedule']
    rcases law'.ended with ⟨inTime, rfl⟩ | ⟨_, _, afresh⟩
    · exact absurd missed inTime
    · exact afresh

end World

end Chip8
