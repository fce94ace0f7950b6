import Chip8.Proofs.Scheduler.Fault

/-!
# Rates

A report tells how many pictures have changed and how many instructions have been completed since
the report before. The counts outlive the run: what was counted behind the last report of a run is
told by the first report of a later one.
-/

set_option autoImplicit false

namespace Chip8

structure Rates where
  pictures : Int
  instructions : Int
  deriving DecidableEq, Repr

/-- What reports count, and the reports themselves. -/
inductive Event where
  | picture
  | instruction
  | report (rates : Rates)
  deriving DecidableEq, Repr

namespace Rates

def none : Rates := ⟨0, 0⟩

/-- The counts behind an event. A report starts them anew. -/
def count (rates : Rates) : Event → Rates
  | .picture => { rates with pictures := rates.pictures + 1 }
  | .instruction => { rates with instructions := rates.instructions + 1 }
  | .report _ => none

def behind (rates : Rates) (events : List Event) : Rates := events.foldl count rates

theorem behind_append (rates : Rates) (first second : List Event) :
    rates.behind (first ++ second) = (rates.behind first).behind second :=
  List.foldl_append

theorem behind_of_report {events : List Event} {told : Rates} (reported : .report told ∈ events)
    (first second : Rates) : first.behind events = second.behind events := by
  induction events generalizing first second with
  | nil => cases reported
  | cons event rest ih =>
      cases event with
      | report => rfl
      | picture | instruction =>
          rcases List.mem_cons.mp reported with here | later
          · cases here
          · exact ih later _ _

theorem behind_of_unreported {events : List Event} (unreported : ∀ told, .report told ∉ events)
    (first second : Rates) :
    (first.behind events).pictures - first.pictures =
        (second.behind events).pictures - second.pictures ∧
      (first.behind events).instructions - first.instructions =
        (second.behind events).instructions - second.instructions := by
  induction events generalizing first second with
  | nil =>
      simp only [behind, List.foldl_nil]
      omega
  | cons event rest ih =>
      have others : ∀ told, .report told ∉ rest :=
        fun told later => unreported told (List.mem_cons_of_mem _ later)
      have counted := ih others (first.count event) (second.count event)
      cases event with
      | report told => exact absurd List.mem_cons_self (unreported told)
      | picture | instruction =>
          simp only [count, behind, List.foldl_cons] at counted ⊢
          omega

/-- The counts from some events on are those from another beginning on exactly when there has been
a report, or both begin alike. -/
theorem behind_eq_iff (events : List Event) (first second : Rates) :
    first.behind events = second.behind events ↔
      first = second ∨ ∃ told, .report told ∈ events := by
  by_cases reported : ∃ told, .report told ∈ events
  · obtain ⟨told, member⟩ := reported
    exact iff_of_true (behind_of_report member first second) (.inr ⟨told, member⟩)
  · obtain ⟨pictures, instructions⟩ :=
      behind_of_unreported (not_exists.mp reported) first second
    constructor
    · intro same
      rw [same] at pictures instructions
      left
      obtain ⟨_, _⟩ := first
      obtain ⟨_, _⟩ := second
      simp only [Rates.mk.injEq] at pictures instructions ⊢
      omega
    · rintro (rfl | other)
      · rfl
      · exact absurd other reported

end Rates

/-- Every report among the events tells what has been counted since the one before. -/
inductive Tallied : Rates → List Event → Rates → Prop where
  | nil (rates : Rates) : Tallied rates [] rates
  | cons {rates final : Rates} {event : Event} {rest : List Event}
      (fair : ∀ told, event = .report told → told = rates) :
      Tallied (rates.count event) rest final → Tallied rates (event :: rest) final

namespace Tallied

variable {start middle final : Rates} {events earlier later : List Event} {told : Rates}

theorem append (first : Tallied start earlier middle) (second : Tallied middle later final) :
    Tallied start (earlier ++ later) final := by
  induction first with
  | nil => exact second
  | cons fair _ ih => exact .cons fair (ih second)

theorem report_eq (tallied : Tallied start events final)
    (reported : events = earlier ++ .report told :: later) : told = start.behind earlier := by
  induction earlier generalizing start events with
  | nil =>
      subst reported
      cases tallied with
      | cons fair _ => exact fair told rfl
  | cons event earlier ih =>
      subst reported
      cases tallied with
      | cons _ rest => exact ih rest rfl

end Tallied

namespace Activity

def event? : Activity → Option Event
  | .signal (.refresh true) => some .picture
  | .signal (.rates pictures instructions) => some (.report ⟨pictures, instructions⟩)
  | _ => none

def IsQuiet (activity : Activity) : Prop := activity ≠ .cycle ∧ activity.event? = none

theorem IsEffect.isQuiet {activity : Activity} (effect : activity.IsEffect) :
    activity.IsQuiet := by
  cases activity with
  | reset => exact ⟨Activity.noConfusion, rfl⟩
  | poll | cycle | tick => cases effect
  | signal told =>
      refine ⟨Activity.noConfusion, ?_⟩
      cases told with
      | pixel | beep | buzzer => rfl
      | resolution | refresh | rates | line => cases effect

end Activity

/-- The events of a record. The machines are those that met its cycles, and only a cycle that
completes is an instruction. -/
def events : List Activity → List Machine → List Event
  | .cycle :: told, machine :: met =>
      if machine.completes then .instruction :: events told met else events told met
  | activity :: told, met => activity.event?.toList ++ events told met
  | [], _ => []

theorem events_append {told : List Activity} {met : List Machine}
    (length : met.length = told.count .cycle) (later : List Activity) (others : List Machine) :
    events (told ++ later) (met ++ others) = events told met ++ events later others := by
  induction told generalizing met with
  | nil =>
      cases List.eq_nil_of_length_eq_zero length
      rfl
  | cons activity rest ih =>
      cases activity with
      | cycle =>
          rw [List.count_cons_self] at length
          cases met with
          | nil => cases length
          | cons machine met =>
              have same := ih (Nat.succ.inj length)
              simp only [List.cons_append, events, same]
              split
              · rfl
              · rfl
      | signal | poll | tick | reset =>
          rw [List.count_cons_of_ne Activity.noConfusion] at length
          simp only [List.cons_append, events, ih length, List.append_assoc]

theorem events_of_quiet {told : List Activity} (quiet : ∀ activity ∈ told, activity.IsQuiet) :
    events told [] = [] := by
  induction told with
  | nil => rfl
  | cons activity rest ih =>
      obtain ⟨⟨_, uncounted⟩, others⟩ := List.forall_mem_cons.mp quiet
      simp only [events, uncounted, ih others]
      rfl

variable {η : Type}

namespace World

def rates (world : World η) : Rates := ⟨world.scheduler.pictures, world.scheduler.completed⟩

/-- What has been told in between are fair reports, and the counts are those of what has been told
and of the instructions in between. -/
structure Booked (before after : World (Watched η)) (told : List Activity)
    (met : List Machine) : Prop where
  record : after.told = before.told ++ told
  length : met.length = told.count .cycle
  tallied : Tallied before.rates (events told met) after.rates

namespace Booked

variable {first second third before after : World (Watched η)} {told later : List Activity}
  {met others : List Machine}

theorem of_same (record : after.told = before.told) (rates : after.rates = before.rates) :
    Booked before after [] [] where
  record := record.trans (List.append_nil _).symm
  length := rfl
  tallied := by
    rw [rates]
    exact .nil _

theorem trans (earlier : Booked first second told met) (rest : Booked second third later others) :
    Booked first third (told ++ later) (met ++ others) where
  record := by rw [rest.record, earlier.record, List.append_assoc]
  length := by rw [List.length_append, List.count_append, earlier.length, rest.length]
  tallied := by
    rw [events_append earlier.length]
    exact earlier.tallied.append rest.tallied

theorem of_quiet (record : after.told = before.told ++ told)
    (quiet : ∀ activity ∈ told, activity.IsQuiet) (rates : after.rates = before.rates) :
    Booked before after told [] where
  record := record
  length := (List.count_eq_zero.mpr fun cycle => (quiet _ cycle).1 rfl).symm
  tallied := by
    rw [events_of_quiet quiet, rates]
    exact .nil _

end Booked

/-- The machine has not worked in between. -/
def Noted (before after : World (Watched η)) : Prop :=
  ∃ told, Booked before after told [] ∧ ∀ activity ∈ told, activity.IsStill

/-- Nothing but the machine has worked in between. -/
def Paced (before after : World (Watched η)) : Prop :=
  ∃ work, Worked before after work ∧ Booked before after work (before.machine.met work)

namespace Noted

variable {first second third before after : World (Watched η)} {told : List Activity}

theorem trans (earlier : Noted first second) (rest : Noted second third) : Noted first third := by
  obtain ⟨told, booked, still⟩ := earlier
  obtain ⟨later, bookedLater, stillLater⟩ := rest
  exact ⟨told ++ later, booked.trans bookedLater, List.forall_mem_append.mpr ⟨still, stillLater⟩⟩

theorem of_same (record : after.told = before.told) (rates : after.rates = before.rates) :
    Noted before after :=
  ⟨[], .of_same record rates, List.forall_mem_nil _⟩

theorem of_effects (record : after.told = before.told ++ told)
    (effects : ∀ activity ∈ told, activity.IsEffect) (rates : after.rates = before.rates) :
    Noted before after :=
  ⟨told, .of_quiet record (fun activity member => (effects activity member).isQuiet) rates,
    fun activity member => (effects activity member).isTalk.isStill⟩

end Noted

namespace Paced

variable {first second third before after : World (Watched η)}

theorem trans (earlier : Paced first second) (rest : Paced second third) : Paced first third := by
  obtain ⟨work, worked, booked⟩ := earlier
  obtain ⟨later, workedLater, bookedLater⟩ := rest
  refine ⟨work ++ later, worked.trans workedLater, ?_⟩
  rw [Machine.met_append, ← worked.machine]
  exact booked.trans bookedLater

theorem of_same (record : after.told = before.told) (machine : after.machine = before.machine)
    (rates : after.rates = before.rates) : Paced before after :=
  ⟨[], ⟨record.trans (List.append_nil _).symm, machine⟩, .of_same record rates⟩

end Paced

section

variable (host : Host η)

theorem report_noted (now : Float) (world : World (Watched η)) :
    Noted world (world.report host.watched now) := by
  unfold report
  split
  · have told := told_tellAll host world
      (world.machine.screen.report world.scheduler.pictures world.scheduler.completed)
    refine ⟨_, ⟨told, rfl, ?_⟩, List.forall_mem_singleton.mpr True.intro⟩
    have fair : ∀ rates, Event.report world.rates = .report rates → rates = world.rates := by
      rintro rates ⟨⟩
      rfl
    exact .cons fair (.nil _)
  · exact .of_same rfl rfl

theorem rates_refresh (world : World (Watched η)) :
    (world.refresh host.watched).rates =
      if world.machine.screen.dirty then world.rates.count .picture else world.rates := by
  have scheduler := scheduler_tellAll host.watched
    { world with machine.screen := world.machine.screen.refresh.1 } world.machine.screen.refresh.2.1
  have changed : world.machine.screen.refresh.2.2 = world.machine.screen.dirty := rfl
  simp only [refresh, rates, modifyScheduler, scheduler, changed]
  split
  · rfl
  · rfl

theorem refresh_noted (world : World (Watched η)) :
    Noted world (world.refresh host.watched) := by
  have told := told_refresh host world
  have counted := rates_refresh host world
  refine ⟨_, ⟨told, rfl, ?_⟩, List.forall_mem_singleton.mpr True.intro⟩
  rw [counted]
  cases world.machine.screen.dirty with
  | false => exact .nil _
  | true => exact .cons (fun _ same => Event.noConfusion same) (.nil _)

theorem shown_noted (world : World (Watched η)) : Noted world (world.shown host.watched) := by
  have counted : Noted world (world.modifyScheduler fun scheduler =>
      { scheduler with frame := scheduler.frame + 1 }) := .of_same rfl rfl
  exact counted.trans (refresh_noted host _)

theorem rates_perform (request : Request) (world : World (Watched η)) :
    (world.perform host.watched refuseRun request).world.rates = world.rates := by
  cases request with
  | run | stop | setDialect => rfl
  | pause =>
      simp only [perform, pause]
      split
      all_goals rfl
  | resume =>
      simp only [perform, resume]
      split
      all_goals rfl
  | step =>
      simp only [perform, step]
      split
      all_goals rfl
  | setSpeed speed =>
      simp only [perform, setSpeed]
      split
      all_goals rfl
  | setKey number pressed =>
      simp only [perform, setKey]
      split
      all_goals rfl
  | loadRom rom =>
      have scheduler := scheduler_tellAll host.watched
        { world.tell host.watched .reset with machine := (world.machine.loadRom rom).state }
        (world.machine.loadRom rom).signals
      simp only [perform, loadRom, adopt, rates, scheduler]
      rfl

theorem rates_converse (visit : Visit η) (world : World (Watched η)) :
    (converse host.watched refuseRun visit.watched world).world.rates = world.rates := by
  induction visit generalizing world with
  | leave | fail => rfl
  | consult next ih => exact ih world.unwatch world
  | update change next ih =>
      exact ih { world with host := { world.host with host := change world.host.host } }
  | ask request next ih =>
      have performed := rates_perform host request world
      simp only [Visit.watched, converse]
      split
      · exact (ih _ _).trans performed
      · exact (ih _ _).trans performed
      · exact performed

theorem converse_noted (visit : Visit η) (world : World (Watched η)) :
    Noted world (converse host.watched refuseRun visit.watched world).world := by
  obtain ⟨effects, told, areEffects⟩ := told_converse_effects host visit world
  exact .of_effects told areEffects (rates_converse host visit world)

theorem attend_noted (now : Float) (world : World (Watched η)) :
    Noted world (world.attend host.watched refuseRun now).world := by
  unfold attend
  split
  · have asked : Noted world ((world.modifyScheduler fun scheduler =>
        { scheduler with nextFrame := now + frameInterval }).tell host.watched
          (.poll world.scheduler.frame)) := by
      refine ⟨[.poll world.scheduler.frame], ⟨rfl, rfl, .nil _⟩, ?_⟩
      exact List.forall_mem_singleton.mpr True.intro
    have conversed := asked.trans (converse_noted host (host.poll world.scheduler.frame) _)
    simp only [Host.poll_watched]
    split
    · exact conversed.trans (shown_noted host _)
    · exact conversed
    · exact conversed
  · exact .of_same rfl rfl

theorem polled_noted (world : World (Watched η)) :
    Noted world (world.polled host.watched refuseRun).world := by
  have seen : Noted world (world.readClock host.watched).2 := .of_same rfl rfl
  unfold polled
  simp only
  split
  · exact seen
  · have reported := seen.trans (report_noted host (world.readClock host.watched).1 _)
    have attended := reported.trans (attend_noted host (world.readClock host.watched).1 _)
    split
    · exact attended
    · exact attended.trans (.of_same rfl rfl)
    · exact attended

theorem countTimers_paced (now : Float) (world : World (Watched η)) :
    Paced world (world.countTimers host.watched now) := by
  have quiet {counts : Nat} {sound : Int} : ∀ activity ∈ tickActivities counts sound,
      activity.IsQuiet := by
    intro activity member
    rcases eq_of_mem_tickActivities member with rfl | rfl
    · exact ⟨Activity.noConfusion, rfl⟩
    · exact ⟨Activity.noConfusion, rfl⟩
  have worked := counted_worked host (catchUp now catchUpLimit world.scheduler.nextTick).1 world
  rw [countTimers_eq]
  refine ⟨_, worked.modifyScheduler _, ?_⟩
  rw [Machine.met_eq_nil fun cycle => (quiet _ cycle).1 rfl]
  exact .of_quiet worked.told quiet rfl

theorem rates_count (world : World (Watched η)) :
    world.count.rates = world.rates.count .instruction := by
  obtain ⟨_, _, counted⟩ := scheduler_count world
  rw [rates, counted]
  rfl

theorem execute_paced (world : World (Watched η)) :
    Paced world (world.execute host.watched).world := by
  have cycled := cycled_worked host world
  obtain ⟨scheduler, machine⟩ := cycled_keeps host.watched world
  have same : (world.cycled host.watched).rates = world.rates := by
    rw [rates, scheduler]
    rfl
  have quiet : ∀ activity ∈ world.machine.cycle.signals.map Activity.signal, activity.IsQuiet := by
    intro activity member
    obtain ⟨signal, told, rfl⟩ := List.mem_map.mp member
    rcases world.machine.effect_or_line_of_cycle signal told with effect | ⟨text, rfl⟩
    · exact Activity.IsEffect.isQuiet effect
    · exact ⟨Activity.noConfusion, rfl⟩
  have length := world.machine.length_met (.cycle :: world.machine.cycle.signals.map .signal)
  have instruction : events (.cycle :: world.machine.cycle.signals.map .signal)
      (world.machine.met (.cycle :: world.machine.cycle.signals.map .signal)) =
        if world.machine.completes then [.instruction] else [] := by
    rw [Machine.met_cycle_signals]
    simp only [events, events_of_quiet quiet]
  rw [execute_eq]
  -- Only behind an instruction that has completed are the counts brought up to date.
  cases answer : world.machine.cycle.answer with
  | error cause =>
      have failed : world.machine.completes = false := by
        rw [Machine.completes, answer]
        rfl
      refine ⟨_, cycled, cycled.told, length, ?_⟩
      rw [instruction, failed, same]
      exact .nil _
  | ok _ =>
      have completed : world.machine.completes = true := by
        rw [Machine.completes, answer]
        rfl
      have counted : Worked world (world.cycled host.watched).count
          (.cycle :: world.machine.cycle.signals.map .signal) := cycled.modifyScheduler _
      refine ⟨_, counted, counted.told, length, ?_⟩
      rw [instruction, completed, rates_count, same]
      exact .cons (fun _ same => Event.noConfusion same) (.nil _)

theorem stepOnce_paced (world : World (Watched η)) :
    Paced world (world.stepOnce host.watched).world := by
  have executed := execute_paced host world
  unfold stepOnce
  simp only
  split
  · exact executed
  · refine executed.trans (.of_same rfl rfl ?_)
    simp only [rates, modifyScheduler]
    split
    · rfl
    · rfl

theorem sleepUntilDue_paced (world : World (Watched η)) :
    Paced world (world.sleepUntilDue host.watched) := by
  unfold sleepUntilDue
  split
  · simp only
    split
    · exact .of_same rfl rfl rfl
    · exact .of_same rfl rfl rfl
  · exact .of_same rfl rfl rfl

theorem throttle_paced (now interval : Float) (world : World (Watched η)) :
    Paced world (world.throttle host.watched now interval).world := by
  unfold throttle
  split
  · have executed := execute_paced host world
    simp only
    split
    · exact executed
    · have set : Paced (world.execute host.watched).world
          ((world.execute host.watched).world.modifyScheduler fun scheduler =>
            { scheduler with nextInstruction := now + interval }) := .of_same rfl rfl rfl
      exact (executed.trans set).trans (sleepUntilDue_paced host _)
  · exact sleepUntilDue_paced host world

theorem move_paced (now : Float) (world : World (Watched η)) :
    Paced world (world.move host.watched now).world := by
  unfold move
  simp only
  split
  · exact .of_same rfl rfl rfl
  · exact stepOnce_paced host world
  · exact .of_same rfl rfl rfl
  · have counted := countTimers_paced host now world
    unfold proceed
    simp only
    split
    · exact counted.trans (execute_paced host _)
    · exact counted.trans (throttle_paced host now _ _)

theorem slice_booked (world : World (Watched η)) :
    ∃ told, Booked world (world.slice host.watched refuseRun).world told
      (world.sliceMet host) := by
  obtain ⟨before, noted, still⟩ := polled_noted host world
  have moved : Paced (world.polled host.watched refuseRun).world
      (world.slice host.watched refuseRun).world := by
    rw [slice_eq]
    split
    · exact .of_same rfl rfl rfl
    · exact move_paced host _ _
  obtain ⟨work, worked, booked⟩ := moved
  refine ⟨before ++ work, ?_⟩
  rw [sliceMet, met_behind noted.record still worked]
  exact noted.trans booked

theorem loop_booked (passes : Nat) (world : World (Watched η)) :
    ∃ told, Booked world (world.loop host.watched refuseRun passes).world told
      (world.loopMet host passes) := by
  induction passes generalizing world with
  | zero => exact ⟨[], .of_same rfl rfl⟩
  | succ passes ih =>
      obtain ⟨told, sliced⟩ := slice_booked host world
      simp only [loop, loopMet]
      generalize world.slice host.watched refuseRun = turn at *
      obtain ⟨after, answer⟩ := turn
      cases answer with
      | error cause =>
          simp only [List.append_nil]
          exact ⟨told, sliced⟩
      | ok more =>
          cases more with
          | false =>
              simp only [List.append_nil]
              exact ⟨told, sliced⟩
          | true =>
              obtain ⟨later, rest⟩ := ih after
              exact ⟨told ++ later, sliced.trans rest⟩

theorem finish_noted (turn : Turn (Watched η) Unit) :
    Noted turn.world (finish host.watched turn).world := by
  obtain ⟨world, answer⟩ := turn
  cases answer with
  | error cause =>
      cases cause with
      | fault | exhausted => exact .of_same rfl rfl
  | ok _ =>
      obtain ⟨reset, told, _, effects⟩ := told_discardRun host (world.refresh host.watched)
      have scheduler := scheduler_discardRun host.watched (world.refresh host.watched)
      have same : ((world.refresh host.watched).discardRun host.watched).rates =
          (world.refresh host.watched).rates := by
        rw [rates, scheduler]
        rfl
      exact (refresh_noted host world).trans (.of_effects told effects same)

/-- What a run tells, and what it has counted for the next report when it is over. -/
theorem run_booked (passes : Nat) (paused : Bool) {world : World (Watched η)}
    (stopped : world.scheduler.state = .stopped)
    (alone : Alone host.watched (passes + 1) paused world) :
    ∃ told, Booked world (World.run host.watched (passes + 1) paused world).world told
      (world.executed host paused passes) := by
  have begun : Booked world (world.begin host.watched paused).world [] [] := by
    unfold begin
    rw [if_pos stopped]
    exact .of_same rfl rfl
  obtain ⟨told, looped⟩ := loop_booked host passes (world.begin host.watched paused).world
  obtain ⟨ending, finished, _⟩ := finish_noted host
    ((world.begin host.watched paused).world.loop host.watched refuseRun passes)
  have booked := (begun.trans looped).trans finished
  rw [List.append_nil] at booked
  rw [alone.run_eq stopped]
  exact ⟨_, booked⟩

end

def runEvents (host : Host η) (passes : Nat) (paused : Bool) (world : World (Watched η)) :
    List Event :=
  events ((World.run host.watched (passes + 1) paused world).world.told.drop world.told.length)
    (world.executed host paused passes)

/-- The events of the runs of a scheduler so far, none of which has begun within another. Between
two runs everything may change but what has been counted for the next report. -/
inductive Runs : List (List Event) → World (Watched η) → Prop where
  | created {world : World (Watched η)} : world.rates = .none → Runs [] world
  | prepared {runs : List (List Event)} {world next : World (Watched η)} :
      Runs runs world → next.rates = world.rates → Runs runs next
  | ran {runs : List (List Event)} {world : World (Watched η)} (host : Host η) (passes : Nat)
      (paused : Bool) : Runs runs world → world.scheduler.state = .stopped →
      Alone host.watched (passes + 1) paused world →
      Runs (runs ++ [world.runEvents host passes paused])
        (World.run host.watched (passes + 1) paused world).world

theorem Runs.tallied {runs : List (List Event)} {world : World (Watched η)}
    (ran : Runs runs world) : Tallied .none runs.flatten world.rates := by
  induction ran with
  | created fresh =>
      rw [fresh]
      exact .nil _
  | prepared _ same ih =>
      rw [same]
      exact ih
  | @ran runs world host passes paused _ stopped alone ih =>
      obtain ⟨told, booked⟩ := run_booked host passes paused stopped alone
      rw [List.flatten_append, List.flatten_singleton, runEvents, booked.record, List.drop_left]
      exact ih.append booked.tallied

/-- A report counts from the one before, of whatever run that was. So it tells the counts of its
own run exactly if it is not the first one of the run, or nothing was left over when the run
began. -/
theorem report_of_runs {before after : List (List Event)} {earlier later : List Event}
    {told : Rates} {world : World (Watched η)}
    (ran : Runs (before ++ (earlier ++ .report told :: later) :: after) world) :
    told = (Rates.none.behind before.flatten).behind earlier ∧
    (told = Rates.none.behind earlier ↔
      Rates.none.behind before.flatten = .none ∨ ∃ first, .report first ∈ earlier) := by
  have reported : (before ++ (earlier ++ .report told :: later) :: after).flatten =
      (before.flatten ++ earlier) ++ .report told :: (later ++ after.flatten) := by
    simp only [List.flatten_append, List.flatten_cons, List.append_assoc, List.cons_append]
  have same := ran.tallied.report_eq reported
  rw [Rates.behind_append] at same
  exact ⟨same, same ▸ Rates.behind_eq_iff earlier _ _⟩

/-- A host whose clock shows how often it was read. Its polls ask for nothing. -/
def metronome : Host Nat where
  readClock := fun reads => (Float.ofNat reads, reads + 1)
  wait := fun _ reads => reads
  receive := fun _ reads => reads
  poll := fun _ => .leave false

/-- A machine that jumps to itself, about to run for one instruction. -/
def spinner : World (Watched Nat) where
  scheduler := { interval := none, cycleLimit := 1 }
  machine := (Machine.assemble .plain (.scripted [] 0) false).1.after [.loadRom [0x12, 0x00]]
  host := ⟨0, []⟩

def spun : World (Watched Nat) := (World.run metronome.watched (3 + 1) false spinner).world

theorem runs_spinner :
    Runs [[.report ⟨0, 0⟩, .picture, .instruction], [.report ⟨1, 1⟩, .instruction]]
      (World.run metronome.watched (3 + 1) false spun).world := by
  obtain ⟨fresh, stopped, alone, first⟩ : spinner.rates = .none ∧
      spinner.scheduler.state = .stopped ∧ Alone metronome.watched (3 + 1) false spinner ∧
      spinner.runEvents metronome 3 false =
        [.report ⟨0, 0⟩, .picture, .instruction] := by decide +kernel
  obtain ⟨again, aloneAgain, second⟩ : spun.scheduler.state = .stopped ∧
      Alone metronome.watched (3 + 1) false spun ∧
      spun.runEvents metronome 3 false = [.report ⟨1, 1⟩, .instruction] := by decide +kernel
  have created : Runs [] spinner := .created fresh
  have once : Runs ([] ++ [spinner.runEvents metronome 3 false]) spun :=
    .ran metronome 3 false created stopped alone
  have twice := Runs.ran metronome 3 false once again aloneAgain
  rw [first, second] at twice
  exact twice

/-- The first report of the second run tells what the first run has done. -/
theorem report_of_runs_spinner :
    (⟨1, 1⟩ : Rates) = Rates.none.behind [.report ⟨0, 0⟩, .picture, .instruction] := by
  have ran : Runs ([[.report ⟨0, 0⟩, .picture, .instruction]] ++
      ([] ++ .report ⟨1, 1⟩ :: [.instruction]) :: [])
      (World.run metronome.watched (3 + 1) false spun).world := runs_spinner
  exact (report_of_runs ran).1

theorem report_of_earlier_run :
    Runs [[.report ⟨0, 0⟩, .picture, .instruction], [.report ⟨1, 1⟩, .instruction]]
        (World.run metronome.watched (3 + 1) false spun).world ∧
      (⟨1, 1⟩ : Rates) ≠ Rates.none.behind [] :=
  ⟨runs_spinner, by decide⟩

end World

end Chip8
