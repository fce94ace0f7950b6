import Chip8.Proofs.Scheduler.GoesOn

/-!
# Parts of slices

A slice holds the dialogue of its poll, if one is due, and then moves the
machine on. Each part is taken down here once, with every way in which it can
end, and so are the beginning and the end of a run. What a slice does besides,
it only waits: it reads the clock, sleeps, and reports rates.
-/

set_option autoImplicit false

namespace Chip8

variable {η : Type}

/-- The host has been asked for the time, has slept, or has been told rates. -/
inductive Host.Waits (host : Host η) : η → η → Prop where
  | refl (state : η) : Waits host state state
  | readClock {before after : η} : Waits host before after →
      Waits host before (host.readClock after).2
  | wait {before after : η} (seconds : Float) : Waits host before after →
      Waits host before (host.wait seconds after)
  | rates {before after : η} (pictures instructions : Int) : Waits host before after →
      Waits host before (host.receive (.signal (.rates pictures instructions)) after)

theorem Host.Waits.trans {host : Host η} {first second third : η}
    (before : host.Waits first second) (after : host.Waits second third) :
    host.Waits first third := by
  induction after with
  | refl => exact before
  | readClock _ ih => exact .readClock ih
  | wait seconds _ ih => exact .wait seconds ih
  | rates pictures instructions _ ih => exact .rates pictures instructions ih

namespace World

/-- Nothing that a run is about has changed in between. -/
structure Waited (host : Host η) (before after : World η) : Prop where
  machine : after.machine = before.machine
  tally : after.scheduler.tally = before.scheduler.tally
  frame : after.scheduler.frame = before.scheduler.frame
  stopped : after.scheduler.state = .stopped ↔ before.scheduler.state = .stopped
  host : host.Waits before.host after.host

namespace Waited

variable {host : Host η} {first second third : World η}

theorem refl (world : World η) : Waited host world world where
  machine := rfl
  tally := rfl
  frame := rfl
  stopped := Iff.rfl
  host := .refl _

theorem trans (before : Waited host first second) (after : Waited host second third) :
    Waited host first third where
  machine := after.machine.trans before.machine
  tally := after.tally.trans before.tally
  frame := after.frame.trans before.frame
  stopped := after.stopped.trans before.stopped
  host := before.host.trans after.host

theorem readClock (waited : Waited host first second) :
    Waited host first (second.readClock host).2 :=
  { waited with host := .readClock waited.host }

theorem sleep (waited : Waited host first second) (seconds : Float) :
    Waited host first (second.sleep host seconds) :=
  { waited with host := .wait seconds waited.host }

theorem modifyScheduler (waited : Waited host first second) {change : Scheduler → Scheduler}
    (tally : (change second.scheduler).tally = second.scheduler.tally)
    (frame : (change second.scheduler).frame = second.scheduler.frame)
    (stopped : (change second.scheduler).state = .stopped ↔ second.scheduler.state = .stopped) :
    Waited host first (second.modifyScheduler change) where
  machine := waited.machine
  tally := tally.trans waited.tally
  frame := frame.trans waited.frame
  stopped := stopped.trans waited.stopped
  host := waited.host

end Waited

theorem report_waited (host : Host η) (now : Float) (world : World η) :
    Waited host world (world.report host now) := by
  unfold report
  split
  · have told : Waited host world (world.tellAll host
        (world.machine.screen.report world.scheduler.pictures world.scheduler.completed)) :=
      ⟨rfl, rfl, rfl, Iff.rfl, .rates _ _ (.refl _)⟩
    exact told.modifyScheduler rfl rfl Iff.rfl
  · exact .refl world

theorem sleepUntilDue_waited (host : Host η) (world : World η) :
    Waited host world (world.sleepUntilDue host) := by
  have start : Waited host world world := .refl world
  have seen := start.readClock
  unfold sleepUntilDue
  split
  · simp only
    split
    · exact seen.sleep _
    · exact seen
  · exact .refl world

section

variable (host : Host η) (run : Bool → World η → Turn η Nat)

def poll? (world : World η) : Option (World η) :=
  let (now, seen) := world.readClock host
  let reported := seen.report host now
  if world.scheduler.state ≠ .stopped ∧ reported.scheduler.nextFrame ≤ now then
    some ((reported.modifyScheduler fun scheduler =>
      { scheduler with nextFrame := now + frameInterval }).tell host
        (.poll reported.scheduler.frame))
  else none

def dialogue (asked : World η) : Turn η Bool :=
  asked.converse host run (host.poll asked.scheduler.frame)

def shown (world : World η) : World η :=
  (world.modifyScheduler fun scheduler =>
    { scheduler with frame := scheduler.frame + 1 }).refresh host

def heed (turn : Turn η Bool) : Turn η Unit :=
  match turn.answer with
  | .ok false => ⟨turn.world.shown host, .ok ()⟩
  | .ok true => ⟨turn.world.stop, .ok ()⟩
  | .error cause => ⟨turn.world, .error cause⟩

theorem poll?_eq_some {world asked : World η} (poll : world.poll? host = some asked) :
    world.scheduler.state ≠ .stopped ∧
      ∃ waited, Waited host world waited ∧
        asked.scheduler.tally = world.scheduler.tally ∧
        asked.scheduler.frame = world.scheduler.frame ∧
        asked.scheduler.state = waited.scheduler.state ∧
        asked.machine = world.machine ∧
        asked.host = host.receive (.poll world.scheduler.frame) waited.host := by
  have start : Waited host world world := .refl world
  have reported := start.readClock.trans (report_waited host (world.readClock host).1 _)
  simp only [poll?] at poll
  split at poll
  case isTrue due =>
    cases poll
    refine ⟨due.1, _, reported, reported.tally, reported.frame, rfl, reported.machine, ?_⟩
    rw [← reported.frame]
    rfl
  case isFalse => cases poll

theorem polled_of_none {world : World η} (poll : world.poll? host = none) :
    ∃ after, Waited host world after ∧ ∀ run, world.polled host run = ⟨after, .ok ()⟩ := by
  have start : Waited host world world := .refl world
  have seen := start.readClock
  have reported := seen.trans (report_waited host (world.readClock host).1 _)
  -- Either the run is over, or the next frame is not due yet.
  by_cases stopped : (world.readClock host).2.scheduler.state = .stopped
  · refine ⟨_, seen, ?_⟩
    intro run
    simp only [polled, stopped, ↓reduceIte]
  · have early : ¬((world.readClock host).2.report host
        (world.readClock host).1).scheduler.nextFrame ≤ (world.readClock host).1 := by
      intro due
      simp only [poll?] at poll
      rw [if_pos ⟨stopped, due⟩] at poll
      cases poll
    refine ⟨_, reported, ?_⟩
    intro run
    simp only [polled, stopped, ↓reduceIte, attend, early]

theorem polled_of_some {world asked : World η} (poll : world.poll? host = some asked) :
    world.polled host run = heed host (asked.dialogue host run) := by
  simp only [poll?] at poll
  split at poll
  case isTrue due =>
    have live : (world.readClock host).2.scheduler.state ≠ .stopped := due.1
    have same := Option.some.inj poll
    have frame : ((world.readClock host).2.report host (world.readClock host).1).scheduler.frame =
        asked.scheduler.frame := by
      rw [← same]
      rfl
    simp only [polled, live, ↓reduceIte, attend, due.2]
    simp only [same, heed, dialogue]
    rw [frame]
    generalize converse host run _ asked = turn
    obtain ⟨after, answer⟩ := turn
    cases answer with
    | error cause => rfl
    | ok quit =>
        cases quit with
        | false => rfl
        | true => rfl
  case isFalse => cases poll

theorem refresh_keeps (world : World η) :
    (world.refresh host).scheduler.tally = world.scheduler.tally ∧
      (world.refresh host).scheduler.frame = world.scheduler.frame ∧
      (world.refresh host).scheduler.state = world.scheduler.state := by
  obtain ⟨_, scheduler, _⟩ := refresh_eq host world
  rw [scheduler]
  exact ⟨rfl, rfl, rfl⟩

theorem frame_shown (world : World η) :
    (world.shown host).scheduler.frame = world.scheduler.frame + 1 :=
  (refresh_keeps host _).2.1

end

def cycled (host : Host η) (world : World η) : World η :=
  ((world.tell host .cycle).adopt host world.machine.cycle).world

theorem cycled_keeps (host : Host η) (world : World η) :
    (world.cycled host).scheduler = world.scheduler ∧
      (world.cycled host).machine = world.machine.cycle.state :=
  ⟨scheduler_tellAll host _ _, machine_tellAll host _ _⟩

theorem frame_count (world : World η) : world.count.scheduler.frame = world.scheduler.frame := by
  obtain ⟨_, _, counted⟩ := scheduler_count world
  rw [counted]

theorem execute_eq (host : Host η) (world : World η) :
    world.execute host =
      match world.machine.cycle.answer with
      | .ok () => ⟨(world.cycled host).count, .ok ()⟩
      | .error cause => ⟨world.cycled host, .error (.fault cause)⟩ := by
  simp only [execute, cycled, adopt]
  cases world.machine.cycle.answer with
  | error cause => rfl
  | ok _ => rfl

/-- A live scheduler may let the timers of its machine count. -/
inductive Due (host : Host η) (world : World η) : World η → Prop where
  | untimed : world.scheduler.state ≠ .stopped → Due host world world
  | timed (now : Float) : world.scheduler.state ≠ .stopped →
      Due host world (world.countTimers host now)

theorem scheduler_countTimers (host : Host η) (now : Float) (world : World η) :
    ∃ next, (world.countTimers host now).scheduler =
      { world.scheduler with nextTick := next } := by
  rw [countTimers_eq]
  exact ⟨_, rfl⟩

theorem Due.keeps {host : Host η} {world ticked : World η} (due : world.Due host ticked) :
    ticked.scheduler.tally = world.scheduler.tally ∧
      ticked.scheduler.frame = world.scheduler.frame ∧
      ticked.scheduler.state ≠ .stopped := by
  cases due with
  | untimed live => exact ⟨rfl, rfl, live⟩
  | timed now live =>
      obtain ⟨_, scheduler⟩ := scheduler_countTimers host now world
      rw [scheduler]
      exact ⟨rfl, rfl, live⟩

/-- How the part of a slice behind its poll ends. -/
inductive Moved (host : Host η) (world : World η) : Turn η Bool → Prop where
  | stopped : world.scheduler.state = .stopped → Moved host world ⟨world, .ok false⟩
  | rested {ticked after : World η} : world.Due host ticked → ticked.Waited host after →
      Moved host world ⟨after, .ok true⟩
  | failed {ticked : World η} {cause : Fault} : world.Due host ticked →
      ticked.machine.cycle.answer = .error cause →
      Moved host world ⟨ticked.cycled host, .error (.fault cause)⟩
  | executed {ticked after : World η} : world.Due host ticked →
      ticked.machine.cycle.answer = .ok () → (ticked.cycled host).count.Waited host after →
      Moved host world ⟨after, .ok true⟩

theorem stepped_waited (host : Host η) (world : World η) :
    Waited host world (world.modifyScheduler fun scheduler =>
      if scheduler.state = .stepping then { scheduler with state := .paused } else scheduler) := by
  by_cases stepping : world.scheduler.state = .stepping
  · refine (Waited.refl world).modifyScheduler ?_ ?_ ?_
    · simp only [stepping, ↓reduceIte]
      rfl
    · simp only [stepping, ↓reduceIte]
    · simp only [stepping, ↓reduceIte]
      decide
  · refine (Waited.refl world).modifyScheduler ?_ ?_ ?_
    · simp only [stepping, ↓reduceIte]
    · simp only [stepping, ↓reduceIte]
    · simp only [stepping, ↓reduceIte]

theorem move_moved (host : Host η) (now : Float) (world : World η) :
    Moved host world (world.move host now) := by
  cases state : world.scheduler.state with
  | stopped =>
      simp only [move, state]
      exact .stopped state
  | paused =>
      have live : world.scheduler.state ≠ .stopped := by simp [state]
      simp only [move, state]
      exact .rested (.untimed live) ((Waited.refl world).sleep _)
  | stepping =>
      have live : world.scheduler.state ≠ .stopped := by simp [state]
      simp only [move, state, stepOnce, execute_eq]
      cases answer : world.machine.cycle.answer with
      | error cause => exact .failed (.untimed live) answer
      | ok _ => exact .executed (.untimed live) answer (stepped_waited host _)
  | running =>
      have live : world.scheduler.state ≠ .stopped := by simp [state]
      have due : world.Due host (world.countTimers host now) := .timed now live
      simp only [move, state, proceed]
      cases (world.countTimers host now).scheduler.interval with
      | none =>
          simp only [execute_eq]
          cases answer : (world.countTimers host now).machine.cycle.answer with
          | error cause => exact .failed due answer
          | ok _ => exact .executed due answer (.refl _)
      | some interval =>
          simp only [throttle, execute_eq]
          split
          · cases answer : (world.countTimers host now).machine.cycle.answer with
            | error cause => exact .failed due answer
            | ok _ =>
                -- The next instruction is put off before the scheduler goes to sleep.
                let counted := ((world.countTimers host now).cycled host).count
                have set : Waited host counted (counted.modifyScheduler fun scheduler =>
                    { scheduler with nextInstruction := now + interval }) :=
                  (Waited.refl counted).modifyScheduler rfl rfl Iff.rfl
                exact .executed due answer (set.trans (sleepUntilDue_waited host _))
          · exact .rested due (sleepUntilDue_waited host _)

inductive Sliced (host : Host η) (run : Bool → World η → Turn η Nat) (world : World η) :
    Turn η Bool → Prop where
  | unasked {after : World η} {turn : Turn η Bool} : world.poll? host = none →
      Waited host world after → Moved host after turn → Sliced host run world turn
  | shown {asked : World η} {turn : Turn η Bool} : world.poll? host = some asked →
      (asked.dialogue host run).answer = .ok false →
      Moved host ((asked.dialogue host run).world.shown host) turn → Sliced host run world turn
  | quit {asked : World η} : world.poll? host = some asked →
      (asked.dialogue host run).answer = .ok true →
      Sliced host run world ⟨(asked.dialogue host run).world.stop, .ok false⟩
  | failed {asked : World η} {cause : Halt} : world.poll? host = some asked →
      (asked.dialogue host run).answer = .error cause →
      Sliced host run world ⟨(asked.dialogue host run).world, .error cause⟩

theorem slice_sliced (host : Host η) (run : Bool → World η → Turn η Nat) (world : World η) :
    Sliced host run world (world.slice host run) := by
  rw [slice_eq]
  cases poll : world.poll? host with
  | none =>
      obtain ⟨after, waited, polled⟩ := polled_of_none host poll
      rw [polled]
      exact .unasked poll waited (move_moved host _ after)
  | some asked =>
      rw [polled_of_some host run poll]
      cases answer : (asked.dialogue host run).answer with
      | error cause =>
          simp only [heed, answer]
          exact .failed poll answer
      | ok quits =>
          cases quits with
          | true =>
              simp only [heed, answer]
              rw [move_of_stopped host _ rfl]
              exact .quit poll answer
          | false =>
              simp only [heed, answer]
              exact .shown poll answer (move_moved host _ _)

/-- The runs that a poll may ask for make no difference to a slice but by its dialogue. -/
theorem slice_of_dialogue (host : Host η) (run : Bool → World η → Turn η Nat) {world : World η}
    (same : ∀ asked, world.poll? host = some asked →
      asked.dialogue host run = asked.dialogue host refuseRun) :
    world.slice host run = world.slice host refuseRun := by
  rw [slice_eq, slice_eq]
  cases poll : world.poll? host with
  | none =>
      obtain ⟨after, _, polled⟩ := polled_of_none host poll
      rw [polled run, polled refuseRun]
  | some asked =>
      rw [polled_of_some host run poll, polled_of_some host refuseRun poll, same asked poll]

/-- What a dialogue that starts no run does to the scheduler: it may stop it for good, and have
the machine reset then, and it leaves the counts alone. -/
structure Heeds (before after : World η) : Prop where
  tally : after.scheduler.tally =
    { before.scheduler.tally with discard := after.scheduler.discard }
  frame : after.scheduler.frame = before.scheduler.frame
  stopped : before.scheduler.state = .stopped → after.scheduler.state = .stopped
  discard : after.scheduler.discard = before.scheduler.discard ∨
    (after.scheduler.discard = true ∧ after.scheduler.state = .stopped)

namespace Heeds

theorem refl (world : World η) : Heeds world world where
  tally := rfl
  frame := rfl
  stopped := id
  discard := .inl rfl

theorem trans {first second third : World η} (before : Heeds first second)
    (after : Heeds second third) : Heeds first third where
  tally := by
    rw [after.tally, before.tally]
  frame := after.frame.trans before.frame
  stopped := after.stopped ∘ before.stopped
  discard := by
    rcases after.discard with same | stops
    · rcases before.discard with first | ⟨set, stopped⟩
      · exact .inl (same.trans first)
      · exact .inr ⟨same.trans set, after.stopped stopped⟩
    · exact .inr stops

theorem of_scheduler {before after : World η} (scheduler : after.scheduler = before.scheduler) :
    Heeds before after where
  tally := by
    rw [scheduler]
    rfl
  frame := by rw [scheduler]
  stopped := by
    rw [scheduler]
    exact id
  discard := .inl (by rw [scheduler])

/-- A scheduler that is not stopped may be paused, run on or made to step. -/
theorem of_live {before after : World η} (live : before.scheduler.state ≠ .stopped)
    (tally : after.scheduler.tally =
      { before.scheduler.tally with discard := after.scheduler.discard })
    (frame : after.scheduler.frame = before.scheduler.frame)
    (discard : after.scheduler.discard = before.scheduler.discard) : Heeds before after where
  tally := tally
  frame := frame
  stopped := fun stopped => absurd stopped live
  discard := .inl discard

end Heeds

theorem perform_heeds (host : Host η) (request : Request) (world : World η) :
    Heeds world (world.perform host refuseRun request).world ∧
      (request ≠ .stop → (world.perform host refuseRun request).world.scheduler.discard =
        world.scheduler.discard) := by
  cases request with
  | run | setDialect => exact ⟨.of_scheduler rfl, fun _ => rfl⟩
  | stop => exact ⟨⟨rfl, rfl, fun _ => rfl, .inr ⟨rfl, rfl⟩⟩, fun other => absurd rfl other⟩
  | pause =>
      simp only [perform, pause]
      cases state : world.scheduler.state with
      | stopped | paused | stepping => exact ⟨.refl world, fun _ => rfl⟩
      | running =>
          have live : world.scheduler.state ≠ .stopped := by simp [state]
          exact ⟨.of_live live rfl rfl rfl, fun _ => rfl⟩
  | resume =>
      simp only [perform, resume]
      cases state : world.scheduler.state with
      | stopped | running => exact ⟨.refl world, fun _ => rfl⟩
      | paused | stepping =>
          have live : world.scheduler.state ≠ .stopped := by simp [state]
          exact ⟨.of_live live rfl rfl rfl, fun _ => rfl⟩
  | step =>
      simp only [perform, step]
      cases state : world.scheduler.state with
      | stopped | running => exact ⟨.refl world, fun _ => rfl⟩
      | paused | stepping =>
          have live : world.scheduler.state ≠ .stopped := by simp [state]
          exact ⟨.of_live live rfl rfl rfl, fun _ => rfl⟩
  | setSpeed speed =>
      simp only [perform, setSpeed]
      cases Scheduler.intervalOf speed with
      | error cause => exact ⟨.refl world, fun _ => rfl⟩
      | ok interval => exact ⟨⟨rfl, rfl, id, .inl rfl⟩, fun _ => rfl⟩
  | setKey number pressed =>
      simp only [perform, setKey]
      cases world.machine.setKey number pressed with
      | error cause => exact ⟨.refl world, fun _ => rfl⟩
      | ok machine => exact ⟨.of_scheduler rfl, fun _ => rfl⟩
  | loadRom rom =>
      have scheduler : (world.perform host refuseRun (.loadRom rom)).world.scheduler =
          world.scheduler := scheduler_tellAll host _ _
      exact ⟨.of_scheduler scheduler, fun _ => congrArg Scheduler.discard scheduler⟩

theorem converse_heeds (host : Host η) (visit : Visit η) (world : World η) :
    Heeds world (converse host refuseRun visit world).world := by
  induction visit generalizing world with
  | leave | fail => exact .refl world
  | ask request next ih =>
      obtain ⟨performed, _⟩ := perform_heeds host request world
      simp only [converse]
      split
      · exact performed.trans (ih _ _)
      · exact performed.trans (ih _ _)
      · exact performed
  | consult next ih => exact ih world world
  | update change next ih =>
      have kept : Heeds world { world with host := change world.host } := .of_scheduler rfl
      exact kept.trans (ih _)

theorem perform_of_refused (host : Host η) (run : Bool → World η → Turn η Nat)
    {world : World η} {request : Request}
    (refused : ∀ paused, request = .run paused → run paused world = refuseRun paused world) :
    world.perform host run request = world.perform host refuseRun request := by
  cases request with
  | run paused => simp only [perform, refused paused rfl]
  | pause | resume | step | stop | setSpeed | setDialect | setKey | loadRom => rfl

theorem converse_of_controls (host : Host η) (run : Bool → World η → Turn η Nat)
    {visit : Visit η} (controls : visit.Controls) (world : World η) :
    converse host run visit world = converse host refuseRun visit world := by
  induction visit generalizing world with
  | leave | fail => rfl
  | ask request next ih =>
      simp only [converse, perform_of_control host run controls.1]
      split
      · exact ih _ (controls.2 _) _
      · exact ih _ (controls.2 _) _
      · rfl
  | consult next ih => exact ih world (controls world) world
  | update change next ih => exact ih controls _

/-- A run that is accepted starts to count anew. -/
structure Begun (host : Host η) (before after : World η) : Prop where
  machine : after.machine = before.machine
  live : after.scheduler.state ≠ .stopped
  tally : after.scheduler.tally =
    { before.scheduler.tally with cycles := 0, idleCycles := 0, discard := false }
  frame : after.scheduler.frame = 0
  host : host.Waits before.host after.host

theorem begin_begun (host : Host η) (paused : Bool) {world : World η}
    (stopped : world.scheduler.state = .stopped) :
    (world.begin host paused).answer = .ok () ∧
      Begun host world (world.begin host paused).world := by
  simp only [begin, stopped, ↓reduceIte]
  refine ⟨trivial, rfl, ?_, rfl, rfl, .readClock (.refl _)⟩
  cases paused with
  | false => exact RunState.noConfusion
  | true => exact RunState.noConfusion

theorem run_accepted {host : Host η} {passes cycles : Nat} {paused : Bool} {world : World η}
    (ended : (World.run host passes paused world).answer = .ok cycles) :
    ∃ fewer, passes = fewer + 1 ∧ world.scheduler.state = .stopped := by
  cases passes with
  | zero =>
      simp only [World.run] at ended
      cases answer : (world.begin host paused).answer with
      | error cause =>
          rw [answer] at ended
          cases ended
      | ok _ =>
          rw [answer] at ended
          cases ended
  | succ fewer =>
      refine ⟨fewer, rfl, ?_⟩
      by_cases stopped : world.scheduler.state = .stopped
      · exact stopped
      · simp only [World.run, begin, if_neg stopped] at ended
        cases ended

theorem run_of_stopped (host : Host η) (passes : Nat) (paused : Bool) {world : World η}
    (stopped : world.scheduler.state = .stopped) :
    World.run host (passes + 1) paused world =
      finish host ((world.begin host paused).world.loop host (World.run host passes) passes) := by
  simp only [World.run, (begin_begun host paused stopped).1]

theorem scheduler_discardRun (host : Host η) (world : World η) :
    (world.discardRun host).scheduler = world.scheduler := by
  unfold discardRun
  split
  · exact scheduler_tellAll host _ _
  · rfl

theorem finish_of_ok (host : Host η) {turn : Turn η Unit} {cycles : Nat}
    (finished : (finish host turn).answer = .ok cycles) :
    turn.answer = .ok () ∧
      (finish host turn).world = (turn.world.refresh host).discardRun host := by
  obtain ⟨world, answer⟩ := turn
  cases answer with
  | ok _ => exact ⟨rfl, rfl⟩
  | error cause =>
      cases cause with
      | fault | exhausted => cases finished

theorem loop_of_slices (host : Host η) (run : Bool → World η → Turn η Nat) {holds : World η → Prop}
    (slices : ∀ world more, holds world → (world.slice host run).answer = .ok more →
      holds (world.slice host run).world)
    (passes : Nat) {world : World η} (held : holds world)
    (ended : (world.loop host run passes).answer = .ok ()) :
    holds (world.loop host run passes).world := by
  induction passes generalizing world with
  | zero => cases ended
  | succ passes ih =>
      simp only [loop] at ended ⊢
      split at ended
      · cases ended
      case h_2 answer => exact slices world false held answer
      case h_3 answer => exact ih (slices world true held answer) ended

def gather {α : Type} (host : Host η) (run : Bool → World η → Turn η Nat)
    (yield : World η → List α) : Nat → World η → List α
  | 0, _ => []
  | passes + 1, world =>
      yield world ++
        match (world.slice host run).answer with
        | .ok true => gather host run yield passes (world.slice host run).world
        | .ok false | .error _ => []

end World

end Chip8
