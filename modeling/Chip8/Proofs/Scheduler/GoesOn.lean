import Chip8.Proofs.Scheduler.Law
import Chip8.Proofs.Scheduler.Limit

/-!
# Polls that go on

A poll goes on when its dialogue comes to its end without a wish to stop or to
quit, a failure, a load or a run of its own. It may pause, resume and step, and
change keys, the speed and the dialect. It leaves the run on and its counts
alone, and the machine does not work.
-/

set_option autoImplicit false

namespace Chip8

variable {η : Type}

/-- A run that is asked for while another one is on. -/
def World.refuseRun (_ : Bool) (world : World η) : Turn η Nat := world.refused .alreadyRunning

/-- The dialogue comes to its end without a wish to stop or to quit, a failure, a load or a run
of its own. -/
def Visit.GoesOn (host : Host η) : Visit η → World η → Prop
  | .leave quit, _ => quit = false
  | .fail _, _ => False
  | .ask request next, world =>
      request.IsControl ∧ request ≠ .stop ∧
        match (world.perform host World.refuseRun request).answer with
        | .ok answer =>
            (next (.ok answer)).GoesOn host (world.perform host World.refuseRun request).world
        | .error (.fault cause) =>
            (next (.error cause)).GoesOn host (world.perform host World.refuseRun request).world
        | .error .exhausted => False
  | .consult next, world => (next world).GoesOn host world
  | .update change next, world => next.GoesOn host { world with host := change world.host }

namespace World

/-- The poll of the next slice goes on, if there is one. -/
def PollGoesOn (host : Host η) (world : World η) : Prop :=
  let (now, seen) := world.readClock host
  let reported := seen.report host now
  let frame := reported.scheduler.frame
  world.scheduler.state ≠ .stopped → reported.scheduler.nextFrame ≤ now →
    (host.poll frame).GoesOn host ((reported.modifyScheduler fun scheduler =>
      { scheduler with nextFrame := now + frameInterval }).tell host (.poll frame))

/-- The polls of the next slices go on. -/
def PollsGoOn (host : Host η) : Nat → World η → Prop
  | 0, _ => True
  | passes + 1, world =>
      world.PollGoesOn host ∧
        ((world.slice host refuseRun).answer = .ok true →
          PollsGoOn host passes (world.slice host refuseRun).world)

section

variable (host : Host η) (run : Bool → World η → Turn η Nat) {request : Request} {world : World η}

theorem perform_of_control (control : request.IsControl) (world : World η) :
    world.perform host run request = world.perform host refuseRun request := by
  cases request with
  | run | loadRom => cases control
  | pause | resume | step | stop | setSpeed | setDialect | setKey => rfl

/-- A control other than a stop leaves the counts alone and the run on. -/
theorem perform_goesOn (control : request.IsControl) (goesOn : request ≠ .stop)
    (live : world.scheduler.state ≠ .stopped) :
    (world.perform host run request).world.scheduler.tally = world.scheduler.tally ∧
      (world.perform host run request).world.scheduler.state ≠ .stopped := by
  cases request with
  | run | loadRom => cases control
  | stop => exact absurd rfl goesOn
  | pause =>
      simp only [perform, pause]
      cases state : world.scheduler.state with
      | stopped => exact absurd state live
      | running => exact ⟨rfl, RunState.noConfusion⟩
      | paused | stepping => exact ⟨rfl, live⟩
  | resume =>
      simp only [perform, resume]
      cases state : world.scheduler.state with
      | stopped => exact absurd state live
      | running => exact ⟨rfl, live⟩
      | paused | stepping => exact ⟨rfl, RunState.noConfusion⟩
  | step =>
      simp only [perform, step]
      cases state : world.scheduler.state with
      | stopped => exact absurd state live
      | running => exact ⟨rfl, live⟩
      | paused | stepping => exact ⟨rfl, RunState.noConfusion⟩
  | setDialect => exact ⟨rfl, live⟩
  | setSpeed speed =>
      simp only [perform, setSpeed]
      cases Scheduler.intervalOf speed with
      | error cause => exact ⟨rfl, live⟩
      | ok interval => exact ⟨rfl, live⟩
  | setKey number pressed =>
      simp only [perform, setKey]
      cases world.machine.setKey number pressed with
      | error cause => exact ⟨rfl, live⟩
      | ok machine => exact ⟨rfl, live⟩

end

/-- What a poll that goes on leaves behind: a run that is still on, its counts and its machine. -/
structure Attentive (before after : World (Watched η)) : Prop extends Attended before after where
  tally : after.scheduler.tally = before.scheduler.tally
  live : after.scheduler.state ≠ .stopped

theorem Attentive.trans {first second third : World (Watched η)} (before : Attentive first second)
    (after : Attentive second third) : Attentive first third where
  toAttended := before.toAttended.trans after.toAttended
  tally := after.tally.trans before.tally
  live := after.live

section

variable (host : Host η) (run : Bool → World (Watched η) → Turn (Watched η) Nat)
  {world : World (Watched η)}

theorem converse_goesOn {visit : Visit η} (world : World (Watched η))
    (live : world.scheduler.state ≠ .stopped) (goesOn : visit.watched.GoesOn host.watched world) :
    converse host.watched run visit.watched world =
        converse host.watched refuseRun visit.watched world ∧
      (converse host.watched refuseRun visit.watched world).answer = .ok false ∧
      Attentive world (converse host.watched refuseRun visit.watched world).world := by
  induction visit generalizing world with
  | leave quit => exact ⟨rfl, congrArg Except.ok goesOn, .refl world, rfl, live⟩
  | fail cause => exact goesOn.elim
  | consult next ih => exact ih world.unwatch world live goesOn
  | update change next ih =>
      obtain ⟨same, answer, attentive⟩ :=
        ih { world with host := { world.host with host := change world.host.host } } live goesOn
      exact ⟨same, answer, { attentive with }⟩
  | ask request next ih =>
      simp only [Visit.watched, Visit.GoesOn] at goesOn
      obtain ⟨control, continues, rest⟩ := goesOn
      have kept := perform_goesOn host.watched refuseRun control continues live
      have asked : Attentive world (world.perform host.watched refuseRun request).world :=
        ⟨perform_attended host refuseRun control world, kept.1, kept.2⟩
      simp only [Visit.watched, converse, perform_of_control host.watched run control]
      generalize world.perform host.watched refuseRun request = turn at *
      obtain ⟨after, answer⟩ := turn
      cases answer with
      | ok answer =>
          obtain ⟨same, answer, attentive⟩ := ih _ after asked.live rest
          exact ⟨same, answer, asked.trans attentive⟩
      | error halt =>
          cases halt with
          | exhausted => exact rest.elim
          | fault cause =>
              obtain ⟨same, answer, attentive⟩ := ih _ after asked.live rest
              exact ⟨same, answer, asked.trans attentive⟩

theorem report_attentive (now : Float) (live : world.scheduler.state ≠ .stopped) :
    Attentive world (world.report host.watched now) := by
  have kept : (world.report host.watched now).scheduler.tally = world.scheduler.tally ∧
      (world.report host.watched now).scheduler.state ≠ .stopped := by
    unfold report
    split
    · have scheduler := scheduler_tellAll host.watched world
        (world.machine.screen.report world.scheduler.pictures world.scheduler.completed)
      simp only [modifyScheduler, scheduler]
      exact ⟨rfl, live⟩
    · exact ⟨rfl, live⟩
  exact ⟨report_attended host now world, kept.1, kept.2⟩

theorem refresh_attentive (live : world.scheduler.state ≠ .stopped) :
    Attentive world (world.refresh host.watched) := by
  obtain ⟨_, scheduler, _⟩ := refresh_eq host.watched world
  refine ⟨refresh_attended host world, ?_, ?_⟩
  · rw [scheduler]
    rfl
  · rw [scheduler]
    exact live

theorem attend_goesOn (now : Float) (live : world.scheduler.state ≠ .stopped)
    (goesOn : world.scheduler.nextFrame ≤ now →
      ((host.poll world.scheduler.frame).watched).GoesOn host.watched
        ((world.modifyScheduler fun scheduler =>
          { scheduler with nextFrame := now + frameInterval }).tell host.watched
            (.poll world.scheduler.frame))) :
    world.attend host.watched run now = world.attend host.watched refuseRun now ∧
      (world.attend host.watched refuseRun now).answer = .ok false ∧
      Attentive world (world.attend host.watched refuseRun now).world := by
  by_cases due : world.scheduler.nextFrame ≤ now
  · have begun : Attentive world ((world.modifyScheduler fun scheduler =>
        { scheduler with nextFrame := now + frameInterval }).tell host.watched
          (.poll world.scheduler.frame)) :=
      ⟨⟨⟨[.poll world.scheduler.frame], rfl, by simp [Activity.IsNotice]⟩, rfl, rfl, rfl, rfl⟩,
        rfl, live⟩
    obtain ⟨same, answer, attentive⟩ := converse_goesOn host run _ begun.live (goesOn due)
    have conversed := begun.trans attentive
    simp only [attend, if_pos due, Host.poll_watched, same, answer]
    refine ⟨trivial, trivial, ?_⟩
    have counted : Attentive world ((converse host.watched refuseRun
        (host.poll world.scheduler.frame).watched _).world.modifyScheduler fun scheduler =>
          { scheduler with frame := scheduler.frame + 1 }) :=
      ⟨conversed.toAttended.modifyScheduler _, conversed.tally, conversed.live⟩
    exact counted.trans (refresh_attentive host counted.live)
  · simp only [attend, if_neg due]
    exact ⟨trivial, trivial, .refl world, rfl, live⟩

theorem polled_goesOn (live : world.scheduler.state ≠ .stopped)
    (goesOn : world.PollGoesOn host.watched) :
    world.polled host.watched run = world.polled host.watched refuseRun ∧
      (world.polled host.watched refuseRun).answer = .ok () ∧
      Attentive world (world.polled host.watched refuseRun).world := by
  have seen : Attentive world (world.readClock host.watched).2 :=
    ⟨{ Attended.refl world with }, rfl, live⟩
  have reported := seen.trans (report_attentive host (world.readClock host.watched).1 live)
  obtain ⟨same, answer, attentive⟩ := attend_goesOn host run (world.readClock host.watched).1
    reported.live (goesOn live)
  have running : (world.readClock host.watched).2.scheduler.state ≠ .stopped := live
  simp only [polled, if_neg running, same, answer]
  exact ⟨trivial, trivial, reported.trans attentive⟩

end

end World

end Chip8
