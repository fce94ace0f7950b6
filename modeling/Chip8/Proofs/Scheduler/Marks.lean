import Chip8.Proofs.Machine.Load
import Chip8.Proofs.Scheduler.Parts

/-!
# Marks of runs

A wish to stop is remembered as a flag, which says at the end of a run whether
the machine is to be reset. Every run that is accepted takes the flag back, also
one that a poll asks for while another run is still on. So the flag says what
came last: a wish to stop, or a run that began.
-/

set_option autoImplicit false

namespace Chip8

variable {η : Type}

inductive Mark where
  | begun
  | stopped
  deriving DecidableEq, Repr

def Mark.flag (flag : Bool) (marks : List Mark) : Bool :=
  marks.foldl (fun _ mark => mark = .stopped) flag

theorem Mark.flag_append (flag : Bool) (first second : List Mark) :
    Mark.flag flag (first ++ second) = Mark.flag (Mark.flag flag first) second :=
  List.foldl_append

theorem Mark.flag_concat (flag : Bool) (marks : List Mark) (last : Mark) :
    Mark.flag flag (marks ++ [last]) = decide (last = .stopped) :=
  Mark.flag_append flag marks [last]

theorem Mark.flag_of_stopped {flag : Bool} {marks : List Mark} (before : flag = true)
    (none : .begun ∉ marks) : Mark.flag flag marks = true := by
  induction marks generalizing flag with
  | nil => exact before
  | cons mark rest ih =>
      rw [List.mem_cons, not_or] at none
      cases mark with
      | begun => exact absurd rfl none.1
      | stopped => exact ih rfl none.2

namespace World

section

variable (host : Host η) (run : Bool → World η → Turn η Nat)
  (marks : Bool → World η → List Mark)

def requestMarks (world : World η) : Request → List Mark
  | .run paused => marks paused world
  | .stop => [.stopped]
  | .pause | .resume | .step | .setSpeed _ | .setDialect _ | .setKey .. | .loadRom _ => []

def converseMarks : Visit η → World η → List Mark
  | .leave _, _ | .fail _, _ => []
  | .ask request next, world =>
      let turn := world.perform host run request
      world.requestMarks marks request ++
        match turn.answer with
        | .ok answer => converseMarks (next (.ok answer)) turn.world
        | .error (.fault cause) => converseMarks (next (.error cause)) turn.world
        | .error .exhausted => []
  | .consult next, world => converseMarks (next world) world
  | .update change next, world => converseMarks next { world with host := change world.host }

/-- The marks of the next slice. Inputs that quit are as good as a stop. -/
def sliceMarks (world : World η) : List Mark :=
  match world.poll? host with
  | none => []
  | some asked =>
      asked.converseMarks host run marks (host.poll asked.scheduler.frame) ++
        match (asked.dialogue host run).answer with
        | .ok true => [.stopped]
        | .ok false | .error _ => []

end

def marks (host : Host η) : Nat → Bool → World η → List Mark
  | 0, _, world => if world.scheduler.state = .stopped then [.begun] else []
  | passes + 1, paused, world =>
      if world.scheduler.state = .stopped then
        .begun :: (world.begin host paused).world.gather host (World.run host passes)
          (sliceMarks host (World.run host passes) (marks host passes)) passes
      else []

section

variable (host : Host η) {run : Bool → World η → Turn η Nat}
  {nested : Bool → World η → List Mark}
  (flags : ∀ paused world, (run paused world).world.scheduler.discard =
    Mark.flag world.scheduler.discard (nested paused world))

include flags

theorem discard_perform (request : Request) (world : World η) :
    (world.perform host run request).world.scheduler.discard =
      Mark.flag world.scheduler.discard (world.requestMarks nested request) := by
  have other (request : Request) (noRun : ∀ paused, request ≠ .run paused)
      (noStop : request ≠ .stop) :
      (world.perform host run request).world.scheduler.discard = world.scheduler.discard := by
    rw [perform_of_refused host run fun paused same => absurd same (noRun paused)]
    exact (perform_heeds host request world).2 noStop
  cases request with
  | run paused => exact flags paused world
  | stop => rfl
  | pause | resume | step | setSpeed | setDialect | setKey | loadRom => exact other _ nofun nofun

theorem discard_converse (visit : Visit η) (world : World η) :
    (converse host run visit world).world.scheduler.discard =
      Mark.flag world.scheduler.discard (converseMarks host run nested visit world) := by
  induction visit generalizing world with
  | leave | fail => rfl
  | consult next ih => exact ih world world
  | update change next ih => exact ih { world with host := change world.host }
  | ask request next ih =>
      have performed := discard_perform host flags request world
      simp only [converse, converseMarks]
      rw [Mark.flag_append, ← performed]
      generalize world.perform host run request = turn
      obtain ⟨after, answer⟩ := turn
      cases answer with
      | ok answer => exact ih _ after
      | error halt =>
          cases halt with
          | fault cause => exact ih _ after
          | exhausted => rfl

omit flags in
theorem discard_moved {world : World η} {turn : Turn η Bool} (moved : Moved host world turn) :
    turn.world.scheduler.discard = world.scheduler.discard := by
  cases moved with
  | stopped => rfl
  | rested due waited =>
      have tally := waited.tally.trans due.keeps.1
      exact congrArg Tally.discard tally
  | @failed ticked cause due failed =>
      rw [(cycled_keeps host ticked).1]
      exact congrArg Tally.discard due.keeps.1
  | @executed ticked _ due _ waited =>
      have counted := waited.tally.trans (tally_count (ticked.cycled host))
      rw [(cycled_keeps host ticked).1] at counted
      exact (congrArg Tally.discard counted).trans (congrArg Tally.discard due.keeps.1)

theorem discard_slice (world : World η) :
    (world.slice host run).world.scheduler.discard =
      Mark.flag world.scheduler.discard (world.sliceMarks host run nested) := by
  have sliced := slice_sliced host run world
  generalize world.slice host run = turn at *
  have talked {asked : World η} (poll : world.poll? host = some asked) :
      (asked.dialogue host run).world.scheduler.discard = Mark.flag world.scheduler.discard
        (asked.converseMarks host run nested (host.poll asked.scheduler.frame)) := by
    obtain ⟨_, _, _, tally, _⟩ := poll?_eq_some host poll
    rw [World.dialogue, discard_converse host flags]
    exact congrArg (Mark.flag · _) (congrArg Tally.discard tally)
  cases sliced with
  | unasked poll waited moved =>
      simp only [sliceMarks, poll]
      exact (discard_moved host moved).trans (congrArg Tally.discard waited.tally)
  | @shown asked _ poll answer moved =>
      simp only [sliceMarks, poll, answer, List.append_nil]
      rw [discard_moved host moved, ← talked poll]
      exact congrArg Tally.discard (refresh_keeps host _).1
  | quit poll answer =>
      simp only [sliceMarks, poll, answer]
      rw [Mark.flag_concat]
      rfl
  | failed poll answer =>
      simp only [sliceMarks, poll, answer, List.append_nil]
      exact talked poll

theorem discard_loop (passes : Nat) (world : World η) :
    (world.loop host run passes).world.scheduler.discard =
      Mark.flag world.scheduler.discard
        (world.gather host run (sliceMarks host run nested) passes) := by
  induction passes generalizing world with
  | zero => rfl
  | succ passes ih =>
      have sliced := discard_slice host flags world
      simp only [loop, gather]
      rw [Mark.flag_append, ← sliced]
      generalize world.slice host run = turn
      obtain ⟨after, answer⟩ := turn
      cases answer with
      | error cause => rfl
      | ok more =>
          cases more with
          | false => rfl
          | true => exact ih after

end

theorem discard_finish (host : Host η) (turn : Turn η Unit) :
    (finish host turn).world.scheduler.discard = turn.world.scheduler.discard := by
  obtain ⟨world, answer⟩ := turn
  cases answer with
  | ok _ =>
      have kept := congrArg Tally.discard (refresh_keeps host world).1
      have scheduler := scheduler_discardRun host (world.refresh host)
      exact (congrArg Scheduler.discard scheduler).trans kept
  | error cause =>
      cases cause with
      | fault | exhausted => rfl

/-- The flag behind a run follows its marks, whatever its answer. -/
theorem discard_run (host : Host η) (passes : Nat) (paused : Bool) (world : World η) :
    (World.run host passes paused world).world.scheduler.discard =
      Mark.flag world.scheduler.discard (marks host passes paused world) := by
  -- Runs within a poll have one pass less, so they are covered by the induction hypothesis.
  induction passes generalizing paused world with
  | zero =>
      simp only [World.run, marks, begin]
      split
      · rfl
      · rfl
  | succ passes ih =>
      by_cases stopped : world.scheduler.state = .stopped
      · have looped := discard_loop host ih passes (world.begin host paused).world
        have began : (world.begin host paused).world.scheduler.discard = false :=
          congrArg Tally.discard (begin_begun host paused stopped).2.tally
        rw [began] at looped
        rw [run_of_stopped host passes paused stopped, discard_finish, looped]
        simp only [marks, if_pos stopped]
        rfl
      · simp only [World.run, marks, begin, if_neg stopped]
        rfl

end World

theorem Machine.WellFormed.loaded_reset {machine : Machine} (wellFormed : machine.WellFormed) :
    Machine.Loaded machine [] machine.reset.1 := by
  have bytes (address : Int) :
      Machine.blankMemory.byteAt address = Machine.loadedByte [] address := by
    rw [Machine.byteAt_blankMemory, Machine.loadedByte]
    split
    · rfl
    · split
      · rfl
      · rfl
  have loaded := Machine.loaded_of_memory machine.dialect machine.random machine.live [] rfl bytes
  rw [wellFormed.reset_eq]
  exact { loaded with }

namespace World

theorem discardRun_of_discard (host : Host η) {world : World η}
    (reachable : world.machine.Reachable) (discard : world.scheduler.discard = true) :
    Machine.Loaded world.machine [] (world.discardRun host).machine := by
  have machine : (world.discardRun host).machine = world.machine.reset.1 := by
    rw [discardRun, if_pos discard]
    exact machine_tellAll host _ _
  rw [machine]
  exact reachable.wellFormed.loaded_reset

/-- What a run leaves of its machine is settled by its last mark. A wish to stop has the machine
reset, unless another run has begun since. -/
theorem reset_of_stop (host : Host η) (passes : Nat) (paused : Bool) {world : World η}
    (reachable : world.machine.Reachable) {cycles : Nat}
    (ended : (World.run host (passes + 1) paused world).answer = .ok cycles) :
    let looped := (world.begin host paused).world.loop host (World.run host passes) passes
    let shown := looped.world.refresh host
    let final := (World.run host (passes + 1) paused world).world
    let marks := World.marks host (passes + 1) paused world
    (marks.getLast? = some .stopped → Machine.Loaded shown.machine [] final.machine) ∧
    (marks.getLast? = some .begun → final.machine = shown.machine) ∧
    ∀ earlier later, marks = earlier ++ .stopped :: later → .begun ∉ later →
      Machine.Loaded shown.machine [] final.machine := by
  intro looped shown final marks
  have flag : final.scheduler.discard = Mark.flag world.scheduler.discard marks :=
    discard_run host (passes + 1) paused world
  obtain ⟨_, same, stopped⟩ := run_accepted ended
  have run := run_of_stopped host passes paused stopped
  have left : final = shown.discardRun host := by
    rw [run] at ended
    exact (congrArg Turn.world run).trans (finish_of_ok host ended).2
  have shownReachable : shown.machine.Reachable :=
    host.invariant_reachable.refreshes <|
      host.invariant_reachable.loop (fun _ _ => host.invariant_reachable.run passes _) passes
        (host.invariant_reachable.begin paused reachable)
  rw [left, scheduler_discardRun] at flag
  have reset (discard : shown.scheduler.discard = true) :
      Machine.Loaded shown.machine [] final.machine := by
    rw [left]
    exact discardRun_of_discard host shownReachable discard
  refine ⟨?_, ?_, ?_⟩
  · intro last
    obtain ⟨earlier, concat⟩ := List.getLast?_eq_some_iff.mp last
    apply reset
    rw [flag, concat, Mark.flag_concat]
    rfl
  · intro last
    obtain ⟨earlier, concat⟩ := List.getLast?_eq_some_iff.mp last
    rw [concat, Mark.flag_concat] at flag
    have kept : ¬shown.scheduler.discard = true := by
      rw [flag]
      decide
    rw [left, discardRun, if_neg kept]
  · intro earlier later parts none
    apply reset
    rw [flag, parts, Mark.flag_append]
    change Mark.flag true later = true
    exact Mark.flag_of_stopped rfl none

/-- A host whose clock shows how often it was read. Its second poll stops the run. -/
def stopper : Host Nat where
  readClock := fun reads => (Float.ofNat reads, reads + 1)
  wait := fun _ reads => reads
  receive := fun _ reads => reads
  poll := fun frame => if frame = 1 then .ask .stop fun _ => .leave false else .leave false

/-- A host that stops the run in its second poll, and asks for another run at once. -/
def restarter : Host Nat :=
  { stopper with
    poll := fun frame =>
      if frame = 1 then .ask .stop fun _ => .ask (.run false) fun _ => .leave false
      else .leave false }

def single (machine : Machine) : World Nat where
  scheduler := { interval := none, cycleLimit := 1 }
  machine := machine
  host := 0

def loader : Machine :=
  (Machine.assemble .plain (.scripted [] 0) false).1.after [.loadRom [0x60, 0x05]]

theorem reset_of_stop_stopper :
    (World.run stopper 5 true (single loader)).answer = .ok 0 ∧
      (World.run stopper 5 true (single loader)).world.machine.processor.counter = 0x200 := by
  have assembled : (Machine.assemble .plain (.scripted [] 0) false).1.Reachable :=
    .assembled _ _ _
  have reachable (machine : Machine) (held : machine.Reachable) :
      (single machine).machine.Reachable := held
  have loaded : loader.Reachable := by
    rw [loader]
    exact assembled.after _
  have ended : (World.run stopper 5 true (single loader)).answer = .ok 0 :=
    Turn.answer_eq_ok (by decide +kernel)
  have last : (World.marks stopper (4 + 1) true (single loader)).getLast? = some .stopped := by
    decide +kernel
  obtain ⟨reset, _, _⟩ := reset_of_stop stopper 4 true (reachable loader loaded) ended
  have counter := (reset last).counter
  simp only [Nat.reduceAdd] at counter
  exact ⟨ended, counter⟩

/-- A run that begins behind a stop, in the same poll, has the stop forgotten. -/
theorem not_reset_behind_restart :
    (World.run restarter 5 true (single loader)).answer = .ok 1 ∧
      .stopped ∈ World.marks restarter 5 true (single loader) ∧
      ∀ before, ¬Machine.Loaded before []
        (World.run restarter 5 true (single loader)).world.machine := by
  have ended : (World.run restarter 5 true (single loader)).answer = .ok 1 :=
    Turn.answer_eq_ok (by decide +kernel)
  have counter : (World.run restarter 5 true (single loader)).world.machine.processor.counter =
      0x202 := by decide +kernel
  refine ⟨ended, by decide +kernel, ?_⟩
  intro before fresh
  have same := counter.symm.trans fresh.counter
  exact absurd same (by decide)

end World

end Chip8
