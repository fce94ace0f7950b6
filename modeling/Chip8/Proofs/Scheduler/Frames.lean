import Chip8.Proofs.Scheduler.Record

/-!
# Frames of runs

Polls are numbered from zero on without a gap. The picture is shown once behind
every poll whose dialogue goes on to its end, before the machine works again,
and once more at the end of the run, before it is reset.
-/

set_option autoImplicit false

namespace Chip8

namespace Activity

def isRefresh : Activity → Bool
  | .signal told => told.isRefresh
  | .poll _ | .cycle | .tick | .reset => false

def frame? : Activity → Option Nat
  | .poll frame => some frame
  | .signal _ | .cycle | .tick | .reset => none

theorem IsWork.other {activity : Activity} (work : activity.IsWork) :
    activity.isRefresh = false ∧ activity.frame? = none := by
  cases activity with
  | signal => exact ⟨work, rfl⟩
  | cycle | tick => exact ⟨rfl, rfl⟩
  | poll | reset => cases work

theorem IsTalk.other {activity : Activity} (talk : activity.IsTalk) :
    activity.isRefresh = false ∧ activity.frame? = none := by
  cases activity with
  | signal => exact ⟨talk, rfl⟩
  | reset => exact ⟨rfl, rfl⟩
  | poll | cycle | tick => cases talk

end Activity

/-- The dialogue of the poll has come to its end without a wish to quit. -/
def showsFrame (answer : Except Halt Bool) : Bool :=
  match answer with
  | .ok quit => !quit
  | .error _ => false

/-- The dialogue of the poll has come to its end with a wish to quit. -/
def quitsRun (answer : Except Halt Bool) : Bool :=
  match answer with
  | .ok quit => quit
  | .error _ => false

/-- What a host is told in a run from a frame on, given the answers of its polls. Nothing follows
the dialogue of a poll that quits or fails. -/
inductive Woven : Nat → List (Except Halt Bool) → List Activity → Prop where
  | work {frame : Nat} {work : List Activity} : (∀ activity ∈ work, activity.IsWork) →
      Woven frame [] work
  | shown {frame : Nat} {changed : Bool} {answers : List (Except Halt Bool)}
      {work talk later : List Activity} : (∀ activity ∈ work, activity.IsWork) →
      (∀ activity ∈ talk, activity.IsTalk) → Woven (frame + 1) answers later →
      Woven frame (.ok false :: answers)
        (work ++ .poll frame :: (talk ++ .signal (.refresh changed) :: later))
  | last {frame : Nat} {answer : Except Halt Bool} {work talk : List Activity} :
      showsFrame answer = false → (∀ activity ∈ work, activity.IsWork) →
      (∀ activity ∈ talk, activity.IsTalk) →
      Woven frame [answer] (work ++ .poll frame :: talk)

namespace Woven

variable {frame : Nat} {answers : List (Except Halt Bool)} {log : List Activity}

theorem prepend (woven : Woven frame answers log) {work : List Activity}
    (isWork : ∀ activity ∈ work, activity.IsWork) : Woven frame answers (work ++ log) := by
  cases woven with
  | work later => exact .work (List.forall_mem_append.mpr ⟨isWork, later⟩)
  | shown earlier isTalk later =>
      rw [← List.append_assoc]
      exact .shown (List.forall_mem_append.mpr ⟨isWork, earlier⟩) isTalk later
  | last stays earlier isTalk =>
      rw [← List.append_assoc]
      exact .last stays (List.forall_mem_append.mpr ⟨isWork, earlier⟩) isTalk

theorem append {first second : List (Except Halt Bool)} {before after : List Activity}
    (earlier : Woven frame first before) (shown : ∀ answer ∈ first, showsFrame answer = true)
    (later : Woven (frame + first.countP showsFrame) second after) :
    Woven frame (first ++ second) (before ++ after) := by
  induction earlier with
  | work isWork => exact later.prepend isWork
  | @shown frame changed answers work talk _ isWork isTalk _ ih =>
      rw [List.countP_cons_of_pos rfl, Nat.add_comm _ 1, ← Nat.add_assoc] at later
      have rest := ih (List.forall_mem_cons.mp shown).2 later
      simp only [List.append_assoc, List.cons_append]
      exact .shown isWork isTalk rest
  | last stays =>
      rw [List.forall_mem_singleton, stays] at shown
      cases shown

theorem frames (woven : Woven frame answers log) :
    log.filterMap Activity.frame? = List.range' frame answers.length := by
  have none {activities : List Activity}
      (other : ∀ activity ∈ activities, activity.frame? = none) :
      activities.filterMap Activity.frame? = [] := List.filterMap_eq_nil_iff.mpr other
  induction woven with
  | work isWork => exact none fun activity member => (isWork activity member).other.2
  | shown isWork isTalk _ ih =>
      have before := none fun activity member => (isWork activity member).other.2
      have within := none fun activity member => (isTalk activity member).other.2
      simp [before, within, ih, List.filterMap_cons, Activity.frame?, List.range'_succ]
  | last _ isWork isTalk =>
      have before := none fun activity member => (isWork activity member).other.2
      have within := none fun activity member => (isTalk activity member).other.2
      simp [before, within, Activity.frame?]

theorem refreshes (woven : Woven frame answers log) :
    log.countP Activity.isRefresh = answers.countP showsFrame := by
  have none {activities : List Activity}
      (other : ∀ activity ∈ activities, activity.isRefresh = false) :
      activities.countP Activity.isRefresh = 0 :=
    List.countP_eq_zero.mpr fun activity member => by simp [other activity member]
  induction woven with
  | work isWork => exact none fun activity member => (isWork activity member).other.1
  | shown isWork isTalk _ ih =>
      have before := none fun activity member => (isWork activity member).other.1
      have within := none fun activity member => (isTalk activity member).other.1
      simp [before, within, ih, Activity.isRefresh, Signal.isRefresh, showsFrame, List.countP_cons]
  | last stays isWork isTalk =>
      have before := none fun activity member => (isWork activity member).other.1
      have within := none fun activity member => (isTalk activity member).other.1
      simp [before, within, stays, Activity.isRefresh]

/-- Only the last poll may quit or fail. -/
theorem length_answers (woven : Woven frame answers log)
    (returned : ∀ answer ∈ answers, ∃ quit, answer = .ok quit) :
    answers.length = answers.countP showsFrame +
      if answers.getLast?.any quitsRun then 1 else 0 := by
  induction woven with
  | work => rfl
  | @shown _ _ answers _ _ _ _ _ later ih =>
      have counted := ih (List.forall_mem_cons.mp returned).2
      rw [List.countP_cons_of_pos rfl, List.length_cons, counted]
      cases answers with
      | nil => rfl
      | cons answer rest =>
          rw [List.getLast?_cons_cons]
          omega
  | @last _ answer _ _ stays =>
      obtain ⟨quit, rfl⟩ := returned answer (List.mem_singleton_self _)
      cases quit with
      | false => cases stays
      | true => rfl

end Woven

namespace World

variable {η : Type}

/-- What the host has been told in between is woven from the polls with these answers. -/
structure Weave (before after : World (Watched η)) (answers : List (Except Halt Bool))
    (log : List Activity) : Prop where
  told : after.told = before.told ++ log
  woven : Woven before.scheduler.frame answers log
  frame : after.scheduler.frame = before.scheduler.frame + answers.countP showsFrame

theorem Weave.trans {first second third : World (Watched η)}
    {earlier later : List (Except Halt Bool)} {before after : List Activity}
    (start : Weave first second earlier before)
    (shown : ∀ answer ∈ earlier, showsFrame answer = true)
    (rest : Weave second third later after) :
    Weave first third (earlier ++ later) (before ++ after) where
  told := by rw [rest.told, start.told, List.append_assoc]
  woven := by
    refine start.woven.append shown ?_
    rw [← start.frame]
    exact rest.woven
  frame := by rw [rest.frame, start.frame, List.countP_append, Nat.add_assoc]

section

variable (host : Host η)

theorem dialogue_told {world asked : World (Watched η)}
    (poll : world.poll? host.watched = some asked) :
    ∃ work talk, (asked.dialogue host.watched refuseRun).world.told =
        world.told ++ (work ++ .poll world.scheduler.frame :: talk) ∧
      (∀ activity ∈ work, activity.IsWork) ∧ (∀ activity ∈ work, activity.IsTalk) ∧
      (∀ activity ∈ talk, activity.IsTalk) ∧
      (asked.dialogue host.watched refuseRun).world.scheduler.frame = world.scheduler.frame := by
  obtain ⟨work, told, isWork, workTalk⟩ := told_poll poll
  obtain ⟨talk, conversed, isTalk⟩ := told_converse host (host.poll asked.scheduler.frame) asked
  obtain ⟨_, _, _, _, frame, _⟩ := poll?_eq_some host.watched poll
  have heeds := converse_heeds host.watched (host.poll asked.scheduler.frame).watched asked
  refine ⟨work, talk, ?_, isWork, workTalk, isTalk, heeds.frame.trans frame⟩
  refine conversed.trans ?_
  rw [told]
  simp only [List.append_assoc, List.singleton_append]

theorem slice_weave (world : World (Watched η)) :
    (∃ log, Weave world (world.slice host.watched refuseRun).world
        ((world.slicePolls host.watched).map Turn.answer) log) ∧
      ((world.slice host.watched refuseRun).answer = .ok true →
        ∀ answer ∈ (world.slicePolls host.watched).map Turn.answer, showsFrame answer = true) ∧
      ∀ more, (world.slice host.watched refuseRun).answer = .ok more →
        ∀ answer ∈ (world.slicePolls host.watched).map Turn.answer, ∃ quit, answer = .ok quit := by
  have sliced := slice_sliced host.watched refuseRun world
  generalize world.slice host.watched refuseRun = turn at *
  cases sliced with
  | unasked poll waited moved =>
      obtain ⟨rates, rested, isWork, _⟩ := waited.worked
      obtain ⟨work, movement⟩ := moved.movement
      simp only [slicePolls, poll, List.map_nil]
      refine ⟨⟨rates ++ work, (rested.trans movement.worked).told, ?_,
        movement.frame.trans waited.frame⟩, nofun, nofun⟩
      exact .work (List.forall_mem_append.mpr ⟨isWork, movement.isWork⟩)
  | @shown asked _ poll answer moved =>
      obtain ⟨rates, talk, told, isWork, _, isTalk, frame⟩ := dialogue_told host poll
      obtain ⟨work, movement⟩ := moved.movement
      have shown := told_shown host (asked.dialogue host.watched refuseRun).world
      have counted := frame_shown host.watched (asked.dialogue host.watched refuseRun).world
      rw [told] at shown
      rw [frame] at counted
      have record : turn.world.told = world.told ++ (rates ++ .poll world.scheduler.frame ::
          (talk ++ .signal (.refresh
            (asked.dialogue host.watched refuseRun).world.machine.screen.dirty) :: work)) := by
        rw [movement.worked.told, shown]
        simp only [List.append_assoc, List.cons_append, List.nil_append]
      simp only [slicePolls, poll, List.map_cons, List.map_nil, answer, List.forall_mem_singleton]
      exact ⟨⟨_, record, .shown isWork isTalk (.work movement.isWork),
        movement.frame.trans counted⟩, fun _ => rfl, fun _ _ => ⟨false, rfl⟩⟩
  | quit poll answer =>
      obtain ⟨rates, talk, told, isWork, _, isTalk, frame⟩ := dialogue_told host poll
      simp only [slicePolls, poll, List.map_cons, List.map_nil, answer, List.forall_mem_singleton]
      exact ⟨⟨_, told, .last rfl isWork isTalk, frame⟩, nofun, fun _ _ => ⟨true, rfl⟩⟩
  | failed poll answer =>
      obtain ⟨rates, talk, told, isWork, _, isTalk, frame⟩ := dialogue_told host poll
      simp only [slicePolls, poll, List.map_cons, List.map_nil, answer, List.forall_mem_singleton]
      exact ⟨⟨_, told, .last rfl isWork isTalk, frame⟩, nofun, nofun⟩

theorem loop_weave (passes : Nat) (world : World (Watched η)) :
    let polls := world.gather host.watched refuseRun (slicePolls host.watched) passes
    (∃ log, Weave world (world.loop host.watched refuseRun passes).world
        (polls.map Turn.answer) log) ∧
      ((world.loop host.watched refuseRun passes).answer = .ok () →
        ∀ answer ∈ polls.map Turn.answer, ∃ quit, answer = .ok quit) := by
  induction passes generalizing world with
  | zero =>
      have told : world.told = world.told ++ [] := (List.append_nil _).symm
      refine ⟨⟨[], told, .work (List.forall_mem_nil _), rfl⟩, ?_⟩
      intro ended
      cases ended
  | succ passes ih =>
      obtain ⟨⟨log, weave⟩, shows, returns⟩ := slice_weave host world
      simp only [gather, loop]
      generalize world.slice host.watched refuseRun = turn at *
      obtain ⟨after, answer⟩ := turn
      cases answer with
      | error cause =>
          simp only [List.append_nil]
          refine ⟨⟨log, weave⟩, ?_⟩
          intro ended
          cases ended
      | ok more =>
          cases more with
          | false =>
              simp only [List.append_nil]
              exact ⟨⟨log, weave⟩, fun _ => returns false rfl⟩
          | true =>
              obtain ⟨⟨later, rest⟩, ended⟩ := ih after
              simp only [List.map_append, List.forall_mem_append]
              exact ⟨⟨log ++ later, weave.trans (shows rfl) rest⟩,
                fun answer => ⟨returns true rfl, ended answer⟩⟩

theorem told_discardRun (world : World (Watched η)) :
    ∃ ending, (world.discardRun host.watched).told = world.told ++ ending ∧
      (ending = [] ∨ ending.head? = some .reset) ∧ ∀ activity ∈ ending, activity.IsEffect := by
  unfold discardRun
  split
  · have told := told_tellAll host
      { world.tell host.watched .reset with machine := world.machine.reset.1 }
      world.machine.reset.2
    refine ⟨.reset :: world.machine.reset.2.map .signal, ?_, .inr rfl, ?_⟩
    · exact told.trans (List.append_assoc _ [Activity.reset] _)
    · exact Activity.isEffect_of_effects world.machine.isEffect_reset
  · exact ⟨[], (List.append_nil _).symm, .inl rfl, List.forall_mem_nil _⟩

end

/-- What a host is told in a run, given the answers of the polls and that of the run. A run that
returns shows the picture once more, and is reset only behind that. -/
structure FrameLaw (told : List Activity) (frame : Nat) (answers : List (Except Halt Bool))
    (answer : Except Halt Nat) : Prop where
  woven : ∃ log ending, told = log ++ ending ∧ Woven 0 answers log ∧
    ((∃ halt, answer = .error halt) → ending = []) ∧
    ((∃ cycles, answer = .ok cycles) → ∃ changed reset,
      ending = .signal (.refresh changed) :: reset ∧
        (reset = [] ∨ reset.head? = some .reset) ∧ ∀ activity ∈ reset, activity.IsTalk)
  numbered : told.filterMap Activity.frame? = List.range answers.length
  refreshes : (∃ cycles, answer = .ok cycles) → told.countP Activity.isRefresh = frame + 1
  polls : (∃ cycles, answer = .ok cycles) →
    answers.length = frame + if answers.getLast?.any quitsRun then 1 else 0

theorem frameLaw_of_error {log : List Activity} {answers : List (Except Halt Bool)}
    (woven : Woven 0 answers log) (frame : Nat) (halt : Halt) :
    FrameLaw log frame answers (.error halt) where
  woven := ⟨log, [], (List.append_nil _).symm, woven, fun _ => rfl, nofun⟩
  numbered := by
    rw [woven.frames, List.range_eq_range']
  refreshes := nofun
  polls := nofun

theorem finish_frames (host : Host η) {begun : World (Watched η)} {turn : Turn (Watched η) Unit}
    {answers : List (Except Halt Bool)} {log : List Activity}
    (weave : Weave begun turn.world answers log) (first : begun.scheduler.frame = 0)
    (returned : turn.answer = .ok () → ∀ answer ∈ answers, ∃ quit, answer = .ok quit) :
    ∃ told, (finish host.watched turn).world.told = begun.told ++ told ∧
      FrameLaw told (finish host.watched turn).world.scheduler.frame answers
        (finish host.watched turn).answer := by
  obtain ⟨told, woven, frame⟩ := weave
  obtain ⟨world, answer⟩ := turn
  rw [first] at woven frame
  rw [Nat.zero_add] at frame
  cases answer with
  | error cause =>
      cases cause with
      | fault | exhausted => exact ⟨log, told, frameLaw_of_error woven _ _⟩
  | ok _ =>
      obtain ⟨reset, discarded, last, effects⟩ := told_discardRun host (world.refresh host.watched)
      have isTalk : ∀ activity ∈ reset, activity.IsTalk :=
        fun activity member => (effects activity member).isTalk
      let changed := world.machine.screen.dirty
      have scheduler := scheduler_discardRun host.watched (world.refresh host.watched)
      have sameFrame : (finish host.watched ⟨world, .ok ()⟩).world.scheduler.frame =
          answers.countP showsFrame := by
        simp only [finish, scheduler]
        exact (refresh_keeps host.watched world).2.1.trans frame
      have none : reset.filterMap Activity.frame? = [] ∧ reset.countP Activity.isRefresh = 0 := by
        constructor
        · exact List.filterMap_eq_nil_iff.mpr fun activity member =>
            (isTalk activity member).other.2
        · exact List.countP_eq_zero.mpr fun activity member => by
            simp [(isTalk activity member).other.1]
      refine ⟨log ++ .signal (.refresh changed) :: reset, ?_, ?_⟩
      · refine discarded.trans ?_
        rw [told_refresh, told]
        simp only [List.append_assoc, List.singleton_append]
        rfl
      · rw [sameFrame]
        constructor
        · refine ⟨log, _, rfl, woven, ?_, fun _ => ⟨changed, reset, rfl, last, isTalk⟩⟩
          rintro ⟨halt, failed⟩
          cases failed
        · rw [List.filterMap_append, woven.frames, List.filterMap_cons_none rfl, none.1,
            List.append_nil, List.range_eq_range']
        · intro _
          rw [List.countP_append, woven.refreshes, List.countP_cons_of_pos rfl, none.2]
        · intro _
          exact woven.length_answers (returned rfl)

/-- Whatever the clock shows and the polls ask for, the record of a run is woven from its frames. -/
theorem frames_of_run (host : Host η) (passes : Nat) (paused : Bool) {world : World (Watched η)}
    (stopped : world.scheduler.state = .stopped)
    (alone : Alone host.watched (passes + 1) paused world) :
    let final := World.run host.watched (passes + 1) paused world
    (∃ told, final.world.told = world.told ++ told ∧
      FrameLaw told final.world.scheduler.frame
        ((world.polls host.watched paused passes).map Turn.answer) final.answer) ∧
      final.unwatch = World.run host (passes + 1) paused world.unwatch := by
  intro final
  refine ⟨?_, unwatch_run host (passes + 1) paused world⟩
  have began : (world.begin host.watched paused).world.told = world.told := by
    simp only [begin, if_pos stopped]
    rfl
  obtain ⟨_, begun⟩ := begin_begun host.watched paused stopped
  obtain ⟨⟨log, weave⟩, returned⟩ :=
    loop_weave host passes (world.begin host.watched paused).world
  have law := finish_frames host weave begun.frame returned
  rw [began, ← alone.run_eq stopped] at law
  exact law

/-- A host whose clock shows how often it was read. Its polls pause the run, resume it and quit. -/
def visitor : Host Nat where
  readClock := fun reads => (Float.ofNat reads, reads + 1)
  wait := fun _ reads => reads
  receive := fun _ reads => reads
  poll := fun frame =>
    if frame = 0 then .ask .pause fun _ => .leave false
    else if frame = 1 then .ask .resume fun _ => .leave false
    else .leave true

def visited (machine : Machine) : World (Watched Nat) where
  scheduler := { interval := none }
  machine := machine
  host := ⟨0, []⟩

theorem frames_of_run_visitor :
    (World.run visitor.watched 6 false (visited loader)).answer = .ok 1 ∧
      (World.run visitor.watched 6 false (visited loader)).world.scheduler.frame = 2 ∧
      ∃ told, (World.run visitor.watched 6 false (visited loader)).world.told =
          (visited loader).told ++ told ∧
        told.filterMap Activity.frame? = [0, 1, 2] ∧ told.countP Activity.isRefresh = 3 := by
  have stopped (machine : Machine) : (visited machine).scheduler.state = .stopped := rfl
  have alone : Alone visitor.watched (5 + 1) false (visited loader) := by decide +kernel
  have frame : (World.run visitor.watched (5 + 1) false (visited loader)).world.scheduler.frame =
      2 := by decide +kernel
  have answer : (World.run visitor.watched (5 + 1) false (visited loader)).answer = .ok 1 :=
    answer_eq_ok (by decide +kernel)
  have polls : ((visited loader).polls visitor.watched false 5).length = 3 := by decide +kernel
  obtain ⟨⟨told, record, law⟩, _⟩ := frames_of_run visitor 5 false (stopped loader) alone
  have numbered := law.numbered
  have refreshes := law.refreshes ⟨1, answer⟩
  rw [List.length_map, polls] at numbered
  rw [frame] at refreshes
  simp only [Nat.reduceAdd] at answer frame record
  exact ⟨answer, frame, told, record, numbered, refreshes⟩

end World

end Chip8
