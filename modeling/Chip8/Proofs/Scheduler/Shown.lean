import Chip8.Proofs.Machine.Mirror
import Chip8.Proofs.Scheduler.Invariant

/-!
# The picture that a run leaves

A host that passes the signals on to a display and does nothing else to it has
a mirror of the screen at every moment of a run. The run ends with a refresh
and blanks the screen only behind it, so the frame of the display is the
picture at the end of the last slice.
-/

set_option autoImplicit false

namespace Chip8

variable {η : Type}

/-- The display hears every signal, and nothing else touches it. -/
structure Host.Displays (host : Host η) (display : η → Display) : Prop where
  signal : ∀ signal state,
    display (host.receive (.signal signal) state) = (display state).receive signal
  other : ∀ activity state, (∀ signal, activity ≠ .signal signal) →
    display (host.receive activity state) = display state
  readClock : ∀ state, display (host.readClock state).2 = display state
  wait : ∀ seconds state, display (host.wait seconds state) = display state
  poll : ∀ frame picture, (host.poll frame).Keeps fun world => display world.host = picture

def World.Mirrored (display : η → Display) (world : World η) : Prop :=
  (display world.host).Mirrors world.machine.screen

theorem Visit.keeps_mirrored {display : η → Display} {visit : Visit η}
    (keeps : ∀ picture, visit.Keeps fun world => display world.host = picture) :
    visit.Keeps (World.Mirrored display) := by
  induction visit with
  | leave | fail => trivial
  | ask request next ih => exact fun answer => ih answer fun picture => keeps picture answer
  | consult next ih => exact fun world => ih world fun picture => keeps picture world
  | update change next ih =>
      refine ⟨fun world mirrored => ?_, ih fun picture => (keeps picture).2⟩
      have same := (keeps (display world.host)).1 world rfl
      simp only [World.Mirrored] at mirrored ⊢
      rw [same]
      exact mirrored

namespace World

theorem discard_refresh (host : Host η) (world : World η) :
    (world.refresh host).scheduler.discard = world.scheduler.discard := by
  obtain ⟨_, scheduler, _⟩ := refresh_eq host world
  rw [scheduler]

theorem get_discardRun (host : Host η) {world : World η}
    (wellFormed : world.machine.screen.WellFormed) (discarded : world.scheduler.discard = true)
    (x y : Int) : (world.discardRun host).machine.screen.get x y = .ok 0 := by
  have machine : (world.discardRun host).machine = world.machine.reset.1 := by
    rw [discardRun, if_pos discarded]
    exact machine_tellAll host _ _
  have inRange := wellFormed.clear.place_inRange (wellFormed.clear.column_bounds x)
    (wellFormed.clear.row_bounds y)
  rw [machine, Machine.reset, Screen.get, wellFormed.clear.wrap_eq]
  refine (Memory.read_of_inRange inRange).trans ?_
  rw [wellFormed.clear_eq]
  exact congrArg Except.ok (Memory.byteAt_zeros _ _)

end World

namespace Host.Displays

variable {host : Host η} {display : η → Display} (displays : host.Displays display)

include displays

theorem tellAll (world : World η) (signals : List Signal) :
    display (world.tellAll host signals).host = (display world.host).receiveAll signals := by
  induction signals generalizing world with
  | nil => rfl
  | cons signal rest ih =>
      refine (ih (world.tell host (.signal signal))).trans ?_
      exact congrArg (Display.receiveAll · rest) (displays.signal signal world.host)

theorem mirrored_tellAll {world : World η} {signals : List Signal}
    (mirrors : ((display world.host).receiveAll signals).Mirrors world.machine.screen) :
    (world.tellAll host signals).Mirrored display := by
  rw [World.Mirrored, displays.tellAll, World.machine_tellAll]
  exact mirrors

theorem invariant : host.Invariant (World.Mirrored display) where
  scheduler := fun _ _ mirrored => mirrored
  readClock := by
    intro world mirrored
    rw [World.Mirrored, World.readClock, displays.readClock]
    exact mirrored
  sleep := by
    intro world seconds mirrored
    rw [World.Mirrored, World.sleep, displays.wait]
    exact mirrored
  tell := by
    intro world activity other mirrored
    rw [World.Mirrored, World.tell, displays.other activity _ other]
    exact mirrored
  report := by
    intro world pictures instructions mirrored
    refine displays.mirrored_tellAll (mirrored.ignore fun signal member => ?_)
    rw [List.mem_singleton.mp member]
    trivial
  refresh := by
    intro world mirrored
    exact displays.mirrored_tellAll mirrored.refresh.1
  operate := by
    intro world operation mirrored
    exact displays.mirrored_tellAll (mirrored.operate operation)
  poll := fun frame => Visit.keeps_mirrored (displays.poll frame)

theorem frame_discardRun {world : World η} (mirrored : world.Mirrored display) :
    (display (world.discardRun host).host).frame = (display world.host).frame := by
  simp only [World.discardRun]
  split
  · have signals := mirrored.wellFormed.clear_eq
    have told := displays.tellAll
      { world.tell host .reset with machine := world.machine.reset.1 } world.machine.reset.2
    have heard : display (world.tell host .reset).host = display world.host :=
      displays.other .reset world.host fun _ => Activity.noConfusion
    rw [told, heard]
    simp only [Machine.reset, Display.receiveAll_append, signals]
    exact Display.frame_pixels _ _
  · rfl

theorem frameRows_refresh {world : World η} (mirrored : world.Mirrored display) :
    world.machine.screen.rows = .ok (display (world.refresh host).host).frameRows := by
  have told := displays.tellAll { world with machine.screen := world.machine.screen.refresh.1 }
    world.machine.screen.refresh.2.1
  have shown := mirrored.refresh.2
  rw [← told] at shown
  rw [mirrored.rows_eq]
  exact congrArg (fun frame : Array (Array UInt8) => Except.ok (frame.toList.map Array.toList))
    shown.symm

/-- A run that returns has shown the screen as it was at the end of the last slice, also when
the screen has been blanked since. -/
theorem frameRows_run {world : World η} (mirrored : world.Mirrored display) {passes cycles : Nat}
    {paused : Bool} (ran : (World.run host (passes + 1) paused world).answer = .ok cycles) :
    let turn := (world.begin host paused).world.loop host (World.run host passes) passes
    let final := (World.run host (passes + 1) paused world).world
    turn.answer = .ok () ∧
      turn.world.machine.screen.rows = .ok (display final.host).frameRows ∧
      (turn.world.scheduler.discard = true → ∀ x y, final.machine.screen.get x y = .ok 0) := by
  intro turn final
  have looped : turn.world.Mirrored display :=
    displays.invariant.loop (fun _ _ => displays.invariant.run passes _) passes
      (displays.invariant.begin paused mirrored)
  have refreshed := displays.invariant.refreshes looped
  -- A run that answers has neither been refused nor left its loop by a fault.
  have ending : turn.answer = .ok () ∧ final = (turn.world.refresh host).discardRun host := by
    simp only [final, World.run] at ran ⊢
    cases begun : (world.begin host paused).answer with
    | error cause =>
        simp only [begun] at ran
        cases ran
    | ok _ =>
        simp only [begun] at ran ⊢
        change (World.finish host turn).answer = .ok cycles at ran
        change _ ∧ (World.finish host turn).world = _
        cases answer : turn.answer with
        | error cause =>
            simp only [World.finish, answer] at ran
            cases cause with
            | fault | exhausted => cases ran
        | ok _ =>
            simp only [World.finish, answer]
            exact ⟨trivial, trivial⟩
  obtain ⟨answer, same⟩ := ending
  rw [same]
  refine ⟨answer, (displays.frameRows_refresh looped).trans ?_, fun discarded => ?_⟩
  · simp only [Display.frameRows, displays.frame_discardRun refreshed]
  · refine World.get_discardRun host refreshed.wellFormed ?_
    rw [World.discard_refresh]
    exact discarded

end Host.Displays

end Chip8
