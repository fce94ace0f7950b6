import Chip8.Proofs.Scheduler.Shown

/-!
# Histories of pictures

A screen and its display go through a history together. The display mirrors the
screen as long as no size was refused. A refused size is remembered while the
cells stay as they were, and until a later size is accepted the screen has no
picture at all.
-/

set_option autoImplicit false

namespace Chip8

structure Picture where
  screen : Screen
  display : Display

namespace Picture

inductive Operation where
  | toggle (x y : Int)
  | clear
  | resize (width height : Int)
  | refresh
  deriving DecidableEq

def Operation.IsProper : Operation → Prop
  | .resize width height => 1 ≤ width ∧ 1 ≤ height
  | .toggle .. | .clear | .refresh => True

/-- Whether the size asked for last was accepted, after an operation. -/
def Operation.settles (room : Room) (settled : Bool) : Operation → Bool
  | .resize width height => (Extent.check room (width * height)).isOk
  | .toggle .. | .clear | .refresh => settled

def operate (room : Room) (picture : Picture) : Operation → Picture
  | .toggle x y =>
      let outcome := picture.screen.toggle x y
      ⟨outcome.state, picture.display.receiveAll outcome.signals⟩
  | .clear =>
      let outcome := picture.screen.clear
      ⟨outcome.state, picture.display.receiveAll outcome.signals⟩
  | .resize width height =>
      let outcome := picture.screen.resize room width height
      ⟨outcome.state, picture.display.receiveAll outcome.signals⟩
  | .refresh =>
      let (screen, signals, _) := picture.screen.refresh
      ⟨screen, picture.display.receiveAll signals⟩

def after (room : Room) (picture : Picture) (history : List Operation) : Picture :=
  history.foldl (operate room) picture

/-- No size was refused since the last one that was accepted. -/
def settled (room : Room) (history : List Operation) : Bool :=
  history.foldl (Operation.settles room) true

def opened (width height : Int) (display : Display) : Picture :=
  ⟨.blank width height, display.receiveAll (Screen.opening width height)⟩

/-- The screen remembers a size that was refused, which is beyond that of its cells. -/
structure Refused (screen : Screen) : Prop where
  width_pos : 0 < screen.width
  height_pos : 0 < screen.height
  beyond : screen.cells.size < screen.size

theorem Refused.rows_eq {screen : Screen} (refused : Refused screen) :
    ∃ cause, screen.rows = .error cause := by
  have beyond := refused.beyond
  have outside : ¬screen.cells.InRange (0 + screen.size - 1) := by
    simp only [Memory.InRange]
    omega
  refine ⟨.addressOutOfRange (0 + screen.size - 1), ?_⟩
  simp only [Screen.rows, Memory.readBlock, Memory.check, if_neg outside, bind, Except.bind]

theorem Refused.of_same {screen next : Screen} (refused : Refused screen)
    (width : next.width = screen.width) (height : next.height = screen.height)
    (cells : next.cells.size = screen.cells.size) : Refused next where
  width_pos := by rw [width]; exact refused.width_pos
  height_pos := by rw [height]; exact refused.height_pos
  beyond := by rw [cells, Screen.size, width, height]; exact refused.beyond

theorem toggle_keeps (screen : Screen) (x y : Int) :
    let next := (screen.toggle x y).state
    next.width = screen.width ∧ next.height = screen.height ∧
      next.cells.size = screen.cells.size := by
  simp only [Screen.toggle]
  split
  · exact ⟨rfl, rfl, rfl⟩
  · split
    · exact ⟨rfl, rfl, rfl⟩
    · split
      · exact ⟨rfl, rfl, rfl⟩
      · rename_i stored
        have size := Memory.size_write stored
        split
        · exact ⟨rfl, rfl, size⟩
        · exact ⟨rfl, rfl, size⟩

theorem clear_keeps (screen : Screen) :
    let next := screen.clear.state
    next.width = screen.width ∧ next.height = screen.height ∧
      next.cells.size = screen.cells.size := by
  simp only [Screen.clear]
  cases stored : screen.cells.clear with
  | error cause => exact ⟨rfl, rfl, rfl⟩
  | ok cells => exact ⟨rfl, rfl, Memory.size_clear stored⟩

/-- What is known of a picture, depending on whether its size is settled. -/
structure Follows (room : Room) (picture : Picture) (settled : Bool) : Prop where
  cells : Extent.Fits room picture.screen.cells.size
  mirrors : settled = true → picture.display.Mirrors picture.screen
  refused : settled = false → Refused picture.screen

variable {room : Room}

theorem follows_opened {width height : Int} (columns : 0 < width) (rows : 0 < height)
    (fits : Extent.Fits room (width * height)) (display : Display) :
    (opened width height display).Follows room true where
  cells := fits
  mirrors := fun _ =>
    Display.mirrors_blank (display.receive (.resolution 0 0)) columns rows fits.counted
  refused := nofun

namespace Follows

variable {picture : Picture} {settled : Bool} (follows : picture.Follows room settled)

include follows

theorem resize {width height : Int} (columns : 1 ≤ width) (rows : 1 ≤ height) :
    (picture.operate room (.resize width height)).Follows room
      (Extent.check room (width * height)).isOk := by
  have positive : 0 < width * height := Int.mul_pos (by omega) (by omega)
  simp only [operate, Screen.resize]
  cases checked : Extent.check room (width * height) with
  | ok _ =>
      have fits := Extent.check_eq_ok_iff.mp checked
      exact {
        cells := fits
        mirrors := fun _ =>
          Display.mirrors_blank picture.display (by omega) (by omega) fits.counted
        refused := nofun }
  | error cause =>
      have refused : ¬Extent.Fits room (width * height) := by
        rw [← Extent.check_eq_ok_iff, checked]
        nofun
      -- Whatever is not beyond the cells that there are would have been accepted as they were.
      have beyond : picture.screen.cells.size < width * height := by
        refine Int.not_le.mp fun within => refused (follows.cells.of_le within ?_)
        simp only [Extent.countBound]
        omega
      exact {
        cells := follows.cells
        mirrors := nofun
        refused := fun _ =>
          { width_pos := by simp only [Outcome.fault]; omega
            height_pos := by simp only [Outcome.fault]; omega
            beyond := beyond } }

theorem operate {operation : Operation} (proper : operation.IsProper) :
    (picture.operate room operation).Follows room (operation.settles room settled) := by
  cases operation with
  | resize width height => exact follows.resize proper.1 proper.2
  | toggle x y =>
      obtain ⟨width, height, size⟩ := toggle_keeps picture.screen x y
      exact {
        cells := size.symm ▸ follows.cells
        mirrors := fun accepted => (follows.mirrors accepted).toggle x y
        refused := fun refused => (follows.refused refused).of_same width height size }
  | clear =>
      obtain ⟨width, height, size⟩ := clear_keeps picture.screen
      exact {
        cells := size.symm ▸ follows.cells
        mirrors := fun accepted => (follows.mirrors accepted).clear
        refused := fun refused => (follows.refused refused).of_same width height size }
  | refresh =>
      exact {
        cells := follows.cells
        mirrors := fun accepted => (follows.mirrors accepted).refresh.1
        refused := fun refused => (follows.refused refused).of_same rfl rfl rfl }

theorem after {history : List Operation} (proper : ∀ operation ∈ history, operation.IsProper) :
    (picture.after room history).Follows room
      (history.foldl (Operation.settles room) settled) := by
  induction history generalizing picture settled with
  | nil => exact follows
  | cons operation rest ih =>
      obtain ⟨first, later⟩ := List.forall_mem_cons.mp proper
      exact ih (follows.operate first) later

/-- Every operation but a refresh leaves a change to show. -/
theorem dirty {operation : Operation} (change : operation ≠ .refresh)
    (settles : operation.settles room settled = true) :
    (picture.operate room operation).screen.dirty = true := by
  cases operation with
  | refresh => exact absurd rfl change
  | resize width height =>
      simp only [Operation.settles] at settles
      simp only [Picture.operate, Screen.resize]
      cases checked : Extent.check room (width * height) with
      | ok _ => rfl
      | error cause =>
          rw [checked] at settles
          cases settles
  | toggle x y =>
      obtain ⟨_, _, _, toggled⟩ := (follows.mirrors settles).wellFormed.toggle_eq x y
      simp only [Picture.operate, toggled]
  | clear => simp only [Picture.operate, (follows.mirrors settles).wellFormed.clear_eq]

theorem rows_iff : (∃ rows, picture.screen.rows = .ok rows) ↔ settled = true := by
  cases settled with
  | true => exact ⟨fun _ => rfl, fun _ => ⟨_, (follows.mirrors rfl).rows_eq⟩⟩
  | false =>
      obtain ⟨cause, refused⟩ := (follows.refused rfl).rows_eq
      refine ⟨fun ⟨rows, told⟩ => ?_, nofun⟩
      cases refused.symm.trans told

end Follows

/-- A screen without a change to show is the one that the refresh before has left. -/
theorem previous_refresh {start : Picture} (follows : start.Follows room true)
    (dirty : start.screen.dirty = true) {history : List Operation}
    (proper : ∀ operation ∈ history, operation.IsProper) (accepted : settled room history = true)
    (clean : (start.after room history).screen.dirty = false) :
    ∃ before between, history = before ++ .refresh :: between ∧ .refresh ∉ between ∧
      (start.after room (before ++ [.refresh])).screen = (start.after room history).screen := by
  -- The last operation was that refresh: any other one would have left a change to show.
  rcases List.eq_nil_or_concat history with rfl | ⟨before, last, rfl⟩
  · cases dirty.symm.trans clean
  · simp only [List.concat_eq_append] at proper accepted clean ⊢
    have earlier := follows.after fun operation member =>
      proper operation (List.mem_append_left _ member)
    by_cases refreshed : last = .refresh
    · subst refreshed
      exact ⟨before, [], rfl, List.not_mem_nil, rfl⟩
    · simp only [settled, after, List.foldl_append, List.foldl_cons, List.foldl_nil]
        at accepted clean
      cases (earlier.dirty refreshed accepted).symm.trans clean

/-- A display follows its screen through every history whose last size was accepted, and the
frame that a run leaves is the picture at the end of its last slice. Behind a refused size the
screen has no picture to follow. -/
theorem shows_picture {width height : Int} {screen : Screen} {signals : List Signal}
    (created : Screen.create room width height = .ok (screen, signals)) (columns : 1 ≤ width)
    (rows : 1 ≤ height) (stretch : Option Int) {history : List Operation}
    (proper : ∀ operation ∈ history, operation.IsProper) :
    let start : Picture := ⟨screen, (Display.create stretch).receiveAll signals⟩
    let picture := start.after room history
    let shown := picture.operate room .refresh
    ((∃ rows, picture.screen.rows = .ok rows) ↔ settled room history = true) ∧
    (settled room history = true →
      picture.screen.rows = .ok picture.display.pixelRows ∧
      (picture.screen.dirty = false → picture.screen.rows = .ok picture.display.frameRows) ∧
      shown.screen.rows = .ok shown.display.frameRows ∧
      (picture.screen.refresh.2.2 = false →
        ∃ before between, history = before ++ .refresh :: between ∧ .refresh ∉ between ∧
          (start.after room (before ++ [.refresh])).screen = picture.screen) ∧
      ∀ {η : Type} (host : Host η) (display : η → Display) (world : World η)
        (passes cycles : Nat) (paused : Bool), host.Displays display →
        world.machine.screen = picture.screen → display world.host = picture.display →
        (World.run host (passes + 1) paused world).answer = .ok cycles →
        let turn := (world.begin host paused).world.loop host (World.run host passes) passes
        let final := (World.run host (passes + 1) paused world).world
        turn.answer = .ok () ∧
        turn.world.machine.screen.rows = .ok (display final.host).frameRows ∧
        (turn.world.scheduler.discard = true → ∀ x y, final.machine.screen.get x y = .ok 0)) := by
  intro start picture shown
  obtain ⟨fresh, told, fits⟩ := Screen.of_create created
  have opening : start = opened width height (.create stretch) := by
    simp only [start, fresh, told, opened]
  have follows : start.Follows room true := by
    rw [opening]
    exact follows_opened (by omega) (by omega) fits _
  have dirty : start.screen.dirty = true := by rw [opening]; rfl
  have kept := follows.after proper
  refine ⟨kept.rows_iff, fun accepted => ?_⟩
  have mirrors : picture.display.Mirrors picture.screen := kept.mirrors accepted
  refine ⟨mirrors.rows_eq, mirrors.frameRows_eq, mirrors.refresh.1.frameRows_eq rfl,
    previous_refresh follows dirty proper accepted, ?_⟩
  intro η host display world passes cycles paused displays sameScreen sameDisplay ran
  have mirrored : world.Mirrored display := by
    rw [World.Mirrored, sameScreen, sameDisplay]
    exact mirrors
  exact displays.frameRows_run mirrored ran

def gallery : Host Display where
  readClock := fun display => (0.0, display)
  wait := fun _ display => display
  receive := fun activity display =>
    match activity with
    | .signal signal => display.receive signal
    | .poll _ | .cycle | .tick | .reset => display
  poll := fun _ => .ask .stop fun _ => .leave false

theorem displays_gallery : gallery.Displays id where
  signal := fun _ _ => rfl
  other := by
    intro activity display other
    cases activity with
    | signal signal => exact absurd rfl (other signal)
    | poll | cycle | tick | reset => rfl
  readClock := fun _ => rfl
  wait := fun _ _ => rfl
  poll := fun _ _ _ => trivial

/-- A small picture with one cell turned over since it was shown. -/
def sketch : Picture := (opened 8 4 (.create none)).after .ample [.refresh, .toggle 9 0]

def sketchWorld : World Display where
  scheduler := { interval := none }
  machine := { Machine.blank .plain (.scripted [] 0) false with screen := sketch.screen }
  host := sketch.display

theorem shows_picture_sketch :
    let turn := (sketchWorld.begin gallery false).world.loop gallery (World.run gallery 1) 1
    let final := (World.run gallery 2 false sketchWorld).world
    turn.world.machine.screen.rows = .ok final.host.frameRows ∧
      final.host.frameRows ≠ List.replicate 4 (List.replicate 8 0) ∧
      ∀ x y, final.machine.screen.get x y = .ok 0 := by
  have proper : ∀ operation ∈ [Operation.refresh, .toggle 9 0], operation.IsProper := by
    simp [Operation.IsProper]
  have ran : (World.run gallery 2 false sketchWorld).answer = .ok 0 :=
    Turn.answer_eq_ok (by decide +kernel)
  have discard : ((sketchWorld.begin gallery false).world.loop gallery
      (World.run gallery 1) 1).world.scheduler.discard = true := by decide +kernel
  obtain ⟨_, follows⟩ :=
    shows_picture (rfl : Screen.create .ample 8 4 = .ok _) (by decide) (by decide) none proper
  obtain ⟨_, _, _, _, runs⟩ := follows rfl
  obtain ⟨_, shown, blank⟩ := runs gallery id sketchWorld 1 0 false displays_gallery rfl rfl ran
  exact ⟨shown, by decide +kernel, blank discard⟩

/-- Behind a refused size a cell changes, and the screen does not remember that it did. -/
theorem picture_behind_refused_size :
    let picture := (opened 8 4 (.create none)).after .ample
      [.refresh, .resize Extent.countBound 1, .toggle 9 0]
    picture.screen.dirty = false ∧ (picture.screen.get 9 0).toOption = some 1 ∧
      picture.display.frameRows = List.replicate 4 (List.replicate 8 0) := by
  decide +kernel

end Picture

end Chip8
