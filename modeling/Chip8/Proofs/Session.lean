import Chip8.Proofs.Display.Written
import Chip8.Proofs.InputTrace.Replay
import Chip8.Proofs.Machine.Printed
import Chip8.Proofs.Machine.Reachable
import Chip8.Proofs.Memory
import Chip8.Proofs.Scheduler.Bound
import Chip8.Proofs.Scheduler.Parts
import Chip8.Session

/-!
# How sessions end

The run of a session can only fail where an instruction does, since the polls of a console never
fail. What the machine tells leaves the size of the display alone, so whether there is room for its
last frame is known when the session is opened. What is printed while it runs can be written by
every output, and only the last frame may have a character that cannot be.
-/

set_option autoImplicit false

namespace Chip8

/-- What a machine in use tells its host: no size, and no line beyond ASCII. -/
def Signal.IsPlain : Signal → Prop
  | .resolution .. => False
  | .line text => Text.IsAscii text.toList
  | .pixel .. | .refresh _ | .rates .. | .beep _ | .buzzer _ => True

theorem Signal.isPlain_of_isEffect {signal : Signal} (effect : signal.isEffect = true) :
    signal.IsPlain := by
  cases signal with
  | pixel | beep | buzzer => trivial
  | resolution | refresh | rates | line => cases effect

theorem Machine.isPlain_operate {machine : Machine} {operation : Operation} :
    ∀ signal ∈ (machine.operate operation).signals, signal.IsPlain := by
  intro signal member
  rcases effect_or_line_of_operate operation signal member with effect | ⟨text, rfl⟩
  · exact Signal.isPlain_of_isEffect effect
  · exact isAscii_of_operate member

namespace Display

/-- The display shows pictures of the size that machines have. -/
structure Sized (stretch : Int) (display : Display) : Prop where
  stretch_eq : display.stretch = stretch
  width_eq : display.width = Screen.columns
  height_eq : display.height = Screen.rowCount
  shaped : display.Shaped

/-- Refuse a stretch at which there is no room for the picture of a machine. -/
def checkStretch (room : Room) (stretch : Int) : Except Fault Unit := do
  Extent.check room stretch
  Extent.check room (Screen.columns * stretch)
  Extent.check room ((Screen.rowCount + 2) * (Screen.columns * stretch.toNat + 3) - 1)

/-- Refuse a frame with a block in its text where the output has none. -/
def checkBlocks (output : Output) (display : Display) : Except Fault Unit :=
  if 0 < display.stretch ∧ display.lit = true ∧ output.writes '█' = false then .error .unwritable
  else .ok ()

variable {room : Room}

theorem cause_of_checkStretch {stretch : Int} {cause : Fault}
    (refused : checkStretch room stretch = .error cause) :
    ∃ count, cause = .beyondCount count ∨ cause = .outOfMemory count := by
  rcases failure_of_bind refused with refused | ⟨_, _, refused⟩
  · exact Extent.cause_of_check refused
  rcases failure_of_bind refused with refused | ⟨_, _, refused⟩
  · exact Extent.cause_of_check refused
  · exact Extent.cause_of_check refused

/-- An output writes a frame, and the line end behind it, unless it has a block and the output has
none. -/
theorem all_writes_eq (output : Output) (display : Display) :
    (display.renderChars ++ ['\n']).all output.writes = (checkBlocks output display).isOk := by
  unfold checkBlocks
  split
  case isTrue blocked =>
    obtain ⟨positive, lit, unwritten⟩ := blocked
    have drawn : '█' ∈ display.renderChars := block_mem_renderChars positive lit
    refine List.all_eq_false.mpr ⟨'█', List.mem_append_left _ drawn, ?_⟩
    rw [unwritten]
    nofun
  case isFalse free =>
    refine List.all_eq_true.mpr fun c member => ?_
    rcases List.mem_append.mp member with drawn | newline
    · rcases of_mem_renderChars drawn with ascii | ⟨rfl, positive, lit⟩
      · exact output.ascii c ascii
      · rw [← Bool.not_eq_false]
        exact fun unwritten => free ⟨positive, lit, unwritten⟩
    · rw [List.mem_singleton.mp newline]
      exact output.ascii '\n' (by decide)

namespace Sized

variable {stretch : Int} {display : Display} (sized : display.Sized stretch)

include sized

theorem receive {signal : Signal} (plain : signal.IsPlain) :
    (display.receive signal).Sized stretch := by
  have shaped := sized.shaped.receive signal
  cases signal with
  | resolution => exact plain.elim
  | pixel x y value =>
      simp only [Display.receive] at shaped ⊢
      split at shaped
      · exact { sized with shaped := shaped }
      · exact sized
  | refresh changed =>
      cases changed with
      | false => exact sized
      | true => exact { sized with shaped := shaped }
  | rates | beep | buzzer | line => exact sized

theorem receiveAll {signals : List Signal} (plain : ∀ signal ∈ signals, signal.IsPlain) :
    (display.receiveAll signals).Sized stretch := by
  induction signals generalizing display with
  | nil => exact sized
  | cons signal rest ih =>
      obtain ⟨first, later⟩ := List.forall_mem_cons.mp plain
      exact ih (sized.receive first) later

theorem render_eq : display.render room =
    (checkStretch room stretch).map fun _ => String.ofList display.renderChars := by
  have columns (row : Array UInt8) (shown : row ∈ display.frame) : row.size = Screen.columns := by
    rw [sized.shaped.frame_columns row shown, sized.width_eq]
    rfl
  have length : (display.textLength : Int) =
      (Screen.rowCount + 2) * (Screen.columns * stretch.toNat + 3) - 1 := by
    rw [textLength_of_columns columns, sized.shaped.frame_size, sized.height_eq, sized.width_eq,
      sized.stretch_eq]
    simp only [Screen.columns, Screen.rowCount, Int.toNat_natCast]
    omega
  rw [render, checkStretch, length, sized.stretch_eq, sized.width_eq]
  generalize Extent.check room stretch = pixel
  generalize Extent.check room (Screen.columns * stretch) = border
  generalize Extent.check room _ = text
  cases pixel with
  | error cause => rfl
  | ok _ =>
      cases border with
      | error cause => rfl
      | ok _ =>
          cases text with
          | error cause => rfl
          | ok _ => rfl

end Sized

theorem sized_opening (stretch : Option Int) :
    ((create stretch).receiveAll (Screen.opening Screen.columns Screen.rowCount)).Sized
      (stretch.getD 1) where
  stretch_eq := rfl
  width_eq := rfl
  height_eq := rfl
  shaped := (shaped_create stretch).receiveAll _

end Display

variable {η τ : Type}

theorem Visit.keeps_replay {holds : World η → Prop} (frame : Nat)
    (events : η → List InputTrace.Event) (keep : List InputTrace.Event → η → η)
    (kept : ∀ later world, holds world → holds { world with host := keep later world.host }) :
    (replay frame events keep .leave).Keeps holds := by
  have pressed (keys : List (Key × Bool)) (quit : Bool) :
      (press keys (.leave quit)).Keeps holds := by
    induction keys with
    | nil => trivial
    | cons change rest ih => exact fun _ => ih
  exact fun world => ⟨kept _, pressed _ _⟩

namespace Console

variable {room : Room} {output : Output} {stretch : Option Int}

/-- The console of a session with such a room and such an output. Its display, if there is one, has
the stretch and shows pictures of the size that machines have. -/
structure Equipped (room : Room) (output : Output) (stretch : Option Int) (console : Console τ) :
    Prop where
  room_eq : console.room = room
  output_eq : console.output = output
  display : Option.Rel Display.Sized stretch console.display
  written : ∀ c ∈ console.printed.toList, output.writes c = true

theorem isAscii_textOn (sounder : Sounder) {signal : Signal} (plain : signal.IsPlain) :
    Text.IsAscii (textOn sounder signal).toList := by
  have silent : Text.IsAscii "".toList := by decide
  have newline : Text.IsAscii "\n".toList := by decide
  have bell : Text.IsAscii "\x07".toList := by decide
  cases signal with
  | resolution => exact plain.elim
  | line text => exact .concat (.concat plain newline) silent
  | beep =>
      refine .concat silent ?_
      simp only [Sounder.receive, Sounder.ring]
      split
      · exact bell
      · exact silent
  | pixel | refresh | rates | buzzer => exact .concat silent silent

namespace Equipped

variable {console : Console τ} (equipped : console.Equipped room output stretch)

include equipped

theorem receiveAll {signals : List Signal} (plain : ∀ signal ∈ signals, signal.IsPlain) :
    (console.receiveAll signals).Equipped room output stretch where
  room_eq := equipped.room_eq
  output_eq := equipped.output_eq
  display := by
    have drawn := equipped.display
    simp only [Console.receiveAll]
    generalize console.display = shown at drawn ⊢
    cases drawn with
    | none => exact .none
    | some sized => exact .some (sized.receiveAll plain)
  written := by
    have written := equipped.written
    simp only [Console.receiveAll]
    generalize console.printed = printed at written ⊢
    induction signals generalizing printed with
    | nil => exact written
    | cons signal rest ih =>
        obtain ⟨first, later⟩ := List.forall_mem_cons.mp plain
        refine ih later _ ?_
        rw [String.toList_append]
        refine List.forall_mem_append.mpr ⟨written, fun c member => ?_⟩
        exact output.ascii c (isAscii_textOn console.sounder first c member)

end Equipped

theorem Equipped.tellAll {clock : Clock τ} {world : World (Console τ)}
    (equipped : world.host.Equipped room output stretch) {signals : List Signal}
    (plain : ∀ signal ∈ signals, signal.IsPlain) :
    (world.tellAll (host clock) signals).host.Equipped room output stretch := by
  induction signals generalizing world with
  | nil => exact equipped
  | cons signal rest ih =>
      obtain ⟨first, later⟩ := List.forall_mem_cons.mp plain
      exact ih (equipped.receiveAll (List.forall_mem_singleton.mpr first)) later

/-- Nothing that a run does to a console changes what its display can draw, and all that the run
prints can be written. -/
theorem invariant_equipped (clock : Clock τ) (room : Room) (output : Output)
    (stretch : Option Int) :
    (host clock).Invariant fun world => world.host.Equipped room output stretch where
  scheduler := fun _ _ equipped => equipped
  readClock := fun _ equipped => { equipped with }
  sleep := fun _ _ equipped => { equipped with }
  tell := by
    intro world activity other equipped
    cases activity with
    | signal signal => exact absurd rfl (other signal)
    | _ => exact equipped
  report := by
    intro world pictures instructions equipped
    exact equipped.tellAll (List.forall_mem_singleton.mpr trivial)
  refresh := by
    intro world equipped
    have refreshed : ({ world with machine.screen := world.machine.screen.refresh.1 } :
        World (Console τ)).host.Equipped room output stretch := equipped
    exact refreshed.tellAll (List.forall_mem_singleton.mpr trivial)
  operate := by
    intro world operation equipped
    have operated : ({ world with machine := (world.machine.operate operation).state } :
        World (Console τ)).host.Equipped room output stretch := equipped
    exact operated.tellAll Machine.isPlain_operate
  poll := by
    intro frame
    exact Visit.keeps_replay frame Console.events
      (fun later console => { console with events := later })
      fun _ _ equipped => { equipped with }

theorem answer_poll (clock : Clock τ) (run : Bool → World (Console τ) → Turn (Console τ) Nat)
    (frame : Nat) (world : World (Console τ)) :
    ∃ quit, (world.converse (host clock) run ((host clock).poll frame)).answer = .ok quit := by
  obtain ⟨next, quit, _, polled, _⟩ :=
    InputTrace.Playback.poll_takes ⟨world.machine.keypad, world.host.events⟩ frame
  have ended := InputTrace.converse_replay (host clock) run
    (fun later (console : Console τ) => { console with events := later }) polled
  exact ⟨quit, congrArg Turn.answer ended⟩

/-- Refuse a display whose last frame cannot be drawn or cannot be written. -/
def checkDisplay (room : Room) (output : Output) (stretch : Option Int)
    (display : Option Display) : Except Fault Unit := do
  stretch.elim (.ok ()) (Display.checkStretch room)
  display.elim (.ok ()) (Display.checkBlocks output)

theorem answer_print (console : Console τ) (display : Display) :
    (console.print (String.ofList display.renderChars ++ "\n")).map (fun _ => ()) =
      Display.checkBlocks console.output display := by
  have newline : "\n".toList = ['\n'] := rfl
  unfold print
  rw [String.toList_append, String.toList_ofList, newline, Display.all_writes_eq]
  cases checked : Display.checkBlocks console.output display with
  | ok _ => rfl
  | error cause =>
      unfold Display.checkBlocks at checked
      split at checked
      · cases checked
        rfl
      · cases checked

theorem written_print {console printed : Console τ} {text : String}
    (ran : console.print text = .ok printed)
    (written : ∀ c ∈ console.printed.toList, console.output.writes c = true) :
    ∀ c ∈ printed.printed.toList, console.output.writes c = true := by
  unfold print at ran
  split at ran
  case isTrue writes =>
    cases ran
    rw [String.toList_append]
    exact List.forall_mem_append.mpr ⟨written, List.all_eq_true.mp writes⟩
  case isFalse => cases ran

namespace Equipped

variable {console : Console τ} (equipped : console.Equipped room output stretch)

include equipped

theorem silence : console.silence.Equipped room output stretch := { equipped with }

theorem answer_draw :
    console.draw.map (fun _ => ()) = checkDisplay room output stretch console.display := by
  have drawn := equipped.display
  unfold draw
  rw [equipped.room_eq]
  cases display : console.display with
  | none =>
      rw [display] at drawn
      cases drawn
      rfl
  | some shown =>
      rw [display] at drawn
      cases drawn with
      | some sized =>
          have printed := console.answer_print shown
          rw [equipped.output_eq] at printed
          simp only [sized.render_eq, checkDisplay, Option.elim_some]
          cases Display.checkStretch room _ with
          | error cause => rfl
          | ok _ => exact printed

theorem written_draw {drawn : Console τ} (ran : console.draw = .ok drawn) :
    ∀ c ∈ drawn.printed.toList, output.writes c = true := by
  have output_eq := equipped.output_eq
  subst output_eq
  unfold draw at ran
  split at ran
  · cases ran
    exact equipped.written
  · obtain ⟨text, _, printed⟩ := of_bind ran
    exact written_print printed equipped.written

theorem answer_shutdown :
    console.shutdown.2 = checkDisplay room output stretch console.display := by
  have drawn := equipped.silence.answer_draw
  have same : console.silence.display = console.display := rfl
  rw [same] at drawn
  rw [← drawn, shutdown]
  cases console.silence.draw with
  | error cause => rfl
  | ok _ => rfl

theorem written_shutdown : ∀ c ∈ console.shutdown.1.printed.toList, output.writes c = true := by
  unfold shutdown
  cases drawn : console.silence.draw with
  | error cause => exact equipped.silence.written
  | ok _ => exact equipped.silence.written_draw drawn

end Equipped

end Console

/-- A machine that can be reached has failed with this fault. -/
def Machine.Raises (cause : Fault) : Prop :=
  ∃ machine : Machine, machine.Reachable ∧ machine.cycle.answer = .error cause

namespace World

theorem Due.reachable {host : Host η} {world ticked : World η} (due : world.Due host ticked)
    (reachable : world.machine.Reachable) : ticked.machine.Reachable := by
  cases due with
  | untimed => exact reachable
  | timed now => exact host.invariant_reachable.countTimers now reachable

theorem Moved.raises {host : Host η} {world : World η} {turn : Turn η Bool}
    (moved : world.Moved host turn) (reachable : world.machine.Reachable) {halt : Halt}
    (failed : turn.answer = .error halt) : ∃ cause, halt = .fault cause ∧ Machine.Raises cause := by
  cases moved with
  | stopped | rested | executed => cases failed
  | failed due cycle =>
      cases failed
      exact ⟨_, rfl, _, due.reachable reachable, cycle⟩

section

variable {host : Host η} {run : Bool → World η → Turn η Nat}
  (runs : ∀ paused world, world.machine.Reachable → (run paused world).world.machine.Reachable)
  (answers : ∀ frame (world : World η),
    ∃ quit, (world.converse host run (host.poll frame)).answer = .ok quit)

include runs answers

/-- Where polls never fail, a slice fails where an instruction does. -/
theorem raises_of_slice {world : World η} (reachable : world.machine.Reachable) {halt : Halt}
    (failed : (world.slice host run).answer = .error halt) :
    ∃ cause, halt = .fault cause ∧ Machine.Raises cause := by
  have sliced := slice_sliced host run world
  have invariant := host.invariant_reachable
  generalize world.slice host run = turn at sliced failed
  cases sliced with
  | unasked poll waited moved =>
      rw [← waited.machine] at reachable
      exact moved.raises reachable failed
  | @shown asked _ poll answer moved =>
      obtain ⟨_, _, _, _, _, _, machine, _⟩ := poll?_eq_some host poll
      rw [← machine] at reachable
      have conversed := invariant.converse runs (invariant.poll asked.scheduler.frame) reachable
      exact moved.raises (invariant.refreshes (invariant.scheduler _ _ conversed)) failed
  | quit => cases failed
  | @failed asked cause poll answer =>
      obtain ⟨quit, answered⟩ := answers asked.scheduler.frame asked
      cases answered.symm.trans answer

theorem raises_of_loop (passes : Nat) {world : World η} (reachable : world.machine.Reachable)
    {halt : Halt} (failed : (world.loop host run passes).answer = .error halt) :
    halt = .exhausted ∨ ∃ cause, halt = .fault cause ∧ Machine.Raises cause := by
  induction passes generalizing world with
  | zero =>
      cases failed
      exact .inl rfl
  | succ passes ih =>
      simp only [loop] at failed
      split at failed
      case h_1 cause answer =>
        cases failed
        exact .inr (raises_of_slice runs answers reachable answer)
      · cases failed
      · exact ih (host.invariant_reachable.slice runs reachable) failed

end

end World

namespace Session

variable {room : Room} {output : Output} {stretch : Option Int}

theorem isAscii_greeting : Text.IsAscii greeting.toList := by decide +kernel

theorem equipped_opened (surroundings : Surroundings τ) (events : List InputTrace.Event)
    (scale : Setting) (kind : DisplayKind) (bell : Bool) (dialect : Dialect)
    (random : RandomSource) (live : Bool) {told : List Signal}
    (effects : ∀ signal ∈ told, signal.isEffect = true) :
    ((openConsole surroundings events scale kind bell).receiveAll
      ((Machine.assemble dialect random live).2 ++ told)).Equipped surroundings.room
        surroundings.output ((chooseDisplay scale kind).map Display.stretch) := by
  have opening : ((openConsole surroundings events scale kind bell).receiveAll
      (Screen.opening Screen.columns Screen.rowCount)).Equipped surroundings.room
        surroundings.output ((chooseDisplay scale kind).map Display.stretch) :=
    { room_eq := rfl
      output_eq := rfl
      display := by
        cases kind with
        | absent => exact .none
        | text => exact .some (Display.sized_opening (stretch? scale).join)
      written := by
        have same : ((openConsole surroundings events scale kind bell).receiveAll
            (Screen.opening Screen.columns Screen.rowCount)).printed = greeting := by
          simp [openConsole, Console.receiveAll, Screen.opening, Console.textOn, Console.lineOf,
            Sounder.receive]
        rw [same]
        exact fun c member => surroundings.output.ascii c (isAscii_greeting c member) }
  have reset : ∀ signal ∈ Machine.resetSignals, signal.isEffect = true :=
    (Machine.blank dialect random live).isEffect_reset
  have plain : ∀ signal ∈ Machine.resetSignals ++ told, signal.IsPlain := fun signal member =>
    Signal.isPlain_of_isEffect (List.forall_mem_append.mpr ⟨reset, effects⟩ signal member)
  rw [Machine.assemble, List.append_assoc, Console.receiveAll_append]
  exact opening.receiveAll plain

/-- A session that is ready to run, whose limits are of a right kind. -/
structure Plan.Ready (room : Room) (output : Output) (stretch : Option Int) (plan : Plan τ) :
    Prop where
  reachable : plan.world.machine.Reachable
  idleLimit : plan.idleLimitFits = true
  cycleLimit : plan.cycleLimitFits = true
  equipped : plan.world.host.Equipped room output stretch

inductive Ran : Except Failure Unit → Prop where
  | ended : Ran (.ok ())
  | raised {cause : Fault} : Machine.Raises cause → Ran (.error (.fault cause))

def checkClosing (plan : Plan τ) (room : Room) (output : Output) (stretch : Option Int)
    (shown : Option Display) : Except Failure Unit :=
  if plan.stretchFits then (Console.checkDisplay room output stretch shown).mapError .fault
  else .error (.unfit "scale")

/-- What is known of the ending of a session. It is closed if its run is over, however that comes
out, and a failure to close it stands in place of a failure of the run. -/
structure Ends (plan : Plan τ) (room : Room) (output : Output) (stretch : Option Int)
    (ending : Ending τ) : Prop where
  written : ∀ c ∈ ending.printed.toList, output.writes c = true
  shown : Option.Rel Display.Sized stretch ending.shown
  answer : ending.answer = .error .unfinished ∨ ∃ ran world, Ran ran ∧ ending.answer =
    (checkClosing plan room output stretch ending.shown >>= fun _ => ran >>= fun _ => .ok world)

variable {clock : Clock τ} {plan : Plan τ}

theorem ran_of_conclude (ready : plan.Ready room output stretch) {turn : Turn (Console τ) Unit}
    (equipped : turn.world.host.Equipped room output stretch)
    (raises : ∀ halt, turn.answer = .error halt →
      halt = .exhausted ∨ ∃ cause, halt = .fault cause ∧ Machine.Raises cause) :
    (conclude clock plan turn).1.host.Equipped room output stretch ∧
      ((conclude clock plan turn).2 = .error .unfinished ∨ Ran (conclude clock plan turn).2) := by
  have fits : unfitLimit? plan turn.world.scheduler = none := by
    simp [unfitLimit?, ready.idleLimit, ready.cycleLimit]
  have finished := (Console.invariant_equipped clock room output stretch).finish equipped
  obtain ⟨world, answer⟩ := turn
  cases answer with
  | ok _ =>
      simp only [conclude, fits]
      exact ⟨finished, .inr .ended⟩
  | error halt =>
      simp only [conclude]
      refine ⟨finished, ?_⟩
      rcases raises halt rfl with rfl | ⟨cause, rfl, raised⟩
      · exact .inl rfl
      · exact .inr (.raised raised)

theorem answer_close {console : Console τ} (equipped : console.Equipped room output stretch) :
    (close plan console).2 = checkClosing plan room output stretch console.display := by
  unfold close checkClosing
  rw [← equipped.answer_shutdown]
  split
  · rfl
  · rfl

theorem written_close {console : Console τ} (equipped : console.Equipped room output stretch) :
    ∀ c ∈ (close plan console).1.printed.toList, output.writes c = true := by
  unfold close
  split
  · exact equipped.written_shutdown
  · exact equipped.written

theorem ends_of_conclude {turn : Turn (Console τ) Unit}
    (equipped : (conclude clock plan turn).1.host.Equipped room output stretch)
    (known : (conclude clock plan turn).2 = .error .unfinished ∨ Ran (conclude clock plan turn).2) :
    Ends plan room output stretch (ending clock plan turn) := by
  unfold ending
  generalize conclude clock plan turn = concluded at equipped known
  obtain ⟨world, ran⟩ := concluded
  have closed : (close plan world.host).2 =
      checkClosing plan room output stretch world.host.display := answer_close equipped
  have complete (isRan : Ran ran) : Ends plan room output stretch
      { printed := (close plan world.host).1.printed
        shown := world.host.display
        answer := do
          (close plan world.host).2
          ran
          return { world with host := (close plan world.host).1 } } :=
    { written := written_close equipped
      shown := equipped.display
      answer := by
        rw [closed]
        exact .inr ⟨ran, _, isRan, rfl⟩ }
  rcases known with unfinished | isRan
  · simp only at unfinished
    subst unfinished
    exact ⟨equipped.written, equipped.display, .inl rfl⟩
  · cases isRan with
    | ended => exact complete .ended
    | raised raises => exact complete (.raised raises)

/-- A session is closed however its run comes out, and a failure to close it stands in place of a
failure of the run. -/
theorem ends_of_play (clock : Clock τ) (ready : plan.Ready room output stretch) (passes : Nat) :
    Ends plan room output stretch (play clock plan passes) := by
  have equipped := Console.invariant_equipped clock room output stretch
  have reachable := (Console.host clock).invariant_reachable
  have runs (paused : Bool) (world : World (Console τ)) (held : world.machine.Reachable) :
      (World.run (Console.host clock) passes paused world).world.machine.Reachable :=
    reachable.run passes paused held
  have answers := Console.answer_poll clock (World.run (Console.host clock) passes)
  have looped := equipped.loop (fun paused _ => equipped.run passes paused) passes
    (equipped.begin false ready.equipped)
  obtain ⟨concluded, known⟩ := ran_of_conclude ready looped fun _ =>
    World.raises_of_loop runs answers passes (reachable.begin false ready.reachable)
  exact ends_of_conclude concluded known

theorem answer_ending_of_exhausted {turn : Turn (Console τ) Unit}
    (bounded : turn.answer = .error .exhausted) :
    (ending clock plan turn).answer = .error .unfinished := by
  simp only [ending, conclude, World.finish, bounded]
  rfl

/-- A session that is over does not change with a higher bound on its passes. -/
theorem play_of_more {passes more : Nat} (le : passes ≤ more)
    (complete : (play clock plan passes).answer ≠ .error .unfinished) :
    play clock plan more = play clock plan passes := by
  have extends_ := World.extends_run (Console.host clock) le
  simp only [play] at complete ⊢
  rw [World.loop_of_extends extends_ (Console.host clock) le]
  exact fun bounded => complete (answer_ending_of_exhausted bounded)

end Session

end Chip8
