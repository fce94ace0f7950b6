import Chip8.Proofs.CommandLine.Values
import Chip8.Proofs.Machine.Load
import Chip8.Proofs.Session

/-!
# Opening a session

What the session of accepted arguments reads, in the order in which it reads it: the program, the
trace, the seed, and the speed behind the load. Each of them can be at fault, and all other settings
cannot. What comes out is a session that is ready to run.
-/

set_option autoImplicit false

namespace Chip8.CommandLine

open Session

variable {τ : Type}

/-- Refuse a text display for whose last frame there is no room. -/
def Invocation.checkDrawing (invocation : Invocation) (room : Room) : Except Failure Unit :=
  match invocation.values .renderer, stretch? (invocation.values .scale) with
  | .text "text", some stretch => (Display.checkStretch room (stretch.getD 1)).mapError .fault
  | .text "text", none => .error (.unfit "scale")
  | _, _ => .ok ()

/-- Refuse a last frame that cannot be written. -/
def checkWriting (output : Output) (shown : Option Display) : Except Failure Unit :=
  (shown.elim (.ok ()) (Display.checkBlocks output)).mapError .fault

def Invocation.checkClosing (invocation : Invocation) (surroundings : Surroundings τ)
    (shown : Option Display) : Except Failure Unit := do
  invocation.checkDrawing surroundings.room
  checkWriting surroundings.output shown

def Invocation.plan (invocation : Invocation) (surroundings : Surroundings τ) (dialect : Dialect)
    (kind : DisplayKind) (bell : Bool) (rom : ByteArray) (events : List InputTrace.Event)
    (random : RandomSource) (interval : Option Float) : Plan τ :=
  let (machine, signals) := Machine.assemble dialect random (invocation.values .debug).holds
  let loaded := machine.loadRom rom.toList
  let idleLimit := (invocation.values .idleLimit).limit?
  let cycleLimit := (invocation.values .cycleLimit).limit?
  let console := openConsole surroundings events (invocation.values .scale) kind bell
  { world :=
      { scheduler :=
          { interval := interval
            idleLimit := idleLimit.getD firstCount
            cycleLimit := cycleLimit.getD firstCount }
        machine := loaded.state
        host := console.receiveAll (signals ++ loaded.signals) }
    idleLimitFits := idleLimit.isSome
    cycleLimitFits := cycleLimit.isSome
    stretchFits := kind = .absent || (stretch? (invocation.values .scale)).isSome }

variable {customs : Customs} {surroundings : Surroundings τ} {invocation : Invocation}

section

variable (given : invocation.values.Given customs) (surroundings)

include given

theorem prepare_eq :
    ∃ dialect kind bell, (kind = .text ↔ invocation.values .renderer = .text "text") ∧
      prepare surroundings invocation.settings = do
        let rom ← readFile surroundings invocation.filename
        let lines ← readTraceLines surroundings invocation.settings
        let events ← (InputTrace.parse lines).mapError .badTrace
        let random ← readRandom surroundings invocation.settings
        let machine := Machine.blank dialect random (invocation.values .debug).holds
        (machine.loadRom rom.toList).answer.mapError .fault
        let interval ← chooseInterval (invocation.values .speed)
        return invocation.plan surroundings dialect kind bell rom events random interval := by
  obtain ⟨dialect, dialect_eq⟩ := Invocation.readDialect_eq given
  obtain ⟨kind, kind_eq, drawn⟩ := Invocation.readDisplayKind_eq given
  obtain ⟨bell, bell_eq⟩ := invocation.readBell_eq
  have filename : invocation.settings.file "filename" = .ok invocation.filename := by
    simp only [Settings.file, Settings.file?, invocation.get_filename, bind, Except.bind]
    rfl
  have scale : invocation.settings.get "scale" = .ok (invocation.values .scale) :=
    invocation.get_longName .scale nofun
  have debug : invocation.settings.get "debug" = .ok (invocation.values .debug) :=
    invocation.get_longName .debug nofun
  have speed : invocation.settings.get "clock_speed" = .ok (invocation.values .speed) :=
    invocation.get_longName .speed nofun
  have idleLimit : invocation.settings.get "idle_limit" = .ok (invocation.values .idleLimit) :=
    invocation.get_longName .idleLimit nofun
  have cycleLimit : invocation.settings.get "max_cycles" = .ok (invocation.values .cycleLimit) :=
    invocation.get_longName .cycleLimit nofun
  refine ⟨dialect, kind, bell, drawn, ?_⟩
  simp only [prepare, dialect_eq, kind_eq, bell_eq, filename, scale, debug, speed, idleLimit,
    cycleLimit, bind, Except.bind]
  rfl

section

variable {kind : DisplayKind} (dialect : Dialect) (bell : Bool) (rom : ByteArray)
  (events : List InputTrace.Event) (random : RandomSource) (interval : Option Float)

theorem ready_plan (kind : DisplayKind) :
    (invocation.plan surroundings dialect kind bell rom events random interval).Ready
      surroundings.room surroundings.output
      ((chooseDisplay (invocation.values .scale) kind).map Display.stretch) where
  reachable := .operated (.loadRom rom.toList) (.assembled dialect random _)
  idleLimit := Invocation.limit?_isSome given (fun _ => rfl) rfl
  cycleLimit := Invocation.limit?_isSome given (fun _ => rfl) rfl
  equipped := by
    have effects (machine : Machine) :
        ∀ signal ∈ (machine.operate (.loadRom rom.toList)).signals, signal.isEffect = true :=
      Machine.isEffect_operate nofun
    exact equipped_opened surroundings events (invocation.values .scale) kind bell dialect random
      (invocation.values .debug).holds (effects _)

omit given in
theorem checkClosing_plan (drawn : kind = .text ↔ invocation.values .renderer = .text "text")
    (shown : Option Display) :
    checkClosing (invocation.plan surroundings dialect kind bell rom events random interval)
      surroundings.room surroundings.output
      ((chooseDisplay (invocation.values .scale) kind).map Display.stretch) shown =
        invocation.checkClosing surroundings shown := by
  have fits :
      (invocation.plan surroundings dialect kind bell rom events random interval).stretchFits =
        (kind = .absent || (stretch? (invocation.values .scale)).isSome) := rfl
  unfold checkClosing Invocation.checkClosing Invocation.checkDrawing
  rw [fits]
  cases kind with
  | absent =>
      have other : invocation.values .renderer ≠ .text "text" := fun text => nomatch drawn.mpr text
      change checkWriting surroundings.output shown = _
      split
      case h_1 renderer _ => exact absurd renderer other
      case h_2 renderer _ => exact absurd renderer other
      case h_3 => rfl
  | text =>
      rw [drawn.mp rfl]
      cases stretch : stretch? (invocation.values .scale) with
      | none => rfl
      | some scale =>
          simp only [chooseDisplay, stretch, Console.checkDisplay, Option.map_some, Option.elim_some]
          have kept : (Display.create (some scale).join).stretch = scale.getD 1 := rfl
          rw [kept]
          cases Display.checkStretch surroundings.room (scale.getD 1) with
          | error cause => rfl
          | ok _ => rfl

end

end

/-- The program of an invocation has been read, and its trace if it has one. -/
structure FilesRead (surroundings : Surroundings τ) (invocation : Invocation) (rom : ByteArray) :
    Prop where
  rom : surroundings.read invocation.filename = .ok rom
  trace : invocation.values .trace = .none ∨
    ∃ name bytes lines events, invocation.values .trace = .text name ∧
      surroundings.read name = .ok bytes ∧ Volume.textLines? bytes = some lines ∧
      InputTrace.parse lines = .ok events

/-- The session of an invocation gets as far as its run. -/
structure Starts (surroundings : Surroundings τ) (invocation : Invocation) (rom : ByteArray) :
    Prop where
  files : FilesRead surroundings invocation rom
  seed : invocation.values .seed ≠ .list []
  size : rom.toList.length ≤ programCapacity
  speed : ∃ interval, chooseInterval (invocation.values .speed) = .ok interval

section

variable (surroundings)

theorem readTraceLines_of_none (none : invocation.values .trace = .none) :
    readTraceLines surroundings invocation.settings = .ok [] := by
  unfold readTraceLines Settings.file?
  rw [invocation.get_trace, none]
  rfl

theorem readTraceLines_of_empty (empty : invocation.values .trace = .list []) :
    readTraceLines surroundings invocation.settings = .error (.unfit "trace") := by
  unfold readTraceLines Settings.file?
  rw [invocation.get_trace, empty]
  rfl

theorem readTraceLines_of_text {name : String} (named : invocation.values .trace = .text name) :
    readTraceLines surroundings invocation.settings = readLines surroundings name := by
  unfold readTraceLines Settings.file?
  rw [invocation.get_trace, named]
  rfl

theorem readRandom_of_empty (empty : invocation.values .seed = .list []) :
    readRandom surroundings invocation.settings = .error (.unfit "seed") := by
  unfold readRandom
  rw [invocation.get_seed, empty]
  rfl

theorem readRandom_of_seed (given : invocation.values.Given customs)
    (seeded : invocation.values .seed ≠ .list []) :
    ∃ random, readRandom surroundings invocation.settings = .ok random := by
  unfold readRandom
  rw [invocation.get_seed]
  rcases (given .seed).number fun _ => rfl with usual | empty | ⟨number, value⟩
  · rw [usual]
    exact ⟨_, rfl⟩
  · exact absurd empty seeded
  · rw [value]
    exact ⟨_, rfl⟩

end

theorem filesRead_of_lines (given : invocation.values.Given customs) {rom : ByteArray}
    {lines : List (List Char)} {events : List InputTrace.Event}
    (read : surroundings.read invocation.filename = .ok rom)
    (readLines : readTraceLines surroundings invocation.settings = .ok lines)
    (parsed : InputTrace.parse lines = .ok events) : FilesRead surroundings invocation rom := by
  refine ⟨read, ?_⟩
  rcases (given .trace).trace with none | empty | ⟨name, named⟩
  · exact .inl none
  · cases readLines.symm.trans (readTraceLines_of_empty surroundings empty)
  · rw [readTraceLines_of_text surroundings named] at readLines
    obtain ⟨bytes, found, rest⟩ := of_bind readLines
    split at rest
    case h_1 text =>
      cases rest
      exact .inr ⟨name, bytes, _, events, named, of_mapError found, text, parsed⟩
    case h_2 => cases rest

theorem FilesRead.lines {rom : ByteArray} (files : FilesRead surroundings invocation rom) :
    ∃ lines events, readTraceLines surroundings invocation.settings = .ok lines ∧
      InputTrace.parse lines = .ok events := by
  rcases files.trace with none | ⟨name, bytes, lines, events, named, found, text, parsed⟩
  · exact ⟨[], [], readTraceLines_of_none surroundings none, rfl⟩
  · refine ⟨lines, events, ?_, parsed⟩
    rw [readTraceLines_of_text surroundings named]
    simp only [readLines, readFile, found, text, mapError_ok, bind, Except.bind]
    rfl

section

variable {dialect : Dialect} {random : RandomSource} {live : Bool} {rom : List UInt8}

theorem answer_loadRom :
    ((Machine.blank dialect random live).loadRom rom).answer =
      if rom.length ≤ programCapacity then .ok ()
      else .error (.romTooLarge rom.length 0xe00 0x200) :=
  (Machine.loadRom_blank dialect random live rom).2.2

theorem size_of_loaded
    (loaded : ((Machine.blank dialect random live).loadRom rom).answer = .ok ()) :
    rom.length ≤ programCapacity := by
  rw [answer_loadRom] at loaded
  split at loaded
  case isTrue fits => exact fits
  case isFalse => cases loaded

end

theorem intervalOf_eq_error_iff {number : Int} {cause : Fault} :
    Scheduler.intervalOf (some number) = .error cause ↔
      0 < number ∧ (Binary64.ofInt number).isInf = true ∧ cause = .beyondFloat := by
  simp only [Scheduler.intervalOf, Option.getD_some]
  split
  case isTrue slow => exact iff_of_false nofun fun fast => absurd fast.1 (Int.not_lt.mpr slow)
  case isFalse fast =>
    have fast := Int.not_le.mp fast
    split
    case isTrue infinite =>
      constructor
      · intro refused
        cases refused
        exact ⟨fast, infinite, rfl⟩
      · rintro ⟨_, _, rfl⟩
        rfl
    case isFalse finite => exact iff_of_false nofun fun held => finite held.2.1

structure Played (surroundings : Surroundings τ) (invocation : Invocation) (ending : Ending τ) :
    Prop where
  starts : ∃ rom, Starts surroundings invocation rom
  written : ∀ c ∈ ending.printed.toList, surroundings.output.writes c = true
  shown : ∀ display, ending.shown = some display → invocation.values .renderer = .text "text" ∧
    ∀ scale, stretch? (invocation.values .scale) = some scale → display.stretch = scale.getD 1
  answer : ending.answer = .error .unfinished ∨ ∃ ran world, Ran ran ∧ ending.answer =
    (invocation.checkClosing surroundings ending.shown >>= fun _ => ran >>= fun _ => .ok world)

theorem stretch_of_shown {kind : DisplayKind} {display : Display}
    (drawn : kind = .text ↔ invocation.values .renderer = .text "text")
    (sized : Option.Rel Display.Sized
      ((chooseDisplay (invocation.values .scale) kind).map Display.stretch) (some display)) :
    invocation.values .renderer = .text "text" ∧
      ∀ scale, stretch? (invocation.values .scale) = some scale →
        display.stretch = scale.getD 1 := by
  cases kind with
  | absent => cases sized
  | text =>
      refine ⟨drawn.mp rfl, fun scale same => ?_⟩
      simp only [chooseDisplay, same] at sized
      cases sized with
      | some sized => exact sized.stretch_eq

theorem played_of_prepared (given : invocation.values.Given customs) {plan : Plan τ}
    (prepared : prepare surroundings invocation.settings = .ok plan) (passes : Nat) :
    Played surroundings invocation (Session.run surroundings invocation.settings passes) := by
  have ran : Session.run surroundings invocation.settings passes =
      play surroundings.clock plan passes := by
    simp only [Session.run, prepared]
  obtain ⟨dialect, kind, bell, drawn, same⟩ := prepare_eq surroundings given
  rw [same] at prepared
  obtain ⟨rom, read, prepared⟩ := of_bind prepared
  obtain ⟨lines, readLines, prepared⟩ := of_bind prepared
  obtain ⟨events, parsed, prepared⟩ := of_bind prepared
  obtain ⟨random, seeded, prepared⟩ := of_bind prepared
  obtain ⟨_, loaded, prepared⟩ := of_bind prepared
  obtain ⟨interval, timed, prepared⟩ := of_bind prepared
  cases prepared
  have files := filesRead_of_lines given (of_mapError read) readLines (of_mapError parsed)
  have seed : invocation.values .seed ≠ .list [] := fun empty =>
    nomatch seeded.symm.trans (readRandom_of_empty surroundings empty)
  have starts : Starts surroundings invocation rom :=
    ⟨files, seed, size_of_loaded (of_mapError loaded), interval, timed⟩
  rw [ran]
  have ready := ready_plan surroundings given dialect bell rom events random interval kind
  have ends := ends_of_play surroundings.clock ready passes
  exact {
    starts := ⟨rom, starts⟩
    written := ends.written
    shown := fun display shown => stretch_of_shown drawn (shown ▸ ends.shown)
    answer := by
      have answer := ends.answer
      rwa [checkClosing_plan surroundings dialect bell rom events random interval drawn] at answer }

theorem prepare_of_filesRead (given : invocation.values.Given customs) {rom : ByteArray}
    (files : FilesRead surroundings invocation rom) :
    ∃ (dialect : Dialect) (opened : RandomSource → Option Float → Plan τ),
      prepare surroundings invocation.settings = do
        let random ← readRandom surroundings invocation.settings
        let machine := Machine.blank dialect random (invocation.values .debug).holds
        (machine.loadRom rom.toList).answer.mapError .fault
        let interval ← chooseInterval (invocation.values .speed)
        return opened random interval := by
  obtain ⟨dialect, kind, bell, _, same⟩ := prepare_eq surroundings given
  obtain ⟨lines, events, readLines, parsed⟩ := files.lines
  refine ⟨dialect, invocation.plan surroundings dialect kind bell rom events, ?_⟩
  rw [same]
  simp only [readFile, files.rom, readLines, parsed, mapError_ok, bind, Except.bind]

theorem prepare_of_size (given : invocation.values.Given customs) {rom : ByteArray}
    (files : FilesRead surroundings invocation rom) (seed : invocation.values .seed ≠ .list [])
    (size : rom.toList.length ≤ programCapacity) :
    ∃ opened : Option Float → Plan τ,
      prepare surroundings invocation.settings =
        (chooseInterval (invocation.values .speed)).map opened := by
  obtain ⟨dialect, opened, same⟩ := prepare_of_filesRead given files
  obtain ⟨random, seeded⟩ := readRandom_of_seed surroundings given seed
  refine ⟨opened random, ?_⟩
  rw [same, seeded]
  simp only [answer_loadRom, if_pos size, mapError_ok, bind, Except.bind]
  cases chooseInterval (invocation.values .speed) with
  | error cause => rfl
  | ok interval => rfl

theorem prepare_of_starts (given : invocation.values.Given customs) {rom : ByteArray}
    (starts : Starts surroundings invocation rom) :
    ∃ plan, prepare surroundings invocation.settings = .ok plan := by
  obtain ⟨opened, same⟩ := prepare_of_size given starts.files starts.seed starts.size
  obtain ⟨interval, timed⟩ := starts.speed
  rw [timed] at same
  exact ⟨_, same⟩

end Chip8.CommandLine
