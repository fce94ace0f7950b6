import Chip8.Proofs.CommandLine.Opening

/-!
# Exit codes

Accepted arguments come to an exit code or to a failure that is passed on. What a program does when
it runs is always reported, and so is a file that is missing, a directory, or no trace. A trace that
is no text is not, neither are a few values of options that the parser lets through, and neither is
a last frame that the host cannot draw or write.

All of this holds for every clock, so also for programs that run as fast as they can, for every
output, and whatever room there is for texts. A session that is over has one report, whatever the
bound on its passes.
-/

set_option autoImplicit false

namespace Chip8.CommandLine

open Session

variable {τ : Type} {customs : Customs} {surroundings : Surroundings τ} {invocation : Invocation}
  {shown : Option Display}

/-- The failures that are not reported, and what they come from. An option that the end of the
options was joined to may have an empty list for its value. The display shown is the one that the
run has left, and it depends on the program only whether a pixel of its frame is set. -/
inductive Escape (surroundings : Surroundings τ) (invocation : Invocation)
    (shown : Option Display) : Failure → Prop where
  | improperName : surroundings.read invocation.filename = .error .improper →
      Escape surroundings invocation shown (.unreadable (some invocation.filename) .improper)
  | unfitTrace {rom : ByteArray} : surroundings.read invocation.filename = .ok rom →
      invocation.values .trace = .list [] → Escape surroundings invocation shown (.unfit "trace")
  | improperTrace {rom : ByteArray} {name : String} :
      surroundings.read invocation.filename = .ok rom → invocation.values .trace = .text name →
      surroundings.read name = .error .improper →
      Escape surroundings invocation shown (.unreadable (some name) .improper)
  | notText {rom bytes : ByteArray} {name : String} :
      surroundings.read invocation.filename = .ok rom → invocation.values .trace = .text name →
      surroundings.read name = .ok bytes → String.fromUTF8? bytes = none →
      Escape surroundings invocation shown (.notText name)
  | unfitSeed {rom : ByteArray} : FilesRead surroundings invocation rom →
      invocation.values .seed = .list [] → Escape surroundings invocation shown (.unfit "seed")
  | unfitSpeed {rom : ByteArray} : FilesRead surroundings invocation rom →
      invocation.values .seed ≠ .list [] → rom.toList.length ≤ programCapacity →
      invocation.values .speed = .list [] →
      Escape surroundings invocation shown (.unfit "clock_speed")
  | infiniteSpeed {rom : ByteArray} {number : Int} : FilesRead surroundings invocation rom →
      invocation.values .seed ≠ .list [] → rom.toList.length ≤ programCapacity →
      invocation.values .speed = .number number → 0 < number →
      (Binary64.ofInt number).isInf = true →
      Escape surroundings invocation shown (.fault .beyondFloat)
  | unfitScale {rom : ByteArray} : Starts surroundings invocation rom →
      invocation.values .renderer = .text "text" → invocation.values .scale = .list [] →
      Escape surroundings invocation shown (.unfit "scale")
  | wideScale {rom : ByteArray} {scale : Option Int} {cause : Fault} :
      Starts surroundings invocation rom → invocation.values .renderer = .text "text" →
      stretch? (invocation.values .scale) = some scale →
      Display.checkStretch surroundings.room (scale.getD 1) = .error cause →
      Escape surroundings invocation shown (.fault cause)
  | unwritable {rom : ByteArray} {scale : Option Int} {display : Display} :
      Starts surroundings invocation rom → invocation.values .renderer = .text "text" →
      stretch? (invocation.values .scale) = some scale →
      Display.checkStretch surroundings.room (scale.getD 1) = .ok () → 0 < scale.getD 1 →
      shown = some display → (∃ row ∈ display.frame, ∃ value ∈ row, value ≠ 0) →
      surroundings.output.writes '█' = false →
      Escape surroundings invocation shown (.fault .unwritable)

/-- How the exit code and the complaint of a report follow from how a session that is over has
ended. -/
structure ExitLaw (customs : Customs) (surroundings : Surroundings τ) (invocation : Invocation)
    (ending : Session.Ending τ) (report : Report) : Prop where
  zero : report.exit = .ok 0 ↔ ∃ world, ending.answer = .ok world
  one : report.exit = .ok 1 ↔ ∃ cause, ending.answer = .error cause ∧
    ¬Escape surroundings invocation ending.shown cause
  code : ∀ code, report.exit = .ok code → code = 0 ∨ code = 1
  escape : ∀ cause, report.exit = .error cause ↔
    Escape surroundings invocation ending.shown cause
  fits : customs.dropsSeparator = false → ∀ name, report.exit ≠ .error (.unfit name)
  complaint : report.exit = .ok 1 → ∃ cause message, ending.answer = .error cause ∧
    cause.message? = some message ∧ report.complaint = message ++ "\n"
  silent : report.exit ≠ .ok 1 → report.complaint = ""
  printed : report.printed = ending.printed
  written : ∀ c ∈ report.printed.toList, surroundings.output.writes c = true

theorem message_of_isReported {cause : Failure} (reported : isReported cause = true) :
    ∃ message, cause.message? = some message := by
  cases cause with
  | unknownDisplay | badTrace => exact ⟨_, rfl⟩
  | unreadable name cause =>
      cases cause with
      | improper => cases reported
      | _ => exact ⟨_, rfl⟩
  | fault cause =>
      cases cause with
      | addressOutOfRange | romTooLarge | stackOverflow | stackUnderflow | invalidOpcode
      | unknownDialect => exact ⟨_, rfl⟩
      | _ => cases reported
  | missing | unfit | notText | unfinished => cases reported

theorem isReported_of_raises {cause : Fault} (raises : Machine.Raises cause) :
    isReported (.fault cause) = true := by
  obtain ⟨machine, reachable, failed⟩ := raises
  rcases reachable.wellFormed.cycleLaw.cause cause failed with ⟨_, rfl, _⟩ | rfl | rfl
  · rfl
  · rfl
  · rfl

theorem isReported_of_refused {dialect : Dialect} {random : RandomSource} {live : Bool}
    {rom : List UInt8} {cause : Fault}
    (refused : ((Machine.blank dialect random live).loadRom rom).answer = .error cause) :
    isReported (.fault cause) = true := by
  rw [answer_loadRom] at refused
  split at refused
  · cases refused
  · cases refused
    rfl

theorem not_isReported_of_escape {cause : Failure}
    (escape : Escape surroundings invocation shown cause) : isReported cause = false := by
  cases escape with
  | wideScale _ _ _ wide =>
      rcases Display.cause_of_checkStretch wide with ⟨count, rfl | rfl⟩
      · rfl
      · rfl
  | _ => rfl

theorem isReported_or_improper (name : Option String) (cause : ReadError) :
    isReported (.unreadable name cause) = true ∨ cause = .improper := by
  cases cause with
  | improper => exact .inr rfl
  | _ => exact .inl rfl

theorem failure_of_traceLines (given : invocation.values.Given customs) {rom : ByteArray}
    {cause : Failure}
    (read : surroundings.read invocation.filename = .ok rom)
    (failed : readTraceLines surroundings invocation.settings = .error cause) :
    isReported cause = true ∨ Escape surroundings invocation shown cause := by
  rcases (given .trace).trace with none | empty | ⟨name, named⟩
  · cases failed.symm.trans (readTraceLines_of_none surroundings none)
  · cases failed.symm.trans (readTraceLines_of_empty surroundings empty)
    exact .inr (.unfitTrace read empty)
  · rw [readTraceLines_of_text surroundings named] at failed
    rcases failure_of_bind failed with failed | ⟨bytes, found, failed⟩
    · obtain ⟨unread, missing, rfl⟩ := failure_of_mapError failed
      refine (isReported_or_improper _ unread).imp_right ?_
      rintro rfl
      exact .improperTrace read named missing
    · split at failed
      · cases failed
      case h_2 noText =>
        cases failed
        exact .inr (.notText read named (of_mapError found) (Option.map_eq_none_iff.mp noText))

theorem failure_of_speed (given : invocation.values.Given customs) {cause : Failure}
    (failed : chooseInterval (invocation.values .speed) = .error cause) :
    (invocation.values .speed = .list [] ∧ cause = .unfit "clock_speed") ∨
      ∃ number, invocation.values .speed = .number number ∧ 0 < number ∧
        (Binary64.ofInt number).isInf = true ∧ cause = .fault .beyondFloat := by
  rcases (given .speed).number fun _ => rfl with usual | empty | ⟨number, value⟩
  · have timed : (chooseInterval Switch.speed.usual).isOk = true := by decide +kernel
    rw [usual] at failed
    rw [failed] at timed
    cases timed
  · rw [empty] at failed
    cases failed
    exact .inl ⟨empty, rfl⟩
  · rw [value] at failed
    obtain ⟨fault, refused, rfl⟩ := failure_of_mapError failed
    obtain ⟨fast, infinite, rfl⟩ := intervalOf_eq_error_iff.mp refused
    exact .inr ⟨number, value, fast, infinite, rfl⟩

theorem failure_of_prepare (given : invocation.values.Given customs) {cause : Failure}
    (failed : prepare surroundings invocation.settings = .error cause) :
    isReported cause = true ∨ Escape surroundings invocation shown cause := by
  obtain ⟨dialect, kind, bell, drawn, same⟩ := prepare_eq surroundings given
  rw [same] at failed
  -- A stage fails only behind those that went well, which is what an escape from it says.
  rcases failure_of_bind failed with failed | ⟨rom, read, failed⟩
  · obtain ⟨unread, missing, rfl⟩ := failure_of_mapError failed
    refine (isReported_or_improper _ unread).imp_right ?_
    rintro rfl
    exact .improperName missing
  have read := of_mapError read
  rcases failure_of_bind failed with failed | ⟨lines, readLines, failed⟩
  · exact failure_of_traceLines given read failed
  rcases failure_of_bind failed with failed | ⟨events, parsed, failed⟩
  · obtain ⟨malformed, _, rfl⟩ := failure_of_mapError failed
    exact .inl rfl
  have files := filesRead_of_lines given read readLines (of_mapError parsed)
  rcases failure_of_bind failed with failed | ⟨random, seeded, failed⟩
  · by_cases empty : invocation.values .seed = .list []
    · cases failed.symm.trans (readRandom_of_empty surroundings empty)
      exact .inr (.unfitSeed files empty)
    · obtain ⟨random, seeded⟩ := readRandom_of_seed surroundings given empty
      cases failed.symm.trans seeded
  have seed : invocation.values .seed ≠ .list [] := fun empty =>
    nomatch seeded.symm.trans (readRandom_of_empty surroundings empty)
  rcases failure_of_bind failed with failed | ⟨_, loaded, failed⟩
  · obtain ⟨fault, refused, rfl⟩ := failure_of_mapError failed
    exact .inl (isReported_of_refused refused)
  have size := size_of_loaded (of_mapError loaded)
  rcases failure_of_bind failed with failed | ⟨interval, _, failed⟩
  · rcases failure_of_speed given failed with ⟨empty, rfl⟩ | ⟨number, value, fast, infinite, rfl⟩
    · exact .inr (.unfitSpeed files seed size empty)
    · exact .inr (.infiniteSpeed files seed size value fast infinite)
  cases failed

theorem answer_of_failed {cause : Failure}
    (failed : prepare surroundings invocation.settings = .error cause) (passes : Nat) :
    (Session.run surroundings invocation.settings passes).answer = .error cause := by
  simp only [Session.run, failed]

/-- An option without a value of a right kind escapes only where the end of the options is
dropped. -/
theorem dropsSeparator_of_escape (given : invocation.values.Given customs) {name : String}
    (escape : Escape surroundings invocation shown (.unfit name)) :
    customs.dropsSeparator = true := by
  cases escape with
  | unfitTrace _ empty => exact (given .trace).dropsSeparator empty
  | unfitSeed _ empty => exact (given .seed).dropsSeparator empty
  | unfitSpeed _ _ _ empty => exact (given .speed).dropsSeparator empty
  | unfitScale _ _ empty => exact (given .scale).dropsSeparator empty

theorem unwritable_of_checkWriting {cause : Failure}
    (unwritten : checkWriting surroundings.output shown = .error cause) :
    ∃ display, shown = some display ∧ 0 < display.stretch ∧ display.lit = true ∧
      surroundings.output.writes '█' = false ∧ cause = .fault .unwritable := by
  obtain ⟨fault, refused, rfl⟩ := failure_of_mapError unwritten
  cases shown with
  | none => cases refused
  | some display =>
      simp only [Option.elim_some, Display.checkBlocks] at refused
      split at refused
      case isTrue blocked =>
        cases refused
        exact ⟨display, rfl, blocked.1, blocked.2.1, blocked.2.2, rfl⟩
      case isFalse => cases refused

section

variable {ending : Session.Ending τ} (played : Played surroundings invocation ending)

include played

theorem answer_of_unclosed {cause : Failure} (complete : ending.answer ≠ .error .unfinished)
    (unclosed : invocation.checkClosing surroundings ending.shown = .error cause) :
    ending.answer = .error cause := by
  obtain ⟨_, _, _, answer⟩ := played.answer.resolve_left complete
  rw [answer, unclosed]
  rfl

theorem escape_of_unclosed (given : invocation.values.Given customs) {cause : Failure}
    (unclosed : invocation.checkClosing surroundings ending.shown = .error cause) :
    Escape surroundings invocation ending.shown cause := by
  obtain ⟨rom, starts⟩ := played.starts
  rcases failure_of_bind unclosed with undrawn | ⟨_, drawn, unwritten⟩
  · unfold Invocation.checkDrawing at undrawn
    split at undrawn
    case h_1 text scale =>
      obtain ⟨fault, wide, rfl⟩ := failure_of_mapError undrawn
      exact .wideScale starts text scale wide
    case h_2 text scale =>
      cases undrawn
      rcases (given .scale).number fun _ => rfl with usual | empty | ⟨number, value⟩
      · rw [usual] at scale
        cases scale
      · exact .unfitScale starts text empty
      · rw [value] at scale
        cases scale
    case h_3 => cases undrawn
  · obtain ⟨display, shown, positive, lit, blocked, rfl⟩ := unwritable_of_checkWriting unwritten
    obtain ⟨text, stretch⟩ := played.shown display shown
    unfold Invocation.checkDrawing at drawn
    rw [text] at drawn
    cases scale : stretch? (invocation.values .scale) with
    | none =>
        rw [scale] at drawn
        cases drawn
    | some scaled =>
        rw [scale] at drawn
        have drawable : Display.checkStretch surroundings.room (scaled.getD 1) = .ok () :=
          of_mapError drawn
        rw [stretch scaled scale] at positive
        exact .unwritable starts text scale drawable positive shown
          (Display.lit_eq_true_iff.mp lit) blocked

end

theorem answer_of_starts (given : invocation.values.Given customs) {rom : ByteArray}
    (starts : Starts surroundings invocation rom) (passes : Nat) :
    Played surroundings invocation (Session.run surroundings invocation.settings passes) := by
  obtain ⟨plan, prepared⟩ := prepare_of_starts given starts
  exact played_of_prepared given prepared passes

/-- A failure that is not reported is what a session that is over has ended with. -/
theorem answer_of_escape (given : invocation.values.Given customs) {passes : Nat}
    (complete : (Session.run surroundings invocation.settings passes).answer ≠ .error .unfinished)
    {cause : Failure} (escape : Escape surroundings invocation
      (Session.run surroundings invocation.settings passes).shown cause) :
    (Session.run surroundings invocation.settings passes).answer = .error cause := by
  obtain ⟨dialect, kind, bell, _, same⟩ := prepare_eq surroundings given
  cases escape with
  | improperName unread =>
      refine answer_of_failed ?_ passes
      rw [same, readFile, unread]
      rfl
  | unfitTrace read empty =>
      refine answer_of_failed ?_ passes
      rw [same, readFile, read, readTraceLines_of_empty surroundings empty]
      rfl
  | improperTrace read named unread =>
      refine answer_of_failed ?_ passes
      rw [same, readFile, read, readTraceLines_of_text surroundings named, readLines, readFile,
        unread]
      rfl
  | @notText rom bytes name read named found noText =>
      have lines : Volume.textLines? bytes = none := Option.map_eq_none_iff.mpr noText
      have unread : readLines surroundings name = .error (.notText name) := by
        simp only [readLines, readFile, found, mapError_ok, bind, Except.bind, lines]
        rfl
      refine answer_of_failed ?_ passes
      rw [same, readFile, read, readTraceLines_of_text surroundings named, unread]
      rfl
  | unfitSeed files empty =>
      obtain ⟨_, _, same⟩ := prepare_of_filesRead given files
      refine answer_of_failed ?_ passes
      rw [same, readRandom_of_empty surroundings empty]
      rfl
  | unfitSpeed files seed size empty =>
      obtain ⟨_, same⟩ := prepare_of_size given files seed size
      refine answer_of_failed ?_ passes
      rw [same, empty]
      rfl
  | infiniteSpeed files seed size value fast infinite =>
      obtain ⟨_, same⟩ := prepare_of_size given files seed size
      have refused := intervalOf_eq_error_iff.mpr ⟨fast, infinite, rfl⟩
      refine answer_of_failed ?_ passes
      rw [same, value]
      simp only [chooseInterval, Setting.number?, refused]
      rfl
  | unfitScale starts text empty =>
      refine answer_of_unclosed (answer_of_starts given starts passes) complete ?_
      simp only [Invocation.checkClosing, Invocation.checkDrawing, text, empty]
      rfl
  | wideScale starts text scale wide =>
      refine answer_of_unclosed (answer_of_starts given starts passes) complete ?_
      simp only [Invocation.checkClosing, Invocation.checkDrawing, text, scale, wide]
      rfl
  | unwritable starts text scale drawable positive shown lit blocked =>
      have played := answer_of_starts given starts passes
      have stretch := (played.shown _ shown).2 _ scale
      refine answer_of_unclosed played complete ?_
      rw [← stretch] at positive
      simp only [Invocation.checkClosing, Invocation.checkDrawing, text, scale, drawable,
        checkWriting, shown, Option.elim_some, Display.checkBlocks,
        if_pos (And.intro positive (And.intro (Display.lit_eq_true_iff.mpr lit) blocked))]
      rfl

theorem failure_of_run (given : invocation.values.Given customs) {passes : Nat} {cause : Failure}
    (failed : (Session.run surroundings invocation.settings passes).answer = .error cause)
    (complete : cause ≠ .unfinished) :
    isReported cause = true ∨ Escape surroundings invocation
      (Session.run surroundings invocation.settings passes).shown cause := by
  cases prepared : prepare surroundings invocation.settings with
  | error first =>
      cases failed.symm.trans (answer_of_failed prepared passes)
      exact failure_of_prepare given prepared
  | ok plan =>
      have played := played_of_prepared given prepared passes
      rcases played.answer with unfinished | ⟨ran, world, isRan, answer⟩
      · exact absurd (Except.error.inj (failed.symm.trans unfinished)) complete
      rw [answer] at failed
      rcases failure_of_bind failed with unclosed | ⟨_, _, failed⟩
      · exact .inr (escape_of_unclosed played given unclosed)
      · cases isRan with
        | ended => cases failed
        | raised raises =>
            cases failed
            exact .inl (isReported_of_raises raises)

theorem written_of_run (given : invocation.values.Given customs) (passes : Nat) :
    ∀ c ∈ (Session.run surroundings invocation.settings passes).printed.toList,
      surroundings.output.writes c = true := by
  cases prepared : prepare surroundings invocation.settings with
  | error first =>
      simp only [Session.run, prepared]
      exact fun c member => surroundings.output.ascii c (isAscii_greeting c member)
  | ok plan => exact (played_of_prepared given prepared passes).written

theorem run_of_more {passes more : Nat} (le : passes ≤ more) {settings : Settings}
    (complete : (Session.run surroundings settings passes).answer ≠ .error .unfinished) :
    Session.run surroundings settings more = Session.run surroundings settings passes := by
  unfold Session.run at complete ⊢
  split
  case h_1 => rfl
  case h_2 plan prepared =>
    rw [prepared] at complete
    exact play_of_more le complete

section

variable {ending : Session.Ending τ} {cause : Failure}
  (written : ∀ c ∈ ending.printed.toList, surroundings.output.writes c = true)
  (escapes : ∀ cause, Escape surroundings invocation ending.shown cause →
    ending.answer = .error cause)

include written escapes

theorem exitLaw_of_ok {world : World (Console τ)} (ended : ending.answer = .ok world) :
    ExitLaw customs surroundings invocation ending (report ending) := by
  have none (other : Failure) : ¬Escape surroundings invocation ending.shown other := fun escape =>
    nomatch ended.symm.trans (escapes other escape)
  simp only [report, ended]
  exact {
    zero := iff_of_true rfl ⟨world, ended⟩
    one := iff_of_false nofun fun ⟨_, failed, _⟩ => nomatch ended.symm.trans failed
    code := fun _ same => .inl (Except.ok.inj same).symm
    escape := fun other => iff_of_false nofun (none other)
    fits := fun _ _ => nofun
    complaint := nofun
    silent := fun _ => rfl
    printed := rfl
    written := written }

theorem exitLaw_of_reported (failed : ending.answer = .error cause)
    (reported : isReported cause = true) :
    ExitLaw customs surroundings invocation ending (report ending) := by
  have none (other : Failure) : ¬Escape surroundings invocation ending.shown other := by
    intro escape
    cases failed.symm.trans (escapes other escape)
    cases reported.symm.trans (not_isReported_of_escape escape)
  obtain ⟨message, wording⟩ := message_of_isReported reported
  simp only [report, failed, if_pos reported]
  exact {
    zero := iff_of_false nofun fun ⟨_, ended⟩ => nomatch failed.symm.trans ended
    one := iff_of_true rfl ⟨cause, failed, none cause⟩
    code := fun _ same => .inr (Except.ok.inj same).symm
    escape := fun other => iff_of_false nofun (none other)
    fits := fun _ _ => nofun
    complaint := fun _ => ⟨cause, message, failed, wording, by rw [wording, Option.getD_some]⟩
    silent := fun other => absurd rfl other
    printed := rfl
    written := written }

theorem exitLaw_of_escape (given : invocation.values.Given customs)
    (failed : ending.answer = .error cause)
    (escape : Escape surroundings invocation ending.shown cause) :
    ExitLaw customs surroundings invocation ending (report ending) := by
  have passed := not_isReported_of_escape escape
  have same {other : Failure} (also : ending.answer = .error other) : other = cause :=
    Except.error.inj (also.symm.trans failed)
  simp only [report, failed, passed, Bool.false_eq_true, if_false]
  exact {
    zero := iff_of_false nofun fun ⟨_, ended⟩ => nomatch failed.symm.trans ended
    one := by
      refine iff_of_false nofun ?_
      rintro ⟨other, also, kept⟩
      rw [same also] at kept
      exact kept escape
    code := nofun
    escape := by
      intro other
      constructor
      · intro exits
        cases exits
        exact escape
      · intro also
        rw [same (escapes other also)]
    fits := by
      intro keeps name exits
      cases exits
      cases keeps.symm.trans (dropsSeparator_of_escape given escape)
    complaint := nofun
    silent := fun _ => rfl
    printed := rfl
    written := written }

end

theorem exit_eq_unfinished_iff {ending : Session.Ending τ} :
    (report ending).exit = .error .unfinished ↔ ending.answer = .error .unfinished := by
  unfold report
  split
  case h_1 world ended =>
    rw [ended]
    exact iff_of_false nofun nofun
  case h_2 cause failed =>
    rw [failed]
    split
    case isTrue reported =>
      refine iff_of_false nofun fun same => ?_
      cases same
      cases reported
    case isFalse =>
      constructor
      · intro same
        cases same
        rfl
      · intro same
        cases same
        rfl

/-- Whatever the files are and whatever the program does, accepted arguments come to exit code 0 or
to a complaint and exit code 1, but for the failures that are passed on, and these come about in the
listed cases alone. A session that is over is reported in one way, however high the bound on its
passes. -/
theorem exit_of_accepted {arguments : List String}
    (accepted : parse customs arguments = .ok invocation) (surroundings : Surroundings τ)
    (passes : Nat) :
    let ending := Session.run surroundings invocation.settings passes
    ∃ report, run customs surroundings arguments passes = .ok report ∧
      (report.exit = .error .unfinished ↔ ending.answer = .error .unfinished) ∧
      (ending.answer ≠ .error .unfinished →
        (∀ more, passes ≤ more → run customs surroundings arguments more = .ok report) ∧
        ExitLaw customs surroundings invocation ending report) := by
  intro ending
  have given := given_of_parse accepted
  have written : ∀ c ∈ ending.printed.toList, surroundings.output.writes c = true :=
    written_of_run given passes
  have runs (passes : Nat) : run customs surroundings arguments passes =
      .ok (report (Session.run surroundings invocation.settings passes)) := by
    rw [run, accepted]
    rfl
  refine ⟨report ending, runs passes, exit_eq_unfinished_iff, fun complete => ⟨?_, ?_⟩⟩
  · intro more le
    rw [runs, run_of_more le complete]
  · have escapes (cause : Failure) (escape : Escape surroundings invocation ending.shown cause) :=
      answer_of_escape given complete escape
    cases answer : ending.answer with
    | ok world => exact exitLaw_of_ok written escapes answer
    | error cause =>
        have finished : cause ≠ .unfinished := by
          rintro rfl
          exact complete answer
        rcases failure_of_run given answer finished with reported | escape
        · exact exitLaw_of_reported written escapes answer reported
        · exact exitLaw_of_escape written escapes given answer escape

/-- A program that jumps to itself, and a file that is no text. The output writes nothing but
ASCII. -/
def desk : Surroundings Float where
  read := Volume.read { entries := [("a.ch8", some ⟨#[0x12, 0x00]⟩), ("t", some ⟨#[0xff]⟩)] }
  random := .scripted [] 0
  clock := .still
  start := 0.0
  output := { writes := fun c => c.toNat < 128, ascii := fun _ ascii => decide_eq_true ascii }
  room := .ample

def lost : Invocation := { filename := "b.ch8", values := Switch.usual }

def traced : Invocation where
  filename := "a.ch8"
  values := Values.set (Values.set Switch.usual .trace (.text "t")) .cycleLimit (.number 1)

theorem exit_of_accepted_desk :
    (∃ report, run .current desk ["b.ch8"] 4 = .ok report ∧ report.exit = .ok 1) ∧
    ∃ report, run .current desk ["a.ch8", "-t", "t", "--max_cycles", "1"] 4 = .ok report ∧
      report.exit = .error (.notText "t") := by
  have named : parse .current ["b.ch8"] = .ok lost := rfl
  have accepted : parse .current ["a.ch8", "-t", "t", "--max_cycles", "1"] = .ok traced := rfl
  have missing : (Session.run desk lost.settings 4).answer =
      .error (.unreadable (some "b.ch8") .notFound) := rfl
  have untextual : (Session.run desk traced.settings 4).answer = .error (.notText "t") := rfl
  obtain ⟨first, ran, -, complete⟩ := exit_of_accepted named desk 4
  obtain ⟨second, ran', -, complete'⟩ := exit_of_accepted accepted desk 4
  obtain ⟨-, law⟩ := complete (by rw [missing]; nofun)
  obtain ⟨-, law'⟩ := complete' (by rw [untextual]; nofun)
  have program : desk.read "a.ch8" = .ok ⟨#[0x12, 0x00]⟩ := rfl
  have trace : desk.read "t" = .ok ⟨#[0xff]⟩ := rfl
  have noText : String.fromUTF8? ⟨#[0xff]⟩ = none := rfl
  exact ⟨⟨first, ran, law.one.mpr ⟨_, missing, nofun⟩⟩,
    second, ran', (law'.escape _).mpr (.notText program rfl trace noText)⟩

/-- A trace that is no text is not reported. -/
theorem exit_of_untextual_trace :
    ∃ report, run .current desk ["a.ch8", "-t", "t", "--max_cycles", "1"] 4 = .ok report ∧
      report.exit = .error (.notText "t") ∧ report.complaint = "" :=
  ⟨_, rfl, rfl, rfl⟩

end Chip8.CommandLine
