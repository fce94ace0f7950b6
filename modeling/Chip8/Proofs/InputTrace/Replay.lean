import Chip8.Scheduler.Replay
import Chip8.Scheduler.Request

/-!
# Replays

A replay is polled for one frame after another, in any order. Each poll takes
the longest run of events that are due from the front of those that are left,
cut behind the first request to quit. The frames of a trace do not decrease, so
as long as no request to quit is met, the largest frame that was polled tells
which events are left and which keys are down.
-/

set_option autoImplicit false

namespace Chip8

theorem Keypad.key?_val (key : Key) : key? (key.val : Nat) = .ok key := by
  have inRange : (0 : Int) ≤ (key.val : Nat) ∧ ((key.val : Nat) : Int) < 16 := by omega
  rw [key?, dif_pos inRange]
  rfl

theorem Keypad.set_val (keypad : Keypad) (key : Key) (pressed : Bool) :
    keypad.set (key.val : Nat) pressed = .ok (keypad.put key pressed) := by
  rw [set, key?_val]
  rfl

namespace InputTrace

def Event.change? (event : Event) : Option (Key × Bool) :=
  match event.action with
  | .key key pressed => some (key, pressed)
  | .quit => none

def changes (events : List Event) : List (Key × Bool) := events.filterMap Event.change?

structure Playback where
  keypad : Keypad
  events : List Event

namespace Playback

/-- Press the keys that are due at a frame by their numbers, and keep the events for later. The
answer says whether a request to quit was met. -/
def poll (playback : Playback) (frame : Int) : Except Fault (Playback × Bool) := do
  let due := due frame playback.events
  let keypad ← due.keys.foldlM
    (fun keypad change => Keypad.set keypad (change.1.val : Nat) change.2) playback.keypad
  return (⟨keypad, due.later⟩, due.quit)

def polls (playback : Playback) : List Int → Except Fault (Playback × List Bool)
  | [] => .ok (playback, [])
  | frame :: rest => do
      let (next, quit) ← playback.poll frame
      let (final, quits) ← next.polls rest
      return (final, quit :: quits)

end Playback

/-- The events taken for a frame are the longest run at the front that is due, cut behind the
first request to quit. -/
structure Takes (frame : Int) (events taken later : List Event) (quit : Bool) : Prop where
  split : events = taken ++ later
  due : ∀ event ∈ taken, event.frame ≤ frame
  quit_iff : quit = true ↔ ∃ event ∈ taken, event.action = .quit
  cut : ∀ event ∈ taken.dropLast, event.action ≠ .quit
  longest : quit = false → ∀ event ∈ later.head?, frame < event.frame

def InOrder (events : List Event) : Prop :=
  events.Pairwise fun earlier later => earlier.frame ≤ later.frame

theorem inOrder_parseFrom {lines : List (List Char)} {line last : Nat} {events : List Event}
    (parsed : parseFrom line last lines = .ok events) :
    (∀ event ∈ events, last ≤ event.frame) ∧ InOrder events := by
  induction lines generalizing line last events with
  | nil =>
      cases parsed
      exact ⟨List.forall_mem_nil _, .nil⟩
  | cons text rest ih =>
      simp only [parseFrom] at parsed
      split at parsed
      · cases parsed
      · exact ih parsed
      · split at parsed
        · cases parsed
        case isFalse frame action _ reached =>
          cases others : parseFrom (line + 1) frame.toNat rest with
          | error cause =>
              rw [others] at parsed
              cases parsed
          | ok later =>
              rw [others] at parsed
              cases parsed
              obtain ⟨behind, ordered⟩ := ih others
              have first : last ≤ frame.toNat := by omega
              constructor
              · intro event member
                rcases List.mem_cons.mp member with rfl | member
                · exact first
                · exact Nat.le_trans first (behind event member)
              · exact .cons behind ordered

theorem inOrder_parse {lines : List (List Char)} {events : List Event}
    (parsed : parse lines = .ok events) : InOrder events :=
  (inOrder_parseFrom parsed).2

theorem takes_due (frame : Int) (events : List Event) :
    ∃ taken, Takes frame events taken (due frame events).later (due frame events).quit ∧
      (due frame events).keys = changes taken := by
  induction events with
  | nil => exact ⟨[], ⟨rfl, nofun, by simp [due], nofun, nofun⟩, rfl⟩
  | cons event rest ih =>
      by_cases reached : event.frame ≤ frame
      · obtain ⟨number, action⟩ := event
        cases action with
        | quit =>
            simp only [due, if_pos reached]
            refine ⟨[⟨number, .quit⟩], ⟨rfl, ?_, by simp, nofun, nofun⟩, rfl⟩
            intro event member
            rw [List.mem_singleton.mp member]
            exact reached
        | key key pressed =>
            obtain ⟨taken, takes, keys⟩ := ih
            simp only [due, if_pos reached]
            refine ⟨⟨number, .key key pressed⟩ :: taken, ⟨?_, ?_, ?_, ?_, takes.longest⟩, ?_⟩
            · rw [List.cons_append, ← takes.split]
            · exact List.forall_mem_cons.mpr ⟨reached, takes.due⟩
            · simpa using takes.quit_iff
            · intro event member
              cases taken with
              | nil => cases member
              | cons second others =>
                  rcases List.mem_cons.mp member with rfl | member
                  · nofun
                  · exact takes.cut event member
            · rw [keys]
              rfl
      · simp only [due, if_neg reached]
        refine ⟨[], ⟨rfl, nofun, by simp, nofun, ?_⟩, rfl⟩
        intro _ next head
        cases head
        omega

theorem press_append (keypad : Keypad) (first second : List (Key × Bool)) :
    press keypad (first ++ second) = press (press keypad first) second :=
  List.foldl_append

theorem foldlM_set (keypad : Keypad) (keys : List (Key × Bool)) :
    keys.foldlM (fun keypad change => Keypad.set keypad (change.1.val : Nat) change.2) keypad =
      .ok (press keypad keys) := by
  induction keys generalizing keypad with
  | nil => rfl
  | cons change rest ih =>
      rw [List.foldlM_cons, Keypad.set_val]
      exact ih (keypad.put change.1 change.2)

namespace Playback

theorem poll_eq (playback : Playback) (frame : Int) :
    playback.poll frame = .ok
      (⟨press playback.keypad (due frame playback.events).keys, (due frame playback.events).later⟩,
        (due frame playback.events).quit) := by
  simp only [poll, foldlM_set]
  rfl

theorem poll_takes (playback : Playback) (frame : Int) :
    ∃ next quit taken, playback.poll frame = .ok (next, quit) ∧
      Takes frame playback.events taken next.events quit ∧
      next.keypad = press playback.keypad (changes taken) := by
  obtain ⟨taken, takes, keys⟩ := takes_due frame playback.events
  refine ⟨_, _, taken, playback.poll_eq frame, takes, ?_⟩
  rw [keys]

theorem polls_cons {playback next final : Playback} {frame : Int} {rest : List Int} {quit : Bool}
    {answers : List Bool} (first : playback.poll frame = .ok (next, quit))
    (others : next.polls rest = .ok (final, answers)) :
    playback.polls (frame :: rest) = .ok (final, quit :: answers) := by
  simp only [polls, first, bind, Except.bind, others]
  rfl

/-- Polls never fail. They use up the events from the front; without a request to quit, those
that are due at one of their frames. -/
theorem polls_uses (start : Playback) (frames : List Int) :
    ∃ final answers used, start.polls frames = .ok (final, answers) ∧
      start.events = used ++ final.events ∧
      final.keypad = press start.keypad (changes used) ∧
      (InOrder start.events → (∀ quit ∈ answers, quit = false) →
        (∀ event ∈ used, event.action ≠ .quit ∧ ∃ frame ∈ frames, event.frame ≤ frame) ∧
        ∀ event ∈ final.events, ∀ frame ∈ frames, frame < event.frame) := by
  induction frames generalizing start with
  | nil => exact ⟨start, [], [], rfl, rfl, rfl, fun _ _ => ⟨nofun, nofun⟩⟩
  | cons frame rest ih =>
      obtain ⟨next, quit, taken, first, takes, keys⟩ := start.poll_takes frame
      obtain ⟨final, answers, used, others, split, keypad, quiet⟩ := ih next
      have whole : start.events = taken ++ used ++ final.events := by
        rw [takes.split, split, List.append_assoc]
      refine ⟨final, quit :: answers, taken ++ used, polls_cons first others, whole, ?_, ?_⟩
      · rw [keypad, keys, changes, changes, changes, List.filterMap_append, press_append]
      · intro ordered none
        obtain ⟨went, later⟩ := List.forall_mem_cons.mp none
        have parts := List.pairwise_append.mp (takes.split ▸ ordered)
        obtain ⟨usedUp, left⟩ := quiet parts.2.1 later
        -- The next event is not due, and those behind it are no earlier.
        have behind : ∀ event ∈ next.events, frame < event.frame := by
          intro event member
          cases events : next.events with
          | nil =>
              rw [events] at member
              cases member
          | cons head tail =>
              have notDue : frame < head.frame :=
                takes.longest went head (by rw [events]; rfl)
              have sorted := parts.2.1
              rw [events] at member sorted
              rcases List.mem_cons.mp member with rfl | member
              · exact notDue
              · have above := List.rel_of_pairwise_cons sorted member
                omega
        constructor
        · intro event member
          rcases List.mem_append.mp member with now | afterwards
          · refine ⟨fun quits => ?_, frame, List.mem_cons_self, takes.due event now⟩
            have met := takes.quit_iff.mpr ⟨event, now, quits⟩
            rw [went] at met
            cases met
          · obtain ⟨presses, last, among, reached⟩ := usedUp event afterwards
            exact ⟨presses, last, List.mem_cons_of_mem _ among, reached⟩
        · intro event member asked among
          rcases List.mem_cons.mp among with rfl | among
          · refine behind event ?_
            rw [split]
            exact List.mem_append_right _ member
          · exact left event member asked among

/-- Polls meet no request to quit if none is due at any of their frames. -/
theorem polls_quiet {start final : Playback} {frames : List Int} {answers : List Bool}
    (played : start.polls frames = .ok (final, answers))
    (presses : ∀ event ∈ start.events, (∃ frame ∈ frames, event.frame ≤ frame) →
      event.action ≠ .quit) :
    ∀ quit ∈ answers, quit = false := by
  induction frames generalizing start answers with
  | nil =>
      cases played
      nofun
  | cons frame rest ih =>
      obtain ⟨next, quit, taken, first, takes, _⟩ := start.poll_takes frame
      obtain ⟨last, others, _, later, _⟩ := next.polls_uses rest
      rw [polls_cons first later] at played
      cases played
      refine List.forall_mem_cons.mpr ⟨?_, ih later ?_⟩
      · cases quit with
        | false => rfl
        | true =>
            obtain ⟨event, member, quits⟩ := takes.quit_iff.mp rfl
            have among : event ∈ start.events := by
              rw [takes.split]
              exact List.mem_append_left _ member
            exact absurd quits
              (presses event among ⟨frame, List.mem_cons_self, takes.due event member⟩)
      · intro event member reached
        obtain ⟨asked, among, reached⟩ := reached
        refine presses event ?_ ⟨asked, List.mem_cons_of_mem _ among, reached⟩
        rw [takes.split]
        exact List.mem_append_right _ member

end Playback

/-- The dialogue in which a host presses the keys that are due ends as the poll does. -/
theorem converse_replay {η : Type} (host : Host η) (run : Bool → World η → Turn η Nat)
    {frame : Nat} {events : η → List Event} (keep : List Event → η → η) {world : World η}
    {next : Playback} {quit : Bool}
    (polled : Playback.poll ⟨world.machine.keypad, events world.host⟩ frame = .ok (next, quit)) :
    world.converse host run (.replay frame events keep .leave) =
      ⟨{ world with
          machine := { world.machine with keypad := next.keypad }
          host := keep next.events world.host },
        .ok quit⟩ := by
  have pressed (keys : List (Key × Bool)) (quit : Bool) (world : World η) :
      world.converse host run (.press keys (.leave quit)) =
        ⟨{ world with
            machine := { world.machine with keypad := press world.machine.keypad keys } },
          .ok quit⟩ := by
    induction keys generalizing world with
    | nil => rfl
    | cons change rest ih =>
        have set : world.setKey (change.1.val : Nat) change.2 =
            World.done { world with
              machine := { world.machine with
                keypad := world.machine.keypad.put change.1 change.2 } } := by
          rw [World.setKey, Machine.setKey, Keypad.set_val]
          rfl
        simp only [Visit.press, List.foldr_cons, World.converse, World.perform, set, World.done]
        exact ih _
  rw [Playback.poll_eq] at polled
  cases polled
  exact pressed _ _ _

structure Replays (start : Playback) (frames : List Int) (final : Playback)
    (answers : List Bool) : Prop where
  polls : start.polls frames = .ok (final, answers)
  each : ∀ earlier frame later, frames = earlier ++ frame :: later →
    ∃ before said next quit taken, start.polls earlier = .ok (before, said) ∧
      before.poll frame = .ok (next, quit) ∧
      Takes frame before.events taken next.events quit ∧
      next.keypad = press before.keypad (changes taken)
  used : ∃ used, start.events = used ++ final.events ∧
    final.keypad = press start.keypad (changes used)

/-- What polls without a request to quit have left of a trace. -/
structure CaughtUp (start : Playback) (largest : Int) (final : Playback) : Prop where
  events : final.events = start.events.filter fun event => decide (largest < event.frame)
  keypad : final.keypad = press start.keypad
    (changes (start.events.filter fun event => decide (event.frame ≤ largest)))

theorem replays (start : Playback) (frames : List Int) :
    ∃ final answers, Replays start frames final answers := by
  obtain ⟨final, answers, used, polls, split, keypad, _⟩ := start.polls_uses frames
  refine ⟨final, answers, polls, ?_, used, split, keypad⟩
  intro earlier frame later _
  obtain ⟨before, said, _, played, _⟩ := start.polls_uses earlier
  obtain ⟨next, quit, taken, polled, takes, keys⟩ := before.poll_takes frame
  exact ⟨before, said, next, quit, taken, played, polled, takes, keys⟩

section

variable {start final : Playback} {frames : List Int} {answers : List Bool} {largest : Int}

theorem caughtUp_of_quiet (ordered : InOrder start.events)
    (played : start.polls frames = .ok (final, answers)) (quiet : ∀ quit ∈ answers, quit = false)
    (largest_eq : frames.max? = some largest) :
    CaughtUp start largest final ∧
      ∀ event ∈ start.events, event.frame ≤ largest → event.action ≠ .quit := by
  obtain ⟨last, said, used, polls, split, keypad, presses⟩ := start.polls_uses frames
  cases played.symm.trans polls
  obtain ⟨asked, above⟩ := List.max?_eq_some_iff.mp largest_eq
  obtain ⟨usedUp, left⟩ := presses ordered quiet
  have reached : ∀ event ∈ used, event.frame ≤ largest := by
    intro event member
    obtain ⟨_, frame, among, due⟩ := usedUp event member
    exact Int.le_trans due (above frame among)
  have later : ∀ event ∈ final.events, largest < event.frame :=
    fun event member => left event member largest asked
  refine ⟨⟨?_, ?_⟩, ?_⟩
  · have none : used.filter (fun event => decide (largest < event.frame)) = [] := by
      rw [List.filter_eq_nil_iff]
      intro event member
      have := reached event member
      simp only [decide_eq_true_eq]
      omega
    have all : final.events.filter (fun event => decide (largest < event.frame)) =
        final.events := by
      rw [List.filter_eq_self]
      intro event member
      exact decide_eq_true (later event member)
    rw [split, List.filter_append, none, all, List.nil_append]
  · have all : used.filter (fun event => decide (event.frame ≤ largest)) = used := by
      rw [List.filter_eq_self]
      intro event member
      exact decide_eq_true (reached event member)
    have none : final.events.filter (fun event => decide (event.frame ≤ largest)) = [] := by
      rw [List.filter_eq_nil_iff]
      intro event member
      have := later event member
      simp only [decide_eq_true_eq]
      omega
    rw [keypad, split, List.filter_append, all, none, List.append_nil]
  · intro event member due
    rw [split] at member
    rcases List.mem_append.mp member with now | afterwards
    · exact (usedUp event now).1
    · have := later event afterwards
      omega

/-- Whatever other frames are polled, if the largest is the same, so is what they leave. -/
theorem polls_of_largest (ordered : InOrder start.events)
    (played : start.polls frames = .ok (final, answers)) (quiet : ∀ quit ∈ answers, quit = false)
    (largest_eq : frames.max? = some largest) {others : List Int}
    (same : others.max? = some largest) :
    ∃ said, start.polls others = .ok (final, said) ∧ ∀ quit ∈ said, quit = false := by
  obtain ⟨caughtUp, presses⟩ := caughtUp_of_quiet ordered played quiet largest_eq
  obtain ⟨last, said, _, polls, _⟩ := start.polls_uses others
  have quietToo : ∀ quit ∈ said, quit = false := by
    refine Playback.polls_quiet polls fun event member reached => ?_
    obtain ⟨frame, among, due⟩ := reached
    have within := (List.max?_eq_some_iff.mp same).2 frame among
    exact presses event member (Int.le_trans due within)
  obtain ⟨likewise, _⟩ := caughtUp_of_quiet ordered polls quietToo same
  have equal : last = final := by
    obtain ⟨keypad, events⟩ := last
    rw [Playback.mk.injEq]
    exact ⟨likewise.keypad.trans caughtUp.keypad.symm, likewise.events.trans caughtUp.events.symm⟩
  rw [equal] at polls
  exact ⟨said, polls, quietToo⟩

end

/-- A replay follows its trace however it is polled, and so do the inputs of a host. -/
theorem replays_of_parse {lines : List (List Char)} {events : List Event}
    (parsed : parse lines = .ok events) (keypad : Keypad) (frames : List Int) :
    (∃ final answers, Replays ⟨keypad, events⟩ frames final answers ∧
      ∀ largest, frames.max? = some largest → (∀ quit ∈ answers, quit = false) →
        CaughtUp ⟨keypad, events⟩ largest final ∧
        ∀ others, others.max? = some largest → ∃ said,
          Playback.polls ⟨keypad, events⟩ others = .ok (final, said) ∧
          ∀ quit ∈ said, quit = false) ∧
    ∀ (η : Type) (host : Host η) (run : Bool → World η → Turn η Nat) (frame : Nat)
      (left : η → List Event) (keep : List Event → η → η) (world : World η),
      ∃ next quit,
        Playback.poll ⟨world.machine.keypad, left world.host⟩ frame = .ok (next, quit) ∧
        world.converse host run (.replay frame left keep .leave) =
          ⟨{ world with
              machine := { world.machine with keypad := next.keypad }
              host := keep next.events world.host },
            .ok quit⟩ := by
  constructor
  · obtain ⟨final, answers, law⟩ := replays ⟨keypad, events⟩ frames
    refine ⟨final, answers, law, ?_⟩
    intro largest largest_eq quiet
    have ordered : InOrder events := inOrder_parse parsed
    refine ⟨(caughtUp_of_quiet ordered law.polls quiet largest_eq).1, ?_⟩
    intro others same
    exact polls_of_largest ordered law.polls quiet largest_eq same
  · intro η host run frame left keep world
    obtain ⟨next, quit, _, polled, _⟩ :=
      Playback.poll_takes ⟨world.machine.keypad, left world.host⟩ frame
    exact ⟨next, quit, polled, converse_replay host run keep polled⟩

/-- A trace that asks to quit while other events of the same frame are due. -/
def encore : List (List Char) :=
  ["2 5 down".toList, "4 5 up # and".toList, "4 A down".toList, "4 quit".toList, [],
    "4 B down".toList, "9 A up".toList]

theorem replays_of_parse_encore :
    ∃ events final early, parse encore = .ok events ∧ events.length = 6 ∧
      Replays ⟨.released, events⟩ [7, 2, 5] final [true, false, false] ∧
      final.events = [⟨9, .key 10 false⟩] ∧ final.keypad.first? = some 10 ∧
      CaughtUp ⟨.released, events⟩ 3 early ∧ early.keypad.first? = some 5 ∧
      ∃ said, Playback.polls ⟨.released, events⟩ [0, 1, 2, 3] = .ok (early, said) ∧
        ∀ quit ∈ said, quit = false := by
  have parsed : parse encore = .ok [⟨2, .key 5 true⟩, ⟨4, .key 5 false⟩, ⟨4, .key 10 true⟩,
      ⟨4, .quit⟩, ⟨4, .key 11 true⟩, ⟨9, .key 10 false⟩] := rfl
  obtain ⟨⟨final, answers, law, _⟩, _⟩ := replays_of_parse parsed .released [7, 2, 5]
  obtain ⟨⟨early, said, skipped, quiet⟩, _⟩ := replays_of_parse parsed .released [3, -1]
  cases law.polls
  cases skipped.polls
  obtain ⟨caughtUp, same⟩ := quiet 3 rfl (by decide)
  exact ⟨_, _, _, parsed, rfl, law, rfl, rfl, caughtUp, rfl, same [0, 1, 2, 3] rfl⟩

end InputTrace

end Chip8
