import Chip8.CommandLine.Run
import Chip8.Proofs.Results

/-!
# Values of accepted arguments

Accepted arguments leave each option with a value that a text can be for it, with its usual value,
or with an empty list where the end of the options was joined to it and dropped. Every setting of a
session is given then, and most of them cannot be at fault.
-/

set_option autoImplicit false

namespace Chip8.CommandLine

/-- The values that an option can have behind accepted arguments. -/
inductive Switch.Given (customs : Customs) (switch : Switch) : Setting → Prop where
  | usual : Given customs switch switch.usual
  | read {text : List Char} {value : Setting} :
      switch.read text = .ok value → Given customs switch value
  | empty : customs.dropsSeparator = true → Given customs switch (.list [])

def Values.Given (customs : Customs) (values : Values) : Prop :=
  ∀ switch : Switch, switch.Given customs (values switch)

variable {customs : Customs}

theorem Values.Given.set {values : Values} (given : values.Given customs) {switch : Switch}
    {value : Setting} (fits : switch.Given customs value) :
    (values.set switch value).Given customs := by
  intro other
  unfold Values.set
  split
  case isTrue same =>
    rw [same]
    exact fits
  case isFalse => exact given other

namespace Draft

variable {draft next : Draft} (given : draft.values.Given customs)

include given

theorem given_apply {switch : Switch} {text : List Char}
    (applied : draft.apply customs switch text = .ok next) : next.values.Given customs := by
  unfold apply at applied
  dsimp only at applied
  split at applied
  case isTrue dropped =>
    cases applied
    exact given.set (.empty (Bool.and_eq_true_iff.mp dropped).1)
  case isFalse =>
    obtain ⟨value, read, rest⟩ := of_bind applied
    cases rest
    exact given.set (.read read)

theorem given_addSwitches {joined : Joined} {text : List Char}
    (added : draft.addSwitches customs joined text = .ok next) : next.values.Given customs := by
  obtain ⟨front, folded, rest⟩ := of_bind added
  obtain ⟨last, applied, rest⟩ := of_bind rest
  cases rest
  have before : front.values.Given customs :=
    of_foldlM folded (fun draft => draft.values.Given customs) given
      fun _ _ _ _ held applied => given_apply held applied
  have after := given_apply before applied
  exact after

theorem given_addJoined {joined : Joined} (added : draft.addJoined customs joined = .ok next) :
    next.values.Given customs := by
  unfold addJoined at added
  split at added
  · exact given_addSwitches given added
  · split at added
    · cases added
      exact given
    · exact given_addSwitches given added

theorem given_add {argument : Argument} (added : draft.add customs argument = .ok next) :
    next.values.Given customs := by
  unfold add at added
  split at added
  · exact given_addSwitches given added
  · cases added
  · cases added
    unfold addValue
    split
    · exact given
    · exact given
  · cases added
    unfold addSeparator
    split
    · exact given
    · exact given
  · cases added
    exact given
  · obtain ⟨joined, _, rest⟩ := of_bind added
    exact given_addJoined given rest
  · obtain ⟨joined, _, rest⟩ := of_bind added
    exact given_addJoined given rest

end Draft

theorem given_of_parse {arguments : List String} {invocation : Invocation}
    (accepted : parse customs arguments = .ok invocation) : invocation.values.Given customs := by
  obtain ⟨read, _, rest⟩ := of_bind accepted
  obtain ⟨draft, folded, finished⟩ := of_bind rest
  have start : Values.Given customs Switch.usual := fun _ => .usual
  have given : draft.values.Given customs :=
    of_foldlM folded (fun draft => draft.values.Given customs) start
      fun _ _ _ _ held added => Draft.given_add held added
  unfold Draft.finish at finished
  split at finished
  · cases finished
    exact given
  · cases finished

theorem Switch.read_ne_list (switch : Switch) (text : List Char) (items : List Setting) :
    switch.read text ≠ .ok (.list items) := by
  intro same
  cases switch with
  | help | debug | trace => cases same
  | family | renderer =>
      simp only [read, readName] at same
      split at same
      · cases same
      · cases same
  | mute | trait =>
      simp only [read, readBit] at same
      split at same
      · split at same
        · cases same
        · cases same
      · cases same
  | speed | scale | idleLimit | cycleLimit | seed =>
      simp only [read, readNumber] at same
      split at same
      · cases same
      · cases same

theorem Switch.usual_ne_list (switch : Switch) (items : List Setting) :
    switch.usual ≠ .list items := by
  cases switch with
  | _ => nofun

namespace Switch.Given

variable {switch : Switch} {value : Setting}

theorem number (given : switch.Given customs value)
    (reads : ∀ text, switch.read text = readNumber text) :
    value = switch.usual ∨ value = .list [] ∨ ∃ number, value = .number number := by
  cases given with
  | usual => exact .inl rfl
  | empty _ => exact .inr (.inl rfl)
  | @read text _ read =>
      rw [reads, readNumber] at read
      split at read
      · cases read
        exact .inr (.inr ⟨_, rfl⟩)
      · cases read

theorem name {names : List String} (given : switch.Given customs value)
    (reads : ∀ text, switch.read text = readName names text) :
    value = switch.usual ∨ value = .list [] ∨ ∃ name ∈ names, value = .text name := by
  cases given with
  | usual => exact .inl rfl
  | empty _ => exact .inr (.inl rfl)
  | @read text _ read =>
      rw [reads, readName] at read
      split at read
      case isTrue known =>
        cases read
        exact .inr (.inr ⟨_, List.contains_iff_mem.mp known, rfl⟩)
      case isFalse => cases read

/-- An empty list is what is left of the end of the options. -/
theorem dropsSeparator (given : switch.Given customs value) (empty : value = .list []) :
    customs.dropsSeparator = true := by
  cases given with
  | usual => exact absurd empty (switch.usual_ne_list [])
  | @read text _ read => exact absurd (empty ▸ read) (switch.read_ne_list text [])
  | empty drops => exact drops

theorem trace (given : Switch.trace.Given customs value) :
    value = .none ∨ value = .list [] ∨ ∃ name, value = .text name := by
  cases given with
  | usual => exact .inl rfl
  | empty _ => exact .inr (.inl rfl)
  | read read =>
      cases read
      exact .inr (.inr ⟨_, rfl⟩)

end Switch.Given

theorem choose_of_known (family : Family) {changes : List (String × Option Bool)}
    (known : ∀ change ∈ changes, (Trait.ofName? change.1).isNone = false) :
    ∃ dialect, Dialect.choose (some family.name) changes = .ok dialect := by
  have named : Family.ofName? family.name = some family := by
    cases family with
    | _ => rfl
  have found : changes.find? (fun change => (Trait.ofName? change.1).isNone) = none := by
    rw [List.find?_eq_none]
    intro change member
    rw [known change member]
    nofun
  simp only [Dialect.choose, Option.bind, named, found]
  exact ⟨_, rfl⟩

namespace Invocation

variable (invocation : Invocation)

theorem get_filename :
    invocation.settings.get "filename" = .ok (.text invocation.filename) := by
  simp [Settings.get, settings]

/-- Every option but the one for help is a setting. -/
theorem get_longName (switch : Switch) (other : switch ≠ .help) :
    invocation.settings.get switch.longName = .ok (invocation.values switch) := by
  cases switch with
  | help => exact absurd rfl other
  | trait point =>
      cases point <;>
        simp [Settings.get, settings, Switch.all, Trait.all, Switch.longName, Trait.settingName,
          Trait.name, List.lookup_cons]
  | _ =>
      simp [Settings.get, settings, Switch.all, Trait.all, Switch.longName, Trait.settingName,
        Trait.name, List.lookup_cons]

theorem get_trace : invocation.settings.get "trace" = .ok (invocation.values .trace) :=
  invocation.get_longName .trace nofun

theorem get_seed : invocation.settings.get "seed" = .ok (invocation.values .seed) :=
  invocation.get_longName .seed nofun

theorem flag_longName (switch : Switch) (other : switch ≠ .help) :
    ∃ flag, invocation.settings.flag? switch.longName = .ok flag := by
  unfold Settings.flag?
  rw [invocation.get_longName switch other]
  cases invocation.values switch with
  | _ => exact ⟨_, rfl⟩

theorem readBell_eq : ∃ bell, Session.readBell invocation.settings = .ok bell := by
  obtain ⟨flag, mute⟩ := invocation.flag_longName .mute nofun
  have mute : invocation.settings.flag? "mute" = .ok flag := mute
  simp only [Session.readBell, mute]
  exact ⟨_, rfl⟩

variable {invocation} (given : invocation.values.Given customs)

include given

theorem family_getOr :
    ∃ family : Family,
      invocation.settings.getOr "arch" (.text Family.usual.name) = .ok (.text family.name) := by
  have arch : invocation.settings.get "arch" = .ok (invocation.values .family) :=
    invocation.get_longName .family nofun
  unfold Settings.getOr
  rw [arch]
  rcases (given .family).name fun _ => rfl with usual | empty | ⟨name, known, named⟩
  · rw [usual]
    exact ⟨.usual, rfl⟩
  · rw [empty]
    exact ⟨.usual, rfl⟩
  · obtain ⟨family, _, rfl⟩ := List.mem_map.mp known
    rw [named]
    refine ⟨family, ?_⟩
    cases family with
    | _ => rfl

theorem readDialect_eq : ∃ dialect, Session.readDialect invocation.settings = .ok dialect := by
  obtain ⟨family, arch⟩ := family_getOr given
  have changed (trait : Trait) : ∃ change : String × Option Bool,
      (do return (trait.name, ← invocation.settings.flag? trait.settingName) :
        Except Failure (String × Option Bool)) = .ok change ∧
        (Trait.ofName? change.1).isNone = false := by
    obtain ⟨flag, read⟩ := invocation.flag_longName (.trait trait) nofun
    have read : invocation.settings.flag? trait.settingName = .ok flag := read
    rw [read]
    refine ⟨(trait.name, flag), rfl, ?_⟩
    cases trait with
    | _ => rfl
  obtain ⟨changes, read, known⟩ := mapM_of_each fun trait (_ : trait ∈ Trait.all) => changed trait
  obtain ⟨dialect, chosen⟩ := choose_of_known family known
  refine ⟨dialect, ?_⟩
  unfold Session.readDialect
  rw [read]
  simp only [arch, bind, Except.bind, Setting.name?, Setting.spelling, chosen]
  rfl

theorem readDisplayKind_eq :
    ∃ kind, Session.readDisplayKind invocation.settings = .ok kind ∧
      (kind = .text ↔ invocation.values .renderer = .text "text") := by
  have renderer : invocation.settings.get "renderer" = .ok (invocation.values .renderer) :=
    invocation.get_longName .renderer nofun
  unfold Session.readDisplayKind Settings.getOr
  rw [renderer]
  rcases (given .renderer).name fun _ => rfl with usual | empty | ⟨name, known, named⟩
  · rw [usual]
    exact ⟨.absent, rfl, by simp [Switch.usual]⟩
  · rw [empty]
    exact ⟨.absent, rfl, by simp⟩
  · rw [named]
    rcases List.mem_cons.mp known with rfl | known
    · exact ⟨.text, rfl, by simp⟩
    · cases List.mem_singleton.mp known
      exact ⟨.absent, rfl, by simp⟩

theorem limit?_isSome {switch : Switch} (reads : ∀ text, switch.read text = readNumber text)
    (usual : switch.usual = .number 0) : (invocation.values switch).limit?.isSome = true := by
  rcases (given switch).number reads with same | empty | ⟨number, counted⟩
  · rw [same, usual]
    rfl
  · rw [empty]
    rfl
  · rw [counted]
    simp only [Setting.limit?, Setting.number?]
    split
    · rfl
    · rfl

end Invocation

end Chip8.CommandLine
