/-!
# Dialects

Historical interpreters disagree on a handful of instructions. Each point of
disagreement is a trait that an interpreter has or lacks, and a dialect says
which traits are in force. A dialect starts from that of an interpreter family
and may then be changed trait by trait.
-/

set_option autoImplicit false

namespace Chip8

inductive Trait where
  /-- The shifts act on their first register in place. -/
  | shift
  /-- The offset jump adds the register that its address names. -/
  | jump
  /-- The bitwise operations clear the flag register. -/
  | logic
  /-- The block transfers leave the index behind the block. -/
  | load
  deriving DecidableEq, Repr

namespace Trait

def all : List Trait := [shift, jump, logic, load]

def name : Trait → String
  | shift => "shift"
  | jump => "jump"
  | logic => "logic"
  | load => "load"

def settingName (trait : Trait) : String := trait.name ++ "_quirks"

def ofName? (name : String) : Option Trait := all.find? fun trait => trait.name == name

theorem mem_all (trait : Trait) : trait ∈ all := by
  cases trait <;> decide

end Trait

structure Dialect where
  shift : Bool := false
  jump : Bool := false
  logic : Bool := false
  load : Bool := false
  deriving DecidableEq, Repr

namespace Dialect

def plain : Dialect := {}

def has (dialect : Dialect) : Trait → Bool
  | .shift => dialect.shift
  | .jump => dialect.jump
  | .logic => dialect.logic
  | .load => dialect.load

def ofPredicate (holds : Trait → Bool) : Dialect where
  shift := holds .shift
  jump := holds .jump
  logic := holds .logic
  load := holds .load

@[simp] theorem has_ofPredicate (holds : Trait → Bool) (trait : Trait) :
    (ofPredicate holds).has trait = holds trait := by
  cases trait <;> rfl

theorem ofPredicate_has (dialect : Dialect) : ofPredicate dialect.has = dialect := rfl

end Dialect

inductive Family where
  /-- The first interpreter, on the COSMAC VIP. -/
  | vip
  /-- Super-CHIP 1.1 on the HP 48. -/
  | superChip
  /-- XO-CHIP. -/
  | xoChip
  /-- What most test programs expect. -/
  | modern
  /-- The first revision of this interpreter. -/
  | firstRevision
  deriving DecidableEq, Repr

namespace Family

def all : List Family := [vip, superChip, xoChip, modern, firstRevision]

def name : Family → String
  | vip => "chip8"
  | superChip => "schip"
  | xoChip => "xochip"
  | modern => "modern"
  | firstRevision => "original"

def traits : Family → List Trait
  | vip => [.logic, .load]
  | superChip => [.shift, .jump]
  | xoChip => [.load]
  | modern => []
  | firstRevision => [.shift, .logic]

def ofName? (name : String) : Option Family := all.find? fun family => family.name == name

def dialect (family : Family) : Dialect := Dialect.ofPredicate family.traits.contains

def usual : Family := modern

end Family

namespace Dialect

/-- A name that stands for no family, or for no trait. A missing family name
is kept apart from every name. -/
inductive UnknownName where
  | family (name : Option String)
  | trait (name : String)
  deriving DecidableEq, Repr

def UnknownName.message : UnknownName → String
  | .family name =>
      "Unknown architecture '" ++ name.getD "None" ++ "'.  Choose from: " ++
        String.intercalate ", " (Family.all.map Family.name)
  | .trait name => "Unknown quirk '" ++ name ++ "'"

/-- The dialect of a named family with some traits changed. A change without a
value keeps what the family says, and of several changes of one trait the last
one counts. The family is looked up before the traits, and all names have to
be known even where they change nothing. -/
def choose (family : Option String) (changes : List (String × Option Bool)) :
    Except UnknownName Dialect :=
  match family.bind Family.ofName? with
  | none => .error (.family family)
  | some known =>
      match changes.find? fun change => (Trait.ofName? change.1).isNone with
      | some change => .error (.trait change.1)
      | none => .ok (ofPredicate fun trait =>
          ((changes.reverse.lookup trait.name).join).getD (known.dialect.has trait))

example : (choose (some "schip") [("jump", some false), ("load", none)]).toOption =
    some { shift := true } := by decide +kernel

end Dialect

end Chip8
