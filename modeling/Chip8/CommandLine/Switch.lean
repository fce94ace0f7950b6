import Chip8.Dialect
import Chip8.Setting

/-!
# Options of the command line

Each option has a long name, most have a letter too, and all but two take a
value. A word names an option if it is its long name, and may stand for every
option whose long name begins with it.
-/

set_option autoImplicit false

namespace Chip8.CommandLine

inductive Switch where
  | help
  | family
  | speed
  | renderer
  | scale
  | mute
  | trace
  | trait (trait : Trait)
  | idleLimit
  | cycleLimit
  | seed
  | debug
  deriving DecidableEq, Repr

namespace Switch

def all : List Switch :=
  [help, family, speed, renderer, scale, mute, trace] ++ Trait.all.map trait ++
    [idleLimit, cycleLimit, seed, debug]

def letter? : Switch → Option Char
  | help => some 'h'
  | family => some 'a'
  | speed => some 'c'
  | renderer => some 'r'
  | scale => some 's'
  | mute => some 'm'
  | trace => some 't'
  | debug => some 'd'
  | trait _ | idleLimit | cycleLimit | seed => none

def longName : Switch → String
  | help => "help"
  | family => "arch"
  | speed => "clock_speed"
  | renderer => "renderer"
  | scale => "scale"
  | mute => "mute"
  | trace => "trace"
  | trait point => point.settingName
  | idleLimit => "idle_limit"
  | cycleLimit => "max_cycles"
  | seed => "seed"
  | debug => "debug"

def takesValue : Switch → Bool
  | help | debug => false
  | _ => true

def usual : Switch → Setting
  | family => .text Family.usual.name
  | renderer => .text "null"
  | idleLimit | cycleLimit => .number 0
  | help | debug => .flag false
  | speed | scale | mute | trace | trait _ | seed => .none

def ofLetter? (letter : Char) : Option Switch :=
  all.find? fun switch => switch.letter? == some letter

def ofLongName? (word : List Char) : Option Switch :=
  all.find? fun switch => switch.longName.toList == word

def beginningWith (word : List Char) : List Switch :=
  all.filter fun switch => word.isPrefixOf switch.longName.toList

end Switch

end Chip8.CommandLine
