import Chip8.Text.Hex
import Chip8.Text.Unprintable

/-!
# Quoted text

A text is shown between quotes, with everything that could not be read back
from the screen escaped. Single quotes are preferred; double quotes are taken
only when they save an escape.
-/

set_option autoImplicit false

namespace Chip8.Text

/-- The quote around a text: double only for a text that holds a single quote
and no double one. -/
def quoteMark (text : List Char) : Char :=
  if text.contains '\'' && !text.contains '"' then '"' else '\''

def escapeNumber (c : Char) : List Char :=
  if c.toNat < 0x100 then '\\' :: 'x' :: hexChars 2 c.toNat
  else if c.toNat < 0x10000 then '\\' :: 'u' :: hexChars 4 c.toNat
  else '\\' :: 'U' :: hexChars 8 c.toNat

def quoteChar (mark c : Char) : List Char :=
  if c == mark || c == '\\' then ['\\', c]
  else if c == '\n' then ['\\', 'n']
  else if c == '\r' then ['\\', 'r']
  else if c == '\t' then ['\\', 't']
  else if isUnprintable c then escapeNumber c
  else [c]

def quoted (text : List Char) : List Char :=
  let mark := quoteMark text
  mark :: text.flatMap (quoteChar mark) ++ [mark]

example : quoted "it's".toList = "\"it's\"".toList := by decide +kernel
example : quoted "a\t\\".toList = "'a\\t\\\\'".toList := by decide +kernel

end Chip8.Text
