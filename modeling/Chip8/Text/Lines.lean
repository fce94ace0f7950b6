/-!
# Lines of a text

A text file ends its lines with a line feed, a carriage return or both; all
three are first brought to a line feed. The text is then cut at every line
boundary of Unicode. A boundary ends a line, so a text that ends in a boundary
has no further, empty line behind it.
-/

set_option autoImplicit false

namespace Chip8.Text

/-- Carriage returns become line feeds; a carriage return with the line feed
behind it counts as one. -/
def unifyNewlines : List Char → List Char
  | [] => []
  | '\r' :: '\n' :: rest => '\n' :: unifyNewlines rest
  | '\r' :: rest => '\n' :: unifyNewlines rest
  | c :: rest => c :: unifyNewlines rest

def isLineEnd (c : Char) : Bool :=
  [0x0a, 0x0b, 0x0c, 0x0d, 0x1c, 0x1d, 0x1e, 0x85, 0x2028, 0x2029].contains c.toNat

/-- A text cut behind each line end. The ends themselves are dropped, and each
of them ends a line of its own. -/
def splitLines : List Char → List (List Char)
  | [] => []
  | c :: rest =>
      if isLineEnd c then [] :: splitLines rest
      else
        match splitLines rest with
        | [] => [[c]]
        | line :: others => (c :: line) :: others

def lines (text : List Char) : List (List Char) :=
  splitLines (unifyNewlines text)

example : lines "a\r\n\rb\n".toList = ["a".toList, [], "b".toList] := by decide

end Chip8.Text
