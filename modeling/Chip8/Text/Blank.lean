/-!
# Blank characters

The characters that separate the fields of a line: the blanks of Unicode,
together with the control characters for line, page and record separation.
Splitting at blanks yields the maximal runs of other characters, so it never
yields an empty field.
-/

set_option autoImplicit false

namespace Chip8.Text

def wideBlanks : List Nat :=
  [0x85, 0xa0, 0x1680, 0x2000, 0x2001, 0x2002, 0x2003, 0x2004, 0x2005, 0x2006, 0x2007, 0x2008,
    0x2009, 0x200a, 0x2028, 0x2029, 0x202f, 0x205f, 0x3000]

/-- The blanks that pad a numeral: tabulator to carriage return, and space. -/
def isPadding (c : Char) : Bool :=
  c == ' ' || (0x09 ≤ c.toNat && c.toNat ≤ 0x0d)

/-- The blanks that separate fields. Beside the padding these are the four
record separators of ASCII and the blanks of the wider alphabet. -/
def isBlank (c : Char) : Bool :=
  isPadding c || (0x1c ≤ c.toNat && c.toNat ≤ 0x1f) || wideBlanks.contains c.toNat

/-- The maximal runs of characters that are not blank, in order. -/
def fields : List Char → List (List Char)
  | [] => []
  | [c] => if isBlank c then [] else [[c]]
  | c :: d :: rest =>
      if isBlank c then fields (d :: rest)
      else if isBlank d then [c] :: fields (d :: rest)
      else
        match fields (d :: rest) with
        | [] => [[c]]
        | field :: others => (c :: field) :: others

example : fields " 12  a\tdown ".toList = ["12".toList, "a".toList, "down".toList] := by decide

end Chip8.Text
