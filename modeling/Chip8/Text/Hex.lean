/-!
# Hexadecimal text

Numbers are shown in lower-case hexadecimal, padded with zeros to a least
width. The padding is a least width only: a number that needs more digits is
written in full, and the sign of a negative number takes one of the places.
-/

set_option autoImplicit false

namespace Chip8.Text

def zeroPad (width : Nat) (digits : List Char) : List Char :=
  List.replicate (width - digits.length) '0' ++ digits

/-- A number in hexadecimal, at least `width` places wide. The minus sign of a
negative number counts as one of these places. -/
def hexChars (width : Nat) (value : Int) : List Char :=
  let digits := Nat.toDigits 16 value.natAbs
  if value < 0 then '-' :: zeroPad (width - 1) digits else zeroPad width digits

def hex (width : Nat) (value : Int) : String :=
  String.ofList (hexChars width value)

theorem length_zeroPad (width : Nat) (digits : List Char) :
    (zeroPad width digits).length = max width digits.length := by
  simp only [zeroPad, List.length_append, List.length_replicate]
  omega

@[simp] theorem toList_hex (width : Nat) (value : Int) :
    (hex width value).toList = hexChars width value := by
  simp only [hex, String.toList_ofList]

example : hex 4 (-1) = "-001" := by decide
example : hex 3 4660 = "1234" := by decide

end Chip8.Text
