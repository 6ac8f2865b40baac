/-!
# Blank characters

The characters that are dropped at both ends of a text, and the smaller set that may surround a
numeral.
-/

namespace Montage.Text

/-- White space of any script, and the four separator control characters. -/
def isBlank (c : Char) : Bool :=
  let code := c.toNat
  (9 ≤ code && code ≤ 13) || (28 ≤ code && code ≤ 32) || code == 0x85 || code == 0xA0 ||
    code == 0x1680 || (0x2000 ≤ code && code ≤ 0x200A) || code == 0x2028 || code == 0x2029 ||
    code == 0x202F || code == 0x205F || code == 0x3000

/-- A blank that may stand around a numeral; the separator control characters may not. -/
def isNumeralBlank (c : Char) : Bool :=
  isBlank c && !(28 ≤ c.toNat && c.toNat ≤ 31)

/-- A text without the characters at both ends that satisfy `drop`. -/
def stripWhere (drop : Char → Bool) (text : List Char) : List Char :=
  ((text.dropWhile drop).reverse.dropWhile drop).reverse

/-- A text without the blanks at both ends. -/
def strip (text : String) : String :=
  String.ofList (stripWhere isBlank text.toList)

end Montage.Text
