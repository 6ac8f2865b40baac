/-!
# Lone surrogates

A document can name one half of a surrogate pair without the other. No character is such a half,
so a text holds a stand-in for it: the character with the same last four digits in a plane where
no character is assigned. A half can be told in a message, but no file can hold it.

The stand-ins are the code points U+9D800 to U+9DFFF. A text may also hold one of these as itself,
although no character is assigned to it. Such a text is taken for one with a lone surrogate: it
is told as that and counts as one that no file can hold.
-/

namespace Montage.Text

/-- The first code point of the plane of the stand-ins. -/
def standInPlane : Nat := 0x90000

/-- The character that stands for a lone surrogate. -/
def standIn (code : Nat) : Char :=
  Char.ofNat (standInPlane + code)

/-- The lone surrogate that a character stands for. A stand-in that a text holds as itself is not
told apart. -/
def surrogate? (c : Char) : Option Nat :=
  let code := c.toNat - standInPlane
  if 0xD800 ≤ code ∧ code < 0xE000 then some code else none

/-- Whether a file can hold a text. -/
def isStorable (text : String) : Bool :=
  text.toList.all fun c => (surrogate? c).isNone

/-- Whether the name of a file can hold a character. In a name the halves from DC80 to DCFF stand
for single bytes. -/
def isNameable (c : Char) : Bool :=
  (surrogate? c).all fun code => 0xDC80 ≤ code && code ≤ 0xDCFF

example : surrogate? 'a' = none := by decide
example : surrogate? (standIn 0xD800) = some 0xD800 := by decide
example : isNameable (standIn 0xD800) = false := by decide
example : isNameable (standIn 0xDC80) = true := by decide

end Montage.Text
