import Montage.Numeric.Binary64

/-!
# A fixed number of decimal places

The text of a number with a given count of digits after the point, rounded from its exact value.
-/

namespace Montage

/-- The decimal digits of `n`, padded on the left with zeros to at least `width`. -/
def paddedDigits (width n : Nat) : List Char :=
  (Nat.toDigits 10 n).leftpad width '0'

/-- `n` as decimal text without leading zeros. -/
def decimalText (n : Int) : String :=
  String.ofList ((if n < 0 then ['-'] else []) ++ Nat.toDigits 10 n.natAbs)

namespace Binary64

/-- The nearest count of `10 ^ -places` parts to `units`. -/
def placeCount (places units : Nat) : Nat :=
  roundQuotient (units * Nat.pow 10 places) one

/-- The digits of `units` with the given count of places, a point before them if there are any. -/
def fixedDigits (places units : Nat) : List Char :=
  let digits := paddedDigits (places + 1) (placeCount places units)
  let wholeLength := digits.length - places
  digits.take wholeLength ++
    if places = 0 then [] else '.' :: digits.drop wholeLength

/-- A number with a fixed count of decimal places; a negative number that rounds to zero keeps its
sign. -/
def fixedPlaces (places : Nat) : Binary64 → List Char
  | .nan => ['n', 'a', 'n']
  | .infinity negative => if negative then ['-', 'i', 'n', 'f'] else ['i', 'n', 'f']
  | .finite negative units _ => (if negative then ['-'] else []) ++ fixedDigits places units

example : fixedPlaces 1 (ofRatio true 1 20) = ['-', '0', '.', '1'] := by decide +kernel
example : fixedPlaces 1 (ofRatio false 1 4) = ['0', '.', '2'] := by decide +kernel

end Binary64

end Montage
