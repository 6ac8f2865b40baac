import Montage.Numeric.FixedPlaces

/-!
# The shortest decimal of a number

Of all decimals that round to a given binary number the one with the fewest digits is chosen, and
of those the nearest. The search tests, for one digit, two digits and so on, the two neighbours of
the exact value on that decimal grid.
-/

namespace Montage

/-- A decimal `digits * 10 ^ exponent`. -/
structure Decimal where
  digits : Nat
  exponent : Int
deriving DecidableEq, Repr

namespace Decimal

/-- The decimal counted in quarters of a unit, times `10 ^ places`; exact once `places` reaches
`-exponent`. -/
def scaledQuarters (d : Decimal) (places : Nat) : Nat :=
  d.digits * Nat.pow 10 (d.exponent + places).toNat * (4 * Binary64.one)

/-- Whether the decimal rounds to the positive finite number of `units`. The numbers that do form
an interval around it that reaches half way to both neighbours; its ends belong to it when the
number is even. -/
def roundsTo (units : Nat) (d : Decimal) : Bool :=
  let gap := Nat.pow 2 (units.log2 - 52)
  let below := if 1 < gap && units == Nat.pow 2 units.log2 then gap else 2 * gap
  let places := (-d.exponent).toNat
  let lower := (4 * units - below) * Nat.pow 10 places
  let upper := (4 * units + 2 * gap) * Nat.pow 10 places
  let candidate := d.scaledQuarters places
  if units / gap % 2 = 0 then lower ≤ candidate && candidate ≤ upper
  else lower < candidate && candidate < upper

/-- The power of ten of the first digit of a positive number. -/
def leadingPower (units : Nat) : Int :=
  if Binary64.one ≤ units then (Nat.toDigits 10 (units / Binary64.one)).length - 1
  else
    let power := (Nat.toDigits 10 (Binary64.one / units)).length - 1
    if units * Nat.pow 10 power = Binary64.one then -power else -(power + 1)

/-- The two neighbours with `count` digits of a positive number, the nearer first; of two equally
near the one with an even last digit. -/
def neighbours (units count : Nat) : List Decimal :=
  let exponent := leadingPower units - (count - 1 : Nat)
  let num := units * Nat.pow 10 (-exponent).toNat
  let den := Binary64.one * Nat.pow 10 exponent.toNat
  let floor := num / den
  let nearest := roundQuotient num den
  let other := if nearest = floor then floor + 1 else floor
  [⟨nearest, exponent⟩, ⟨other, exponent⟩]

/-- The shortest decimal that rounds to the positive finite number of `units`. -/
def shortest (units : Nat) : Decimal :=
  let candidates := (List.range 17).flatMap fun count => neighbours units (count + 1)
  (candidates.find? (roundsTo units)).getD ⟨0, 0⟩

end Decimal

/-- How a number is laid out: the powers of ten of the first digit that are written without an
exponent, and the least count of digits of an exponent. -/
structure DecimalLayout where
  smallest : Int
  largest : Int
  exponentWidth : Nat

/-- Positional from one ten-thousandth up to below `10 ^ 16`; exponents have a sign and at least
two digits. -/
def DecimalLayout.plain : DecimalLayout := ⟨-4, 15, 2⟩

/-- The digits of a decimal laid out, with at least one digit after a point unless an exponent
follows. -/
def Decimal.layout (style : DecimalLayout) (d : Decimal) : List Char :=
  let written := Nat.toDigits 10 d.digits
  let digits := (written.reverse.dropWhile (· == '0')).reverse
  let power : Int := d.exponent + written.length - 1
  if style.smallest ≤ power ∧ power ≤ style.largest then
    if power < 0 then '0' :: '.' :: (List.replicate (-power - 1).toNat '0' ++ digits)
    else
      let wholeLength := power.toNat + 1
      let whole := digits.take wholeLength
      let fraction := digits.drop wholeLength
      whole ++ List.replicate (wholeLength - whole.length) '0' ++ '.' ::
        (if fraction.isEmpty then ['0'] else fraction)
  else
    let fraction := digits.drop 1
    digits.take 1 ++ (if fraction.isEmpty then [] else '.' :: fraction) ++
      'e' :: (if power < 0 then '-' else '+') :: paddedDigits style.exponentWidth power.natAbs

/-- The text of a number in the plain layout: shortest digits, `.0` on whole numbers. -/
def Binary64.text : Binary64 → String
  | .nan => "nan"
  | .infinity negative => if negative then "-inf" else "inf"
  | .finite negative units _ =>
    let digits := if units = 0 then ['0', '.', '0']
      else (Decimal.shortest units).layout DecimalLayout.plain
    String.ofList ((if negative then ['-'] else []) ++ digits)

example : Decimal.shortest (Binary64.one / 2) = ⟨5, -1⟩ := by decide +kernel

end Montage
