import Montage.Document.Value
import Montage.Numeric.Number
import Montage.Text.Numeral

/-!
# Lenient readings

A setting takes a value of another kind where nothing is lost: a number may be written as text, a
truth value counts as one or zero, and a real number that is whole counts as whole. Texts are taken
as they are. None stands for a value that a setting does not take.
-/

namespace Montage.Lenient

open Text

/-- The most digits of a whole number that is written as text, from the first that is not zero. -/
def maxWholeDigits : Nat := 4300

/-- A text without the single underscores inside it; none where an underscore stands at an end or
beside another one. -/
def withoutUnderscores? (text : List Char) : Option (List Char) :=
  go false text
where
  go (inside : Bool) : List Char → Option (List Char)
    | [] => if inside then some [] else none
    | c :: rest =>
      if c != '_' then (go true rest).map (c :: ·) else if inside then go false rest else none

/-- Whether a whole number can begin with a character once its zeros are gone. -/
def startsWhole (c : Char) : Bool :=
  c == '-' || (c.isDigit && c != '0')

/-- What follows a row of zeros and underscores that ends with `last`, which stays where no other
digit follows. A minus sign may stand behind the zeros. -/
def afterZeros? (last : Char) : List Char → Option (List Char)
  | [] => some [last]
  | c :: rest =>
    if c = '0' ∨ c = '_' then afterZeros? c rest
    else if c = '.' then some (last :: c :: rest)
    else if startsWhole c then some (c :: rest)
    else none

/-- A numeral without the zeros at its front; none for a text that begins like no numeral. -/
def withoutZeros? : List Char → Option (List Char)
  | [] => none
  | c :: rest =>
    if c = '0' then afterZeros? c rest else if startsWhole c then some (c :: rest) else none

/-- A numeral without the zeros after its point, which do not make it less whole. -/
def withoutFraction (text : List Char) : List Char :=
  match text.dropWhile (· != '.') with
  | _ :: digit :: rest =>
    if (digit :: rest).all (· == '0') then text.takeWhile (· != '.') else text
  | _ => text

/-- The whole number of plain digits, with no zero in front of another digit. -/
def plainDigits? (text : List Char) : Option Nat :=
  if text.all Char.isDigit && text.length ≤ maxWholeDigits &&
      (text == ['0'] || text.head?.any (· != '0')) then
    some (digitsValue text)
  else none

/-- The whole number of plain digits after a minus sign or without one. The sign does not count
against the limit. -/
def plainWhole? : List Char → Option Int
  | '-' :: digits => (plainDigits? digits).map fun value => -(value : Int)
  | digits => (plainDigits? digits).map fun value => (value : Int)

/-- A text without its plus sign; none if a minus sign follows. -/
def withoutPlus? : List Char → Option (List Char)
  | '+' :: '-' :: _ => none
  | '+' :: rest => some rest
  | text => some text

/-- A numeral without what does not count: the zeros at its front, those after its point, and the
underscores inside it. -/
def bareNumeral? (text : List Char) : Option (List Char) :=
  (withoutZeros? text).map fun significant =>
    let whole := withoutFraction significant
    (withoutUnderscores? whole).getD whole

/-- The whole number that a text denotes. What follows a minus sign is a numeral in its own
right, so no underscore may stand beside the sign. -/
def wholeOfText? (text : List Char) : Option Int := do
  match ← withoutPlus? (stripWhere isNumeralBlank text) with
  | '-' :: unsigned => plainWhole? ('-' :: (← bareNumeral? unsigned))
  | unsigned => plainWhole? (← bareNumeral? unsigned)

/-- The number that a text without blanks or underscores denotes. -/
def plainReal? (text : List Char) : Option Binary64 :=
  if text.all fun c => c.toNat < 128 && !isBlank c && c != '_' then real? text else none

/-- The number that a text denotes: with blanks around it, or with underscores inside. -/
def realOfText? (text : List Char) : Option Binary64 :=
  (plainReal? (stripWhere isNumeralBlank text)).orElse fun _ =>
    (withoutUnderscores? text).bind plainReal?

/-- Real numbers of this size and above are not taken as whole ones. -/
def wholeLimit : Int := (Nat.pow 2 63 : Nat)

/-- The whole number that a value stands for. -/
def whole? : Value → Option Int
  | .bool value => some (if value then 1 else 0)
  | .int value => some value
  | .real value =>
    match value.truncate? with
    | some whole =>
      if value.compareInt? whole = some .eq ∧ whole.natAbs < wholeLimit then some whole else none
    | none => none
  | .text text => wholeOfText? text.toList
  | _ => none

/-- The real number that a value stands for. -/
def real? : Value → Option Binary64
  | .bool value => some (.ofInt (if value then 1 else 0))
  | .int value => (Number.wholeToReal value).toOption
  | .real value => some value
  | .text text => realOfText? text.toList
  | _ => none

/-- The text that a value is. -/
def text? : Value → Option String
  | .text text => some text
  | _ => none

/-- A reading that also takes null, which stands for nothing. -/
def orNull {α : Type} (reading : Value → Option α) : Value → Option (Option α)
  | .null => some none
  | value => (reading value).map some

example : wholeOfText? [' ', '+', '1', '_', '0', '.', '0', ' '] = some 10 := by decide
example : wholeOfText? ['0', '_', '0', '-', '5', '.', '0'] = some (-5) := by decide
example : wholeOfText? ['-', '0', '_', '1'] = some (-1) := by decide
example : wholeOfText? ['-', '_', '1'] = none := by decide
example : wholeOfText? ['1', '.', '5'] = none := by decide
example : wholeOfText? ['1', '.'] = none := by decide
example : wholeOfText? [] = none := by decide
example : whole? (.bool true) = some 1 := rfl

end Montage.Lenient
