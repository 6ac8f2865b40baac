import Montage.Defect
import Montage.Numeric.FixedPlaces
import Montage.Text.Blank
import Montage.Text.Digit

/-!
# Numerals

Numbers written as text: an optional sign and decimal digits of any script, where a single
underscore may stand between two digits, with blanks allowed around the whole. A whole number has
at most `maxDigits` digits, read or written.
-/

namespace Montage.Text

/-- The most digits of a whole number that is read from text or written as text. -/
def maxDigits : Nat := 4300

/-- The digits of a group that may hold single underscores between digits; none for any other
text, the empty one included. -/
def groupDigits? (text : List Char) : Option (List Char) :=
  go false text
where
  go (afterDigit : Bool) : List Char → Option (List Char)
    | [] => if afterDigit then some [] else none
    | c :: rest =>
      if isDecimalDigit c then (go true rest).map (c :: ·)
      else if c = '_' ∧ afterDigit = true then go false rest
      else none

/-- A text without its sign, and whether that was a minus. -/
def takeSign : List Char → Bool × List Char
  | '-' :: rest => (true, rest)
  | '+' :: rest => (false, rest)
  | text => (false, text)

/-- The whole number that a text denotes. -/
def integer? (text : List Char) : Option Int :=
  let (negative, body) := takeSign (stripWhere isNumeralBlank text)
  match groupDigits? body with
  | none => none
  | some digits =>
    if maxDigits < digits.length then none
    else
      let value : Int := digitsValue digits
      some (if negative then -value else value)

/-- A whole number as text; one with too many digits is refused. -/
def wholeText (n : Int) : Except Defect String :=
  if n.natAbs < Nat.pow 10 maxDigits then .ok (decimalText n) else .error .badValue

/-- A whole number with more digits than can be written. -/
def TooLong (n : Int) : Prop :=
  Nat.pow 10 maxDigits ≤ n.natAbs

/-- The digits of a group that may be empty. -/
def optionalGroup? (text : List Char) : Option (List Char) :=
  if text.isEmpty then some [] else groupDigits? text

/-- The exponent of a numeral, the mark before it being taken off. -/
def exponent? (text : List Char) : Option Int :=
  let (negative, body) := takeSign text
  (groupDigits? body).map fun digits =>
    let value : Int := digitsValue digits
    if negative then -value else value

/-- The number that unsigned text with digits, a point and an exponent denotes. -/
def decimal? (negative : Bool) (text : List Char) : Option Binary64 := do
  let isMark := fun c => c == 'e' || c == 'E'
  let mantissa := text.takeWhile (!isMark ·)
  let exponent ← match text.dropWhile (!isMark ·) with
    | [] => some 0
    | _ :: rest => exponent? rest
  let whole ← optionalGroup? (mantissa.takeWhile (· != '.'))
  let fraction ← optionalGroup? (mantissa.dropWhile (· != '.') |>.drop 1)
  if whole.isEmpty && fraction.isEmpty then none
  else
    some (.ofDecimal negative (digitsValue (whole ++ fraction)) (exponent - fraction.length))

/-- The binary64 number that a text denotes; the names of infinity and not-a-number count, in any
case. -/
def real? (text : List Char) : Option Binary64 :=
  let (negative, body) := takeSign (stripWhere isNumeralBlank text)
  let name := String.ofList (body.map Char.toLower)
  if name = "inf" ∨ name = "infinity" then some (.infinity negative)
  else if name = "nan" then some .nan
  else decimal? negative body

theorem wholeText_eq_error {n : Int} {defect : Defect} (failed : wholeText n = .error defect) :
    defect = .badValue ∧ TooLong n := by
  unfold wholeText at failed
  split at failed
  · cases failed
  · next long =>
    cases failed
    exact ⟨rfl, Nat.le_of_not_lt long⟩

theorem groupDigits?_go_of_all_digits (digits : List Char) (afterDigit : Bool)
    (all : ∀ c ∈ digits, isDecimalDigit c = true) (start : digits ≠ [] ∨ afterDigit = true) :
    groupDigits?.go afterDigit digits = some digits := by
  induction digits generalizing afterDigit with
  | nil => simpa [groupDigits?.go] using start
  | cons c rest ih =>
    have digit := all c (by simp)
    simp [groupDigits?.go, digit, ih true (fun d member => all d (by simp [member])) (Or.inr rfl)]

/-- A row of digits without underscores is a group. -/
theorem groupDigits?_of_all_digits {digits : List Char} (some_digit : digits ≠ [])
    (all : ∀ c ∈ digits, isDecimalDigit c = true) : groupDigits? digits = some digits :=
  groupDigits?_go_of_all_digits digits false all (Or.inl some_digit)

example : integer? [' ', '-', '1', '_', '0'] = some (-10) := by decide
example : integer? ['1', '_', '_', '0'] = none := by decide

end Montage.Text
