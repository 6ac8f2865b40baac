import Montage.Document.Arithmetic
import Montage.Failure
import Montage.Text.Numeral

/-!
# Timecodes

A timecode is hours, minutes and seconds between colons, with a minus before the whole if it is
negative: at least two digits of hours, and two each of minutes and seconds, below sixty. A
progress mark has the same three rows of digits under looser rules, and a fraction of a second.
-/

namespace Montage.Timecode

open Text

/-- Three rows of digits between colons, with the sign before them. -/
structure Clock where
  negative : Bool
  hours : List Char
  minutes : List Char
  seconds : List Char
deriving DecidableEq

/-- A text without a minus at its front, and whether there was one. -/
def takeMinus : List Char → Bool × List Char
  | '-' :: rest => (true, rest)
  | text => (false, text)

/-- The clock at the front of a text, and what follows its seconds. -/
def clock? (text : List Char) : Option (Clock × List Char) :=
  let (negative, body) := takeMinus text
  match body.span isDecimalDigit with
  | (hours, ':' :: afterHours) =>
    match afterHours.span isDecimalDigit with
    | (minutes, ':' :: afterMinutes) =>
      let (seconds, rest) := afterMinutes.span isDecimalDigit
      some (⟨negative, hours, minutes, seconds⟩, rest)
    | _ => none
  | _ => none

/-- The rows of digits that a timecode has. -/
def Clock.isTimecode (clock : Clock) : Bool :=
  2 ≤ clock.hours.length && clock.minutes.length == 2 && clock.seconds.length == 2

/-- The rows of digits that a progress mark has. -/
def Clock.isMark (clock : Clock) : Bool :=
  1 ≤ clock.hours.length && (clock.minutes.length == 1 || clock.minutes.length == 2) &&
    (clock.seconds.length == 1 || clock.seconds.length == 2)

/-- The whole seconds of the hours and minutes. -/
def Clock.hourSeconds (clock : Clock) : Nat :=
  digitsValue clock.hours * 3600 + digitsValue clock.minutes * 60

/-- The whole seconds of a timecode, the sign counting for the whole. -/
def Clock.total (clock : Clock) : Int :=
  let magnitude : Int := (clock.hourSeconds + digitsValue clock.seconds : Nat)
  if clock.negative then -magnitude else magnitude

/-- The seconds that a timecode denotes, blanks around it being ignored. -/
def parse (text : String) : Except Failure Int :=
  match clock? (stripWhere isBlank text.toList) with
  | some (clock, []) =>
    if !clock.isTimecode then reject (.time (.malformed text))
    else if 60 ≤ digitsValue clock.minutes ∨ 60 ≤ digitsValue clock.seconds then
      reject (.time (.outOfRange text))
    else if maxDigits < clock.hours.length then .error (.defect .badValue)
    else .ok clock.total
  | _ => reject (.time (.malformed text))

/-- The digits of the fraction that follows the seconds of a mark; none for any other text. -/
def fraction? : List Char → Option (List Char)
  | [] => some []
  | '.' :: digits => if !digits.isEmpty && digits.all isDecimalDigit then some digits else none
  | _ => none

/-- The seconds of a clock with a fraction, in binary64: the whole part is converted, then the
seconds are added. -/
def Clock.markSeconds (clock : Clock) (fraction : List Char) : Except Defect Binary64 := do
  if maxDigits < clock.hours.length then .error .badValue
  else
    let whole ← Number.wholeToReal clock.hourSeconds
    let seconds := Binary64.ofDecimal false (digitsValue (clock.seconds ++ fraction))
      (-(fraction.length : Int))
    let total := whole.add seconds
    return if clock.negative then total.neg else total

/-- The seconds that a progress mark denotes. -/
def parseMark (given : Value) : Except Failure Binary64 :=
  let refused : Except Failure Binary64 := rejectNaming given (.time (.badMark given))
  match given with
  | .text text =>
    match clock? (stripWhere isBlank text.toList) with
    | some (clock, rest) =>
      match fraction? rest with
      | some fraction => if clock.isMark then liftM (clock.markSeconds fraction) else refused
      | none => refused
    | none => refused
  | _ => refused

/-- The seconds of a time that is given as a whole number or as a timecode. -/
def toSeconds : Value → Except Failure Int
  | .bool given => reject (.time (.truthValue given))
  | .int seconds => .ok seconds
  | .text text => parse text
  | given => rejectNaming given (.time (.notText given))

/-- A count of seconds as a timecode. -/
def formatWhole (negative : Bool) (seconds : Nat) : Except Defect String := do
  let hours := seconds / 3600
  let _ ← wholeText hours
  return String.ofList ((if negative then ['-'] else []) ++ paddedDigits 2 hours ++
    ':' :: paddedDigits 2 (seconds % 3600 / 60) ++ ':' :: paddedDigits 2 (seconds % 60))

/-- A number of seconds as a timecode, its fraction dropped; the sign is that of the number. -/
def format (seconds : Value) : Except Defect String := do
  let number ← seconds.number
  let negative := number.lt (.whole 0)
  let whole ← number.abs.truncate
  formatWhole negative whole.toNat

end Montage.Timecode
