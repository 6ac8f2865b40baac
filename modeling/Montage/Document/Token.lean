import Montage.Document.Value
import Montage.Text.Numeral
import Montage.Text.Surrogate

/-!
# Tokens of a document

A document text is cut into punctuation, names, numerals and texts. Text that is none of these
ends the tokens with `invalid`, so that a reader sees every token before the fault first.
-/

namespace Montage.Document

inductive Token where
  | openList
  | closeList
  | openObject
  | closeObject
  | comma
  | colon
  | null
  | bool (value : Bool)
  | whole (negative : Bool) (digits : List Char)
  | real (value : Binary64)
  | text (value : String)
  | invalid
deriving DecidableEq

def isSpace (c : Char) : Bool :=
  c == ' ' || c == '\t' || c == '\n' || c == '\r'

def hexValue? (c : Char) : Option Nat :=
  if c.isDigit then some (c.toNat - 48)
  else if 'a' ≤ c ∧ c ≤ 'f' then some (c.toNat - 87)
  else if 'A' ≤ c ∧ c ≤ 'F' then some (c.toNat - 55)
  else none

/-- The code unit of four hexadecimal digits, and the text after them. -/
def codeUnit? : List Char → Option (Nat × List Char)
  | a :: b :: c :: d :: rest => do
    return (4096 * (← hexValue? a) + 256 * (← hexValue? b) + 16 * (← hexValue? c) + (← hexValue? d),
      rest)
  | _ => none

/-- The second half of a surrogate pair at the start of a text, and the text after it. -/
def secondHalf? : List Char → Option (Nat × List Char)
  | '\\' :: 'u' :: rest => (codeUnit? rest).filter fun (unit, _) => 0xDC00 ≤ unit && unit < 0xE000
  | _ => none

/-- The character of an escaped code unit, and the text after it. Two code units that form a
surrogate pair are one character; a half without its partner is held by its stand-in. -/
def escapedUnit? (text : List Char) : Option (Char × List Char) := do
  let (unit, rest) ← codeUnit? text
  if unit < 0xD800 ∨ 0xE000 ≤ unit then some (Char.ofNat unit, rest)
  else
    match if unit < 0xDC00 then secondHalf? rest else none with
    | some (second, after) =>
      some (Char.ofNat (0x10000 + 1024 * (unit - 0xD800) + (second - 0xDC00)), after)
    | none => some (Text.standIn unit, rest)

/-- The character of a one letter escape. -/
def escape? : Char → Option Char
  | '"' => some '"'
  | '\\' => some '\\'
  | '/' => some '/'
  | 'b' => some (Char.ofNat 8)
  | 'f' => some (Char.ofNat 12)
  | 'n' => some '\n'
  | 'r' => some '\r'
  | 't' => some '\t'
  | _ => none

/-- The characters of a text up to its closing quote, and what follows. Control characters must be
escaped. `steps` bounds the characters read. -/
def textBody? : (steps : Nat) → (text read : List Char) → Option (List Char × List Char)
  | 0, _, _ => none
  | _ + 1, [], _ => none
  | _ + 1, '"' :: rest, read => some (read.reverse, rest)
  | steps + 1, '\\' :: 'u' :: rest, read =>
    match escapedUnit? rest with
    | some (c, after) => textBody? steps after (c :: read)
    | none => none
  | steps + 1, '\\' :: mark :: rest, read =>
    match escape? mark with
    | some c => textBody? steps rest (c :: read)
    | none => none
  | steps + 1, c :: rest, read =>
    if c.toNat < 32 ∨ c = '\\' then none else textBody? steps rest (c :: read)

/-- The digits after an exponent mark with their sign, and what follows; none where no digit
follows the mark. -/
def exponentPart? (text : List Char) : Option (Int × List Char) :=
  match text with
  | [] => none
  | mark :: rest =>
    if mark = 'e' ∨ mark = 'E' then
      let (negative, body) := Text.takeSign rest
      let digits := body.takeWhile Char.isDigit
      if digits.isEmpty then none
      else
        let value : Int := Text.digitsValue digits
        some (if negative then -value else value, body.dropWhile Char.isDigit)
    else none

/-- The digits after a point, and what follows; none where no digit follows a point. -/
def fractionPart? (text : List Char) : Option (List Char × List Char) :=
  match text with
  | '.' :: rest =>
    let digits := rest.takeWhile Char.isDigit
    if digits.isEmpty then none else some (digits, rest.dropWhile Char.isDigit)
  | _ => none

/-- The digits of a whole number, and what follows: a zero that comes first stands alone. -/
def wholePart? (text : List Char) : Option (List Char × List Char) :=
  match text with
  | '0' :: rest => some (['0'], rest)
  | _ =>
    let digits := text.takeWhile Char.isDigit
    if digits.isEmpty then none else some (digits, text.dropWhile Char.isDigit)

/-- The numeral at the start of a text whose minus, if any, is taken off, and what follows. A
point or an exponent mark that no digit follows is not part of it. -/
def numeral? (negative : Bool) (text : List Char) : Option (Token × List Char) := do
  let (whole, afterWhole) ← wholePart? text
  let fraction := fractionPart? afterWhole
  let (fractionDigits, afterFraction) := fraction.getD ([], afterWhole)
  let exponent := exponentPart? afterFraction
  let (power, rest) := exponent.getD (0, afterFraction)
  if fraction.isNone && exponent.isNone then some (.whole negative whole, rest)
  else
    some (.real (.ofDecimal negative (Text.digitsValue (whole ++ fractionDigits))
      (power - fractionDigits.length)), rest)

/-- The rest of a text after a word it starts with. -/
def after? (word text : List Char) : Option (List Char) :=
  if word.isPrefixOf text then some (text.drop word.length) else none

/-- A word of the format and its token. -/
def words : List (List Char × Token) := [
  (['n', 'u', 'l', 'l'], .null), (['t', 'r', 'u', 'e'], .bool true),
  (['f', 'a', 'l', 's', 'e'], .bool false), (['N', 'a', 'N'], .real .nan),
  (['I', 'n', 'f', 'i', 'n', 'i', 't', 'y'], .real (.infinity false)),
  (['-', 'I', 'n', 'f', 'i', 'n', 'i', 't', 'y'], .real (.infinity true))]

def word? (text : List Char) : Option (Token × List Char) :=
  words.findSome? fun (word, token) => (after? word text).map fun rest => (token, rest)

/-- The first token of a text that does not start with a space, and what follows. -/
def token? (text : List Char) : Option (Token × List Char) :=
  match text with
  | '[' :: rest => some (.openList, rest)
  | ']' :: rest => some (.closeList, rest)
  | '\x7b' :: rest => some (.openObject, rest)
  | '\x7d' :: rest => some (.closeObject, rest)
  | ',' :: rest => some (.comma, rest)
  | ':' :: rest => some (.colon, rest)
  | '"' :: rest =>
    (textBody? (rest.length + 1) rest []).map fun (body, after) =>
      (.text (String.ofList body), after)
  | '-' :: rest => (word? text).or (numeral? true rest)
  | _ => (word? text).or (numeral? false text)

/-- The tokens of a text; `steps` bounds their count. -/
def tokensWithin : (steps : Nat) → (text : List Char) → List Token
  | 0, _ => []
  | steps + 1, text =>
    match text.dropWhile isSpace with
    | [] => []
    | start =>
      match token? start with
      | none => [.invalid]
      | some (token, rest) => token :: tokensWithin steps rest

/-- The tokens of a document text. -/
def tokens (text : String) : List Token :=
  let characters := text.toList
  tokensWithin (characters.length + 1) characters

end Montage.Document
