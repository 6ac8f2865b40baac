import Montage.Document.Token

/-!
# Reading a document

A document is one value; its members may be given twice, and then the last one counts in the place
of the first. What is wrong with a text is found from the left. Values are nested to some depth
only, as far as a reader's stack goes.
-/

namespace Montage.Document

inductive ReadError where
  /-- The text is not a document. -/
  | malformed
  /-- A whole number with more digits than are read. -/
  | tooManyDigits (count : Nat)
  /-- A value inside more values than are read. -/
  | tooDeep
deriving DecidableEq, Repr

/-- A whole number from its digits. -/
def wholeNumber (negative : Bool) (digits : List Char) : Except ReadError Int :=
  if Text.maxDigits < digits.length then .error (.tooManyDigits digits.length)
  else
    let value : Int := Text.digitsValue digits
    .ok (if negative then -value else value)

/-- How deep values are nested at most. A reader that calls itself for every value inside another
one comes to the end of its stack here. How much of the stack is left depends on who calls the
reader: this is the depth for a caller some calls further down than a session, which has room for
a few values more. -/
def maxDepth : Nat := 985

mutual

/-- Reads the value at the front of the tokens. `room` says how deep values may still be nested in
it, and `steps` bounds the steps taken. -/
def readValue : (steps room : Nat) → List Token → Except ReadError (Value × List Token)
  | 0, _, _ => .error .malformed
  | steps + 1, room, tokens =>
    match tokens, room with
    | .null :: rest, _ => .ok (.null, rest)
    | .bool value :: rest, _ => .ok (.bool value, rest)
    | .real value :: rest, _ => .ok (.real value, rest)
    | .text value :: rest, _ => .ok (.text value, rest)
    | .whole negative digits :: rest, _ => do
      return (.int (← wholeNumber negative digits), rest)
    | .openList :: _, 0 | .openObject :: _, 0 => .error .tooDeep
    | .openList :: .closeList :: rest, _ => .ok (.list [], rest)
    | .openList :: rest, room + 1 => do
      let (items, after) ← readItems steps room rest []
      return (.list items, after)
    | .openObject :: .closeObject :: rest, _ => .ok (.object [], rest)
    | .openObject :: rest, room + 1 => do
      let (members, after) ← readMembers steps room rest []
      return (.object members, after)
    | _, _ => .error .malformed

/-- Reads the items of a list up to its end; `read` holds the ones before, last first. -/
def readItems : (steps room : Nat) → List Token → (read : List Value) →
    Except ReadError (List Value × List Token)
  | 0, _, _, _ => .error .malformed
  | steps + 1, room, tokens, read => do
    let (item, rest) ← readValue steps room tokens
    match rest with
    | .comma :: more => readItems steps room more (item :: read)
    | .closeList :: after => return ((item :: read).reverse, after)
    | _ => .error .malformed

/-- Reads the members of an object up to its end. -/
def readMembers : (steps room : Nat) → List Token → (read : List (String × Value)) →
    Except ReadError (List (String × Value) × List Token)
  | 0, _, _, _ => .error .malformed
  | steps + 1, room, tokens, read =>
    match tokens with
    | .text name :: .colon :: rest => do
      let (value, afterValue) ← readValue steps room rest
      let members := Value.setMember read name value
      match afterValue with
      | .comma :: more => readMembers steps room more members
      | .closeObject :: after => return (members, after)
      | _ => .error .malformed
    | _ => .error .malformed

end

/-- The value of a document text. -/
def read (text : String) : Except ReadError Value := do
  let all := tokens text
  let (value, rest) ← readValue (all.length + 1) maxDepth all
  if rest.isEmpty then return value else .error .malformed

end Montage.Document
