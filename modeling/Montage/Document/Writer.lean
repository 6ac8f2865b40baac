import Montage.Document.Value
import Montage.Numeric.Shortest
import Montage.Text.Quoted

/-!
# Writing a document

A value laid out over several lines, two blanks for each level, members in their order. Only
quotes, backslashes and control characters are escaped. The text is written in pieces, and a piece
is stored whole or not at all.
-/

namespace Montage.Document

/-- A character inside a text of a document. -/
def escapedChar (c : Char) : List Char :=
  if c = '"' then ['\\', '"']
  else if c = '\\' then ['\\', '\\']
  else if c = '\n' then ['\\', 'n']
  else if c = '\r' then ['\\', 'r']
  else if c = '\t' then ['\\', 't']
  else if c.toNat = 8 then ['\\', 'b']
  else if c.toNat = 12 then ['\\', 'f']
  else if c.toNat < 32 then '\\' :: 'u' :: Text.hexDigits 4 c.toNat
  else [c]

def writeText (text : String) : String :=
  String.ofList ('"' :: (text.toList.flatMap escapedChar ++ ['"']))

def writeReal : Binary64 → String
  | .nan => "NaN"
  | .infinity negative => if negative then "-Infinity" else "Infinity"
  | x => x.text

/-- The start of a line at a level. -/
def newline (level : Nat) : String :=
  String.ofList ('\n' :: List.replicate (2 * level) ' ')

/-- The text of a value that is neither a list nor an object. -/
def writeScalar? : Value → Option String
  | .null => some "null"
  | .bool value => some (if value then "true" else "false")
  | .int value => some (decimalText value)
  | .real value => some (writeReal value)
  | .text value => some (writeText value)
  | .list _ | .object _ => none

mutual

/-- The pieces of a value whose first line is at a level. -/
def piecesAt (level : Nat) : Value → List String
  | .list [] => ["[]"]
  | .list items => itemPieces (level + 1) "[" items ++ [newline level, "]"]
  | .object [] => ["\x7b\x7d"]
  | .object members =>
    "\x7b" :: newline (level + 1) :: memberPieces (level + 1) members ++ [newline level, "\x7d"]
  | value => (writeScalar? value).toList

/-- The pieces of the items of a list, `before` standing in front of the first. One piece leads up
to a list or an object; any other item is one piece with what leads up to it. -/
def itemPieces (level : Nat) (before : String) : List Value → List String
  | [] => []
  | item :: rest =>
    let lead := before ++ newline level
    (match writeScalar? item with
      | some text => [lead ++ text]
      | none => lead :: piecesAt level item) ++ itemPieces level "," rest

/-- The pieces of the members of an object: each name and each value begins one. -/
def memberPieces (level : Nat) : List (String × Value) → List String
  | [] => []
  | [(name, value)] => writeText name :: ": " :: piecesAt level value
  | (name, value) :: rest =>
    writeText name :: ": " :: piecesAt level value ++
      ("," ++ newline level) :: memberPieces level rest

end

/-- The pieces in which a document is written, one after another. -/
def pieces (value : Value) : List String :=
  piecesAt 0 value

/-- The text of a document. -/
def write (value : Value) : String :=
  String.join (pieces value)

/-- What a file holds after a document was written to it: the first piece that no file can hold
ends the writing. -/
def written (value : Value) : String :=
  String.join ((pieces value).takeWhile Text.isStorable)

end Montage.Document
