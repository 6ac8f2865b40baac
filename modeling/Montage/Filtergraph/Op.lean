import Montage.Document.Arithmetic
import Montage.Document.Spelling
import Montage.Text.Numeral

/-!
# Filter operations

An operation has a name and parameters in order, each with a key or by position. Numbers are
written without an exponent and without zeros at the end, with at most six decimal places.
-/

namespace Montage

/-- Digits after a point without the zeros at their end, and without the point if none is left. -/
def dropTrailingZeros (text : List Char) : List Char :=
  let kept := text.reverse.dropWhile (· == '0')
  (kept.dropWhile (· == '.')).reverse

/-- A binary64 number as a parameter. -/
def realParameter (x : Binary64) : List Char :=
  match x with
  | .finite negative units _ =>
    if x.isWhole then
      let whole := units / Binary64.one
      (if negative && whole != 0 then ['-'] else []) ++ Nat.toDigits 10 whole
    else dropTrailingZeros (x.fixedPlaces 6)
  | x => x.fixedPlaces 6

/-- A value as a parameter of an operation. -/
def parameterText : Value → Except Defect String
  | .bool b => .ok (if b then "1" else "0")
  | .real x => .ok (String.ofList (realParameter x))
  | .int n => Text.wholeText n
  | value => value.bareText

structure Op where
  name : String
  params : List (Option String × Value)
deriving DecidableEq

namespace Op

/-- An operation from its parameters by position and those with a key. -/
def of (name : String) (positional : List Value) (keyed : List (String × Value)) : Op :=
  ⟨name, positional.map (fun value => (none, value)) ++
    keyed.map (fun (key, value) => (some key, value))⟩

/-- The keys that an operation cannot be given. -/
def reservedKeys : List String := ["cls", "name"]

/-- An operation from parameters whose keys are not known to be free. -/
def ofChecked (name : String) (positional : List Value) (keyed : List (String × Value)) :
    Except Defect Op :=
  if keyed.any fun (key, _) => reservedKeys.contains key then .error .wrongKind
  else .ok (of name positional keyed)

/-- The first parameter with a key, or another value if there is none. -/
def param (op : Op) (key : Option String) (default : Value) : Value :=
  ((op.params.find? fun entry => entry.1 == key).map (·.2)).getD default

def parameter : Option String × Value → Except Defect String
  | (none, value) => parameterText value
  | (some key, value) => do return key ++ "=" ++ (← parameterText value)

/-- An operation in the filter language. -/
def text (op : Op) : Except Defect String := do
  if op.params.isEmpty then return op.name
  else
    let parameters ← op.params.mapM parameter
    return op.name ++ "=" ++ ":".intercalate parameters

end Op

end Montage
