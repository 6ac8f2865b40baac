import Montage.Document.Arithmetic
import Montage.Failure
import Montage.Text.Numeral

/-!
# Frame sizes

The size to which all cuts are brought: a width and a height, both positive. It is written as a
list of the two or as a text with an x between them, and may be absent.
-/

namespace Montage

structure FrameSize where
  width : Int
  height : Int
deriving DecidableEq

namespace FrameSize

/-- The whole number that a value denotes: a number without its fraction, or a numeral. -/
def wholeOf : Value → Except Defect Int
  | .bool b => .ok (if b then 1 else 0)
  | .int n => .ok n
  | .real x => (Number.real x).truncate
  | .text text =>
    match Text.integer? text.toList with
    | some n => .ok n
    | none => .error .badValue
  | _ => .error .wrongKind

/-- The two sides that a value names, not yet read as numbers. The names of an object with two
members count as well. -/
def sides? : Value → Option (Value × Value)
  | .text text =>
    let isCross := fun c => c == 'x' || c == 'X'
    let characters := text.toList
    some (.text (String.ofList (characters.takeWhile (!isCross ·))),
      .text (String.ofList ((characters.dropWhile (!isCross ·)).drop 1)))
  | .list [width, height] => some (width, height)
  | .object [(width, _), (height, _)] => some (.text width, .text height)
  | _ => none

/-- The size of two sides. -/
def ofSides (width height : Value) : Except Defect FrameSize := do
  return ⟨← wholeOf width, ← wholeOf height⟩

/-- Refuses a value as no frame size. -/
def refuse (value : Value) : Except Failure (Option FrameSize) :=
  rejectNaming value (.frameSize value)

/-- The frame size that a value names; none if it counts as absent. A number out of the range of
whole numbers is a defect, any other unusable value is refused. -/
def ofValue (value : Value) : Except Failure (Option FrameSize) :=
  if !value.isPresent then .ok none
  else
    match sides? value with
    | none => refuse value
    | some (width, height) =>
      match ofSides width height with
      | .error .overflow => .error (.defect .overflow)
      | .error _ => refuse value
      | .ok size =>
        if size.width ≤ 0 ∨ size.height ≤ 0 then refuse value else .ok (some size)

theorem refuse_ne_ok {value : Value} {found : Option FrameSize} : refuse value ≠ .ok found :=
  nofun

def sides (size : FrameSize) : List Value :=
  [.int size.width, .int size.height]

def toValue (size : FrameSize) : Value :=
  .list size.sides

/-- A size with positive sides is read back from the value it is written as. -/
theorem ofValue_toValue {size : FrameSize} (width : 0 < size.width) (height : 0 < size.height) :
    ofValue size.toValue = .ok (some size) := by
  have wide : ¬ size.width ≤ 0 := by omega
  have high : ¬ size.height ≤ 0 := by omega
  simp [ofValue, toValue, sides, Value.isPresent, sides?, ofSides, wholeOf, wide, high, bind,
    Except.bind, pure, Except.pure]

end FrameSize

end Montage
