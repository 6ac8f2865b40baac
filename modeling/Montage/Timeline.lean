import Montage.Document.Arithmetic
import Montage.Failure

/-!
# The timeline

Cuts follow each other, and every join but the first cut's start overlaps its two cuts by the
length of the crossfade. Progress is measured against the total length.
-/

namespace Montage.Timeline

/-- The values that can be added up from what was given as a list of lengths. -/
def lengthsBefore (lengths position : Value) : Except Defect (List Value) := do
  let items ← match lengths with
    | .list items => .ok items
    | .text text => .ok (text.toList.map fun c => Value.text (String.singleton c))
    | _ => .error Defect.wrongKind
  match position with
  | .null => return items
  | .int n => return Value.takeBefore items n
  | .bool b => return Value.takeBefore items (if b then 1 else 0)
  | _ => .error .wrongKind

/-- Where the join of the cut at an index starts: the lengths of the cuts before it less one
crossfade for every join up to it. -/
def transitionOffset (lengths crossfade index : Value) : Except Defect Value := do
  let before ← Value.sum (← lengthsBefore lengths index)
  match ← index.number with
  | .whole n => before.lessMultiple crossfade n
  | .real _ => .error .wrongKind

/-- The lengths of all cuts less one crossfade for every join. -/
def totalOf (lengths : List Value) (crossfade : Value) : Except Defect Value :=
  if lengths.isEmpty then .ok (.int 0)
  else do
    let sum ← Value.sum lengths
    sum.lessMultiple crossfade (lengths.length - 1)

/-- The total of what was given as a list of lengths. -/
def total (lengths crossfade : Value) : Except Defect Value :=
  match lengths with
  | .list items => totalOf items crossfade
  | _ => if lengths.isPresent then .error .wrongKind else .ok (.int 0)

/-- The share of the total, from zero to one, that a mark has reached. -/
def progress (mark total : Value) : Except Failure Binary64 := do
  if ← total.le (.int 0) then .error .noTotal
  else
    let share ← (← mark.number).div (← total.number)
    let atLeast := if (Number.real share).isPositive then share else Binary64.zero
    let full := Binary64.ofInt 1
    return if atLeast.compare? full == some .lt then atLeast else full

/-- Progress in hundredths. -/
def percent (mark total : Value) : Except Failure Binary64 := do
  return (Binary64.ofInt 100).mul (← progress mark total)

end Montage.Timeline
