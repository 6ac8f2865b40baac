import Montage.Filtergraph.Op

/-!
# Transitions

A transition joins two cuts. With a crossfade the picture changes in the style of the transition
and the sound fades over; without one the two are put end to end.
-/

namespace Montage

/-- A transition is known by the name of its style. -/
structure Transition where
  name : String
deriving DecidableEq, Repr

namespace Transition

def all : List Transition :=
  [⟨"fade"⟩, ⟨"fadeblack"⟩, ⟨"smoothleft"⟩, ⟨"circleopen"⟩, ⟨"zoomin"⟩]

/-- The transition that is used where none is named. -/
def plain : Transition := ⟨"fade"⟩

/-- The transition of a name; an unknown name is that of the plain one. -/
def ofName (name : String) : Transition :=
  (all.find? fun transition => transition.name == name).getD plain

/-- The transition that a value names. Lists and objects cannot be names, unless they count as
absent. -/
def ofValue : Value → Except Defect Transition
  | .text name => .ok (ofName name)
  | .list (_ :: _) => .error .wrongKind
  | .object (_ :: _) => .error .wrongKind
  | _ => .ok plain

/-- The operation that joins two pictures. -/
def videoOp (transition : Transition) (duration offset : Value) : Except Defect Op := do
  if ← duration.le (.int 0) then
    return .of "concat" [] [("n", .int 2), ("v", .int 1), ("a", .int 0)]
  else
    return .of "xfade" []
      [("transition", .text transition.name), ("duration", duration), ("offset", offset)]

/-- The operation that joins two sounds; the second starts as long before the end of the first as
the crossfade takes. -/
def audioOp (duration : Value) : Except Defect Op := do
  if ← duration.le (.int 0) then
    return .of "concat" [] [("n", .int 2), ("v", .int 0), ("a", .int 1)]
  else return .of "acrossfade" [] [("d", duration)]

end Transition

end Montage
