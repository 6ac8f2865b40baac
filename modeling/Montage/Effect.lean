import Montage.Failure
import Montage.Filtergraph.Op
import Montage.Filtergraph.Stream

/-!
# Effects

An effect turns its arguments into filter operations for one node. It may give none: a fade without
length, or an offset of zero, changes nothing.
-/

namespace Montage

/-- What an effect is told: the stream it works on, the length of the segment, its arguments. -/
structure EffectContext where
  kind : StreamKind
  duration : Value
  arguments : List (String × Value)
deriving DecidableEq

namespace EffectContext

/-- The names that arguments cannot have. -/
def reservedNames : List String := ["self", "kind", "duration"]

/-- A context from arguments whose names are not known to be free. -/
def checked (kind : StreamKind) (duration : Value) (arguments : List (String × Value)) :
    Except Defect EffectContext :=
  if arguments.any fun (name, _) => reservedNames.contains name then .error .wrongKind
  else .ok ⟨kind, duration, arguments⟩

def argument (context : EffectContext) (name : String) (default : Value) : Value :=
  (Value.lookup context.arguments name).getD default

def required (context : EffectContext) (name : String) : Except Defect Value :=
  match Value.lookup context.arguments name with
  | some value => .ok value
  | none => .error .missingMember

end EffectContext

/-- Starts the time stamps of a stream anew. -/
def resetTimestamps (name : String) : Op :=
  .of name [.text "PTS-STARTPTS"] []

inductive Effect where
  | audioOffset
  | letterbox
  | volume
  | fade
deriving DecidableEq, Repr

namespace Effect

/-- A negative offset cuts off the start, a positive one puts silence before it: the sound is
reversed, padded at its end and reversed again. -/
def offsetOps (offset : Value) : Except Defect (List Op) := do
  let amount ← offset.number
  if amount.lt (.whole 0) then
    return [.of "atrim" [] [("start", .ofNumber amount.abs)], resetTimestamps "asetpts"]
  else if (Number.whole 0).lt amount then
    return [.of "areverse" [] [], .of "apad" [] [("pad_dur", offset)], .of "areverse" [] []]
  else return []

/-- Scales the picture to fit into a frame and puts bars around it; the shape of its points is set
so that both sides of a join agree. -/
def letterboxOps (width height : Value) : List Op :=
  [.of "scale" [width, height] [("force_original_aspect_ratio", .text "decrease")],
    .of "pad" [width, height, .text "(ow-iw)/2", .text "(oh-ih)/2"] [],
    .of "setsar" [.int 1] []]

def volumeOps (volume : Value) : List Op :=
  [.of "volume" [volume] []]

/-- A fade of a length that starts with the segment, or ends with it. A length of zero is not
written, since the encoder would take a length of its own for it. -/
def fadeOps (kind : StreamKind) (duration length direction : Value) : Except Defect (List Op) := do
  if ← length.le (.int 0) then return []
  else
    let start ← if direction = .text "in" then pure (.int 0)
      else do Value.max (.int 0) (← duration.sub length)
    let name := if kind = .video then "fade" else "afade"
    return [.of name [] [("t", direction), ("st", start), ("d", length)]]

/-- The operations of an effect in a context. -/
def ops (effect : Effect) (context : EffectContext) : Except Defect (List Op) :=
  match effect with
  | .audioOffset => offsetOps (context.argument "offset" (.int 0))
  | .letterbox => do
    let width ← context.required "width"
    let height ← context.required "height"
    return letterboxOps width height
  | .volume => .ok (volumeOps (context.argument "volume" (.real (Binary64.ofInt 1))))
  | .fade =>
    fadeOps context.kind context.duration (context.argument "length" (.int 0))
      (context.argument "inout" (.text "in"))

end Effect

end Montage
