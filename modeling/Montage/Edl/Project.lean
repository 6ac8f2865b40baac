import Montage.Edl.Cut
import Montage.Edl.FrameSize
import Montage.Path

/-!
# Projects

A project is an edit list: cuts in their order, the lengths of the fades at both ends and of the
crossfades between cuts, and the frame size if one is given. Media paths are relative to its base.
-/

namespace Montage

/-- Lengths in seconds. -/
structure FadeLengths where
  fadeIn : Value
  fadeOut : Value
  crossfade : Value
deriving DecidableEq

namespace FadeLengths

def none : FadeLengths := ⟨.int 0, .int 0, .int 0⟩

/-- A length that counts as absent is zero. -/
def ofValue (value : Value) : Except Defect FadeLengths := do
  let lengths := value.orElse (.object [])
  let fadeIn ← lengths.member "in"
  let fadeOut ← lengths.member "out"
  let crossfade ← lengths.member "crossfade"
  return ⟨fadeIn.orElse (.int 0), fadeOut.orElse (.int 0), crossfade.orElse (.int 0)⟩

def toValue (lengths : FadeLengths) : Value :=
  .object [("in", lengths.fadeIn), ("out", lengths.fadeOut), ("crossfade", lengths.crossfade)]

end FadeLengths

/-- The sides of the frame size are two positive whole numbers where the list names them, and
missing where it does not; only a change of the project may give others. The directory and the
episode id are those of the place where the list was found, unless the list names others. -/
structure Project where
  cuts : List Cut
  fade : FadeLengths := FadeLengths.none
  frame : List Value := []
  base : Path := ⟨0, []⟩
  directory : Value := .null
  episode : Value := .null
deriving DecidableEq

namespace Project

def ofValue (value : Value) (base : Path) : Except Failure Project := do
  let cutValues ← value.member "cuts"
  let cuts ← match cutValues with
    | .list values => liftM (values.mapM Cut.ofValue)
    | _ => pure []
  let fade ← FadeLengths.ofValue (← value.member "fade_duration")
  let frame := ((← FrameSize.ofValue (← value.member "resolution")).map FrameSize.sides).getD []
  let directory ← value.member "directory"
  let episode ← value.member "id"
  return ⟨cuts, fade, frame, base, directory, episode⟩

/-- The value a project is saved as. The base and the place it was found in are not part of it. -/
def toValue (project : Project) : Value :=
  .object ([
    ("cuts", .list (project.cuts.map Cut.toValue)),
    ("fade_duration", project.fade.toValue)] ++
    if project.frame.isEmpty then [] else [("resolution", .list project.frame)])

end Project

end Montage
