import Montage.Compile.Draft
import Montage.Edl.Project
import Montage.Timecode

/-!
# The inputs of a cut

Every media file that a cut names becomes one window, the video first and its tracks in order. A
track with a positive offset is read for less time, since silence stands in for the rest; with a
negative one for more, since its start is cut off. Each ends up as long as the cut.
-/

namespace Montage

/-- Whether the media file of an id exists below a base. -/
abbrev ExistenceCheck := Path → Value → Except Failure Bool

/-- The positions of a cut's windows with what is needed to build its nodes. The first sound is
that of the video itself. -/
structure CutInputs where
  index : Int
  duration : Value
  video : Int
  audio : List Int
  offsets : List Int
  volumes : List Value
deriving DecidableEq

namespace CutInputs

/-- The path of a media file; only a text can name one. -/
def mediaPath (base : Path) (id : Value) : Except Defect Path :=
  match id with
  | .text name => .ok (base.join (Path.ofString name))
  | _ => .error .wrongKind

/-- Asks for a media file, which must exist. -/
def requireSource (existence : ExistenceCheck) (base : Path) (index : Nat) (role : SourceRole)
    (id : Value) : Drafting Unit := do
  Drafting.noteCheck base id
  if !(← existence base id) then throw (.naming id (.edit (.missingSource index role id)))

/-- The window of a track, its offset and its volume. -/
def resolveTrack (existence : ExistenceCheck) (base : Path) (index : Nat) (start duration : Int)
    (number : Nat) (track : AudioTrack) : Drafting (Window × Int × Value) := do
  if !track.id.isPresent then throw (.edit (.cut index (.trackWithoutId number)))
  if ← track.volume.lt (.int 0) then
    throw (.naming track.id (.edit (.cut index (.negativeTrackVolume track.id))))
  requireSource existence base index .audio track.id
  let offset ← if track.offset.isPresent then liftM (Timecode.toSeconds track.offset) else pure 0
  let read := duration - offset
  if read ≤ 0 then throw (.naming track.id (.edit (.cut index (.offsetTooLong track.id))))
  let path ← mediaPath base track.id
  return (⟨track.id, path, .audio, start, read, index, number⟩, offset, track.volume)

/-- The windows, offsets and volumes of tracks that are numbered from `number` on. -/
def resolveTracks (existence : ExistenceCheck) (base : Path) (index : Nat) (start duration : Int)
    (number : Nat) : List AudioTrack → Drafting (List (Window × Int × Value))
  | [] => return []
  | track :: rest => do
    let first ← resolveTrack existence base index start duration number track
    let others ← resolveTracks existence base index start duration (number + 1) rest
    return first :: others

/-- The windows of a cut, and its inputs when they are numbered from `slot` on. -/
def resolveCut (existence : ExistenceCheck) (base : Path) (index slot : Nat) (cut : Cut) :
    Drafting (List Window × CutInputs) := do
  if !cut.video.id.isPresent then throw (.edit (.cut index .noVideo))
  let start ← Timecode.toSeconds cut.start
  let finish ← Timecode.toSeconds cut.finish
  let duration := finish - start
  if duration ≤ 0 then throw (.edit (.cut index .endsBeforeStart))
  if ← cut.video.volume.lt (.int 0) then throw (.edit (.cut index .negativeVolume))
  requireSource existence base index .video cut.video.id
  let path ← mediaPath base cut.video.id
  let tracks ← resolveTracks existence base index start duration 1 cut.audio
  let count := tracks.length + 1
  Drafting.report .debug "InputResolver"
    ("Corte " ++ decimalText index ++ ": " ++ decimalText duration ++ "s a partir de " ++
      decimalText start ++ "s, " ++ decimalText count ++ " trilhas de áudio")
  return (⟨cut.video.id, path, .video, start, duration, index, 0⟩ :: tracks.map (·.1),
    { index := index
      duration := .int duration
      video := slot
      audio := (List.range count).map fun position => ((slot + position : Nat) : Int)
      offsets := 0 :: tracks.map (·.2.1)
      volumes := cut.video.volume :: tracks.map (·.2.2) })

/-- The windows and inputs of cuts numbered from `index` on, their windows from `slot` on. -/
def resolveCuts (existence : ExistenceCheck) (base : Path) (index slot : Nat) :
    List Cut → Drafting (List Window × List CutInputs)
  | [] => return ([], [])
  | cut :: rest => do
    let (windows, inputs) ← resolveCut existence base index slot cut
    let (moreWindows, moreInputs) ←
      resolveCuts existence base (index + 1) (slot + windows.length) rest
    return (windows ++ moreWindows, inputs :: moreInputs)

/-- The windows and inputs of all cuts of a project. The first fault ends everything. -/
def resolve (existence : ExistenceCheck) (project : Project) :
    Drafting (List Window × List CutInputs) := do
  let (windows, inputs) ← resolveCuts existence project.base 0 0 project.cuts
  Drafting.report .info "InputResolver"
    ("Resolvidos " ++ decimalText windows.length ++ " inputs para " ++
      decimalText inputs.length ++ " cortes")
  return (windows, inputs)

end CutInputs

end Montage
