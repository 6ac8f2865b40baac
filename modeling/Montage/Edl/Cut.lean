import Montage.Document.Arithmetic
import Montage.Failure

/-!
# Cuts

A cut shows a stretch of one video and mixes further audio tracks into its sound. The values of an
edit list are taken over as they are; only absent ones are filled in. They are checked when the
list is compiled.
-/

namespace Montage

/-- The volume of a source that gives none. -/
def defaultVolume : Value :=
  .real (Binary64.ofInt 1)

/-- A further sound of a cut. A positive offset delays it, a negative one moves it forward. -/
structure AudioTrack where
  id : Value
  volume : Value
  offset : Value
deriving DecidableEq

/-- The video of a cut; its own sound has the same volume. -/
structure VideoRef where
  id : Value
  volume : Value
deriving DecidableEq

structure Cut where
  video : VideoRef
  start : Value
  finish : Value
  audio : List AudioTrack
deriving DecidableEq

/-- The volume a member gives; null counts as not given. -/
def volumeOf : Value → Value
  | .null => defaultVolume
  | volume => volume

namespace AudioTrack

def ofValue (value : Value) : Except Defect AudioTrack := do
  let volume ← value.member "volume"
  let id ← value.member "id"
  let offset ← value.member "offset"
  return ⟨id.orElse (.text ""), volumeOf volume, offset.orElse (.int 0)⟩

/-- An offset that counts as absent is not written. -/
def toValue (track : AudioTrack) : Value :=
  .object ([("id", track.id), ("volume", track.volume)] ++
    if track.offset.isPresent then [("offset", track.offset)] else [])

end AudioTrack

namespace Cut

/-- The tracks among the values of a list; anything that is not an object is passed over. -/
def tracksOf (values : List Value) : Except Defect (List AudioTrack) :=
  (values.filter fun value => value matches .object _).mapM AudioTrack.ofValue

def ofValue (value : Value) : Except Defect Cut := do
  let video := (← value.member "video").orElse (.object [])
  let volume ← video.member "volume"
  let audio ← value.member "audio"
  let id ← video.member "id"
  let start ← value.memberD "start" (.text "")
  let finish ← value.memberD "end" (.text "")
  let tracks ← match audio with
    | .list values => tracksOf values
    | _ => pure []
  return ⟨⟨id.orElse (.text ""), volumeOf volume⟩, start, finish, tracks⟩

def toValue (cut : Cut) : Value :=
  .object [
    ("video", .object [("id", cut.video.id), ("volume", cut.video.volume)]),
    ("start", cut.start),
    ("end", cut.finish),
    ("audio", .list (cut.audio.map AudioTrack.toValue))]

end Cut

end Montage
