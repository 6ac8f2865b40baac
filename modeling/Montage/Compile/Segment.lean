import Montage.Compile.CutInputs
import Montage.Effect.Registry

/-!
# The segment of a cut

A cut becomes one node for its picture and one for each of its sounds, which a mix then adds up.
Only the first cut fades in and only the last one fades out.
-/

namespace Montage

/-- What all segments have in common: the fades at the ends of the timeline, and the sides of the
frame size, empty where frames keep their size. -/
structure SegmentStyle where
  fade : FadeLengths
  frame : List Value := []
deriving DecidableEq

namespace SegmentStyle

def ofProject (project : Project) : SegmentStyle :=
  ⟨project.fade, project.frame⟩

/-- A fade at one end of the timeline. -/
def edgeFade (kind : StreamKind) (duration length : Value) (direction : String) :
    Except Failure (List Op) :=
  EffectRegistry.standard.apply "fade"
    ⟨kind, duration, [("inout", .text direction), ("length", length)]⟩

/-- The fades of a segment: the first of `total` cuts fades in, the last one fades out. -/
def edgeFades (style : SegmentStyle) (kind : StreamKind) (duration : Value) (index total : Int) :
    Except Failure (List Op) := do
  let first ← if index = 0 then edgeFade kind duration style.fade.fadeIn "in" else pure []
  let last ← if index = total - 1 then edgeFade kind duration style.fade.fadeOut "out" else pure []
  return first ++ last

/-- The operations that bring a picture to the frame size. -/
def frameOps (style : SegmentStyle) (duration : Value) : Except Failure (List Op) :=
  match style.frame with
  | [] => .ok []
  | [width, height] =>
    EffectRegistry.standard.apply "letterbox"
      ⟨.video, duration, [("width", width), ("height", height)]⟩
  | _ => .error (.defect .badValue)

/-- The operations on the picture of a cut. -/
def videoOps (style : SegmentStyle) (cut : CutInputs) (total : Int) : Except Failure (List Op) := do
  let frame ← style.frameOps cut.duration
  let fades ← style.edgeFades .video cut.duration cut.index total
  return resetTimestamps "setpts" :: (frame ++ fades)

def videoNode (style : SegmentStyle) (cut : CutInputs) (total : Int) : Except Failure Node := do
  return {
    role := .segmentVideo
    kind := .video
    index := cut.index
    sources := [.input cut.video .video]
    ops := ← style.videoOps cut total }

/-- The operations on one sound of a cut: its offset first, then its volume and the fades. -/
def audioOps (style : SegmentStyle) (cut : CutInputs) (total offset : Int) (volume : Value) :
    Except Failure (List Op) := do
  let shift ← EffectRegistry.standard.apply "audio_offset"
    ⟨.audio, cut.duration, [("offset", .int offset)]⟩
  let gain ← EffectRegistry.standard.apply "volume" ⟨.audio, cut.duration, [("volume", volume)]⟩
  let fades ← style.edgeFades .audio cut.duration cut.index total
  return resetTimestamps "asetpts" :: (shift ++ gain ++ fades)

/-- The node of the sound at a position of the cut's sounds. -/
def audioNode (style : SegmentStyle) (cut : CutInputs) (total : Int) (track : Nat) (slot : Int) :
    Except Failure Node := do
  match cut.offsets[track]?, cut.volumes[track]? with
  | some offset, some volume =>
    return {
      role := .segmentAudio
      kind := .audio
      index := cut.index
      sources := [.input slot .audio]
      ops := ← style.audioOps cut total offset volume
      track := track }
  | _, _ => throw (.defect .outOfBounds)

/-- Adds the picture of a cut. -/
def addVideo (style : SegmentStyle) (cut : CutInputs) (total : Int) : Drafting Nat := do
  Drafting.addNode (← style.videoNode cut total)

/-- Adds the sounds in `slots`, the first of which has the position `track`. -/
def addAudioFrom (style : SegmentStyle) (cut : CutInputs) (total : Int) (track : Nat) :
    (slots : List Int) → Drafting (List Nat)
  | [] => return []
  | slot :: rest => do
    let first ← Drafting.addNode (← style.audioNode cut total track slot)
    let others ← style.addAudioFrom cut total (track + 1) rest
    return first :: others

/-- Adds the sounds of a cut, each as a node; those before one that fails stay. -/
def addAudio (style : SegmentStyle) (cut : CutInputs) (total : Int) : Drafting (List Nat) :=
  style.addAudioFrom cut total 0 cut.audio

end SegmentStyle

/-- The finished nodes of a cut: its picture and its mixed sound. -/
structure Segment where
  index : Int
  duration : Value
  video : Nat
  audio : Nat
deriving DecidableEq

namespace Segment

def mixNode (index : Int) (sounds : List Nat) : Node where
  role := .mix
  kind := .audio
  index := index
  sources := sounds.map fun (position : Nat) => .node position
  ops := [.of "amix" [] [("inputs", .int sounds.length), ("normalize", .int 0)]]

/-- Adds up the sounds of a cut, whose volumes are set already. -/
def addMix (index : Int) (sounds : List Nat) : Drafting Nat := do
  if sounds.isEmpty then throw (.edit (.nothingToMix index))
  Drafting.addNode (mixNode index sounds)

/-- Adds all nodes of a cut. -/
def ofCut (style : SegmentStyle) (total : Int) (cut : CutInputs) : Drafting Segment := do
  let video ← style.addVideo cut total
  let sounds ← style.addAudio cut total
  let audio ← addMix cut.index sounds
  return ⟨cut.index, cut.duration, video, audio⟩

end Segment

end Montage
