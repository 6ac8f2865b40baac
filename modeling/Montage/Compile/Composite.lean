import Montage.Compile.Segment
import Montage.Transition

/-!
# Composites

Segments are joined one after the other, each to what has been composed before it. The time that
has gone by is the sum of the segments' lengths; a join starts one crossfade earlier for every
join up to it.
-/

namespace Montage

/-- What has been composed so far: its last nodes and the lengths added up. -/
structure Composite where
  video : Nat
  audio : Nat
  elapsed : Value
deriving DecidableEq

namespace Composite

def ofSegment (segment : Segment) : Composite :=
  ⟨segment.video, segment.audio, segment.duration⟩

/-- The node of a join. -/
def joinNode (role : NodeRole) (kind : StreamKind) (index : Int) (left right : Nat) (op : Op) :
    Node where
  role := role
  kind := kind
  index := index
  sources := [.node left, .node right]
  ops := [op]

/-- Joins a segment to a composite. -/
def join (crossfade : Value) (transition : Transition) (state : Composite) (segment : Segment) :
    Drafting Composite := do
  let offset ← state.elapsed.lessMultiple crossfade segment.index
  let video ← Drafting.addNode
    (joinNode .videoJoin .video segment.index state.video segment.video
      (← transition.videoOp crossfade offset))
  let audio ← Drafting.addNode
    (joinNode .audioJoin .audio segment.index state.audio segment.audio
      (← Transition.audioOp crossfade))
  Drafting.report .debug "Compositor"
    ("Transição " ++ transition.name ++ " no corte " ++ decimalText segment.index ++ ": offset=" ++
      offset.bare ++ " duração=" ++ crossfade.bare)
  return ⟨video, audio, ← state.elapsed.add segment.duration⟩

/-- Joins segments in their order. -/
def joinAll (crossfade : Value) (transition : Transition) (state : Composite) :
    List Segment → Drafting Composite
  | [] => return state
  | segment :: rest => do
    let next ← join crossfade transition state segment
    joinAll crossfade transition next rest

/-- Composes segments, of which there must be at least one. -/
def compose (crossfade : Value) (transition : Transition) : List Segment → Drafting Composite
  | [] => throw (.edit .nothingToJoin)
  | first :: rest => joinAll crossfade transition (ofSegment first) rest

end Composite

end Montage
