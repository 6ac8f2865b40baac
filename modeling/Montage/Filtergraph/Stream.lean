import Montage.Numeric.FixedPlaces

/-!
# Streams of the filter graph

A filter reads streams: one of the streams of an input file, or what another node of the graph
gives out. Nodes are named by their position; a negative position counts from the last node.
-/

namespace Montage

/-- What a stream carries. -/
inductive StreamKind where
  | video
  | audio
  | other (name : String)
deriving DecidableEq, Repr

namespace StreamKind

def ofName (name : String) : StreamKind :=
  if name = "video" then .video else if name = "audio" then .audio else .other name

def name : StreamKind → String
  | .video => "video"
  | .audio => "audio"
  | .other name => name

end StreamKind

inductive Source where
  | input (index : Int) (kind : StreamKind)
  | node (index : Int)
deriving DecidableEq, Repr

/-- The label of a stream of an input: its position and the letter of its kind. -/
def inputLabel (index : Int) (kind : StreamKind) : String :=
  decimalText index ++ (if kind = .video then ":v" else ":a")

end Montage
