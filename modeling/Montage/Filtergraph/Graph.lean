import Montage.Failure
import Montage.Filtergraph.Op
import Montage.Filtergraph.Stream
import Montage.Path

/-!
# Filter graphs

A graph holds the windows of the input files that are read, and the nodes that filter them, in the
order in which they were added. The label of a node depends only on its role, its cut and its
track; labels are made when the graph is written.
-/

namespace Montage

/-- The part a node plays for its cut. -/
inductive NodeRole where
  | segmentVideo
  | segmentAudio
  | mix
  | videoJoin
  | audioJoin
deriving DecidableEq, Repr

namespace NodeRole

def label (role : NodeRole) (index track : Int) : String :=
  match role with
  | .segmentVideo => "v" ++ decimalText index
  | .segmentAudio => "a" ++ decimalText index ++ "_" ++ decimalText track
  | .mix => "a" ++ decimalText index
  | .videoJoin => "vxf" ++ decimalText index
  | .audioJoin => "axf" ++ decimalText index

end NodeRole

structure Node where
  role : NodeRole
  kind : StreamKind
  index : Int
  sources : List Source
  ops : List Op
  track : Int := 0
deriving DecidableEq

namespace Node

def label (node : Node) : String :=
  node.role.label node.index node.track

def opNames (node : Node) : List String :=
  node.ops.map (·.name)

/-- The first operation of a name whose parameters have the given values. -/
def findOp (node : Node) (name : String) (expected : List (String × Value)) : Option Op :=
  node.ops.find? fun op =>
    op.name == name && expected.all fun (key, value) => (op.param (some key) .null).same value

/-- The keys that no parameter to look for can have. -/
def reservedKeys : List String := ["self", "name"]

/-- Finds an operation by parameters whose keys are not known to be free. -/
def findOpChecked (node : Node) (name : String) (expected : List (String × Value)) :
    Except Defect (Option Op) :=
  if expected.any fun (key, _) => reservedKeys.contains key then .error .wrongKind
  else .ok (node.findOp name expected)

end Node

/-- The stretch of a media file that is read: where it starts and how long it is, in seconds. -/
structure Window where
  id : Value
  path : Path
  kind : StreamKind
  start : Int
  duration : Int
  index : Int
  track : Int := 0
deriving DecidableEq

structure Graph where
  inputs : List Window := []
  nodes : List Node := []
  videoOut : Option Int := none
  audioOut : Option Int := none
  durations : List Value := []
  crossfade : Value := .int 0
  total : Value := .int 0
deriving DecidableEq

namespace Graph

/-- The graph with a node added; its position is the count of nodes before. -/
def push (graph : Graph) (node : Node) : Graph :=
  { graph with nodes := graph.nodes ++ [node] }

def node (graph : Graph) (position : Int) : Except Defect Node :=
  match Value.itemAt? graph.nodes position with
  | some node => .ok node
  | none => .error .outOfBounds

def labelOf (graph : Graph) : Source → Except Defect String
  | .input index kind => .ok (inputLabel index kind)
  | .node position => do return (← graph.node position).label

/-- A label between brackets. -/
def bracketed (label : String) : String :=
  "[" ++ label ++ "]"

/-- A node in the filter language: the labels it reads, its operations, its own label. -/
def expression (graph : Graph) (node : Node) : Except Defect String := do
  let sources ← node.sources.mapM graph.labelOf
  let ops ← node.ops.mapM Op.text
  return String.join (sources.map bracketed) ++ ",".intercalate ops ++ bracketed node.label

def filters (graph : Graph) : Except Defect (List String) :=
  graph.nodes.mapM graph.expression

/-- The whole graph in the filter language. -/
def text (graph : Graph) : Except Defect String := do
  return ";".intercalate (← graph.filters)

def labels (graph : Graph) : List String :=
  graph.nodes.map Node.label

/-- The label of an output that may not be set. -/
def outputLabel (graph : Graph) : Option Int → Except Defect String
  | some position => graph.labelOf (.node position)
  | none => .error .wrongKind

/-- The labels of the picture and the sound that leave the graph. -/
def terminalLabels (graph : Graph) : Except Defect (String × String) := do
  let video ← graph.outputLabel graph.videoOut
  let audio ← graph.outputLabel graph.audioOut
  return (video, audio)

def inputsOf (graph : Graph) (kind : StreamKind) : List Window :=
  graph.inputs.filter fun window => window.kind == kind

/-- The nodes of a cut, or those of them with a role. -/
def nodesForCut (graph : Graph) (index : Value) (role : Option NodeRole) : List Node :=
  graph.nodes.filter fun node =>
    (Value.int node.index).same index && (role.isNone || role == some node.role)

@[simp] theorem nodes_push (graph : Graph) (node : Node) :
    (graph.push node).nodes = graph.nodes ++ [node] := rfl

theorem getElem?_nodes_push_of_lt (graph : Graph) (node : Node) {position : Nat}
    (below : position < graph.nodes.length) :
    (graph.push node).nodes[position]? = graph.nodes[position]? := by
  simp [List.getElem?_append, below]

/-- A node of a graph with a new node stood there before or is the new one. -/
theorem earlier_or_last_of_push {graph : Graph} {node found : Node} {position : Nat}
    (foundAt : (graph.push node).nodes[position]? = some found) :
    graph.nodes[position]? = some found ∨ position = graph.nodes.length ∧ node = found := by
  rw [nodes_push, List.getElem?_append] at foundAt
  split at foundAt
  · exact .inl foundAt
  · next beyond =>
    obtain ⟨atEnd, same⟩ : position - graph.nodes.length = 0 ∧ node = found := by
      simpa [List.getElem?_singleton] using foundAt
    exact .inr ⟨Nat.le_antisymm (Nat.le_of_sub_eq_zero atEnd) (Nat.le_of_not_lt beyond), same⟩

end Graph

end Montage
