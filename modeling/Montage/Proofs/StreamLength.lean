import Montage.Proofs.Assembly
import Montage.Proofs.SegmentOps

/-!
# How long streams are

Every stream of a graph is given a length in seconds: a pad is as long as the window that is read,
and a node as long as its operations make of what it reads. The length of a node is known once the
nodes before it are, and nodes that are added later do not change it. Main statements:
`length?_push_self`, the length of a new node, and `Extends.length?_eq`, that lengths stay.
-/

namespace Montage

/-! ## Operations -/

/-- How long an operation makes a stream out of streams of some lengths. -/
def Op.length? (op : Op) (lengths : List Int) : Option Int :=
  if op.name = "amix" then lengths.max?
  else
    match lengths with
    | [length] =>
      if op.name = "atrim" then (op.whole? "start").map fun start => length - start
      else if op.name = "apad" then (op.whole? "pad_dur").map fun pad => length + pad
      else if op.isSteady || op.name = "areverse" then some length
      else none
    | [left, right] =>
      if op.name = "concat" then some (left + right)
      else if op.name = "xfade" then (op.whole? "offset").map fun offset => offset + right
      else if op.name = "acrossfade" then (op.whole? "d").map fun fade => left + right - fade
      else none
    | _ => none

/-- How long operations make a stream one after the other. -/
def lengthThrough? : (ops : List Op) → (lengths : List Int) → Option Int
  | [], [length] => some length
  | [], _ => none
  | op :: ops, lengths => (op.length? lengths).bind fun length => lengthThrough? ops [length]

theorem Op.length?_of_steady {op : Op} (steady : op.isSteady) (length : Int) :
    op.length? [length] = some length := by
  have other : op.name ∉ movingNames := by simpa [isSteady] using steady
  simp only [movingNames, List.mem_cons, not_or] at other
  simp only [Op.length?, if_neg other.1, if_neg other.2.2.1, if_neg other.2.2.2.1, steady,
    Bool.true_or, if_true]

theorem lengthThrough?_of_steady {ops : List Op} (steady : ∀ op ∈ ops, op.isSteady)
    (length : Int) : lengthThrough? ops [length] = some length := by
  induction ops with
  | nil => rfl
  | cons op ops ih =>
    obtain ⟨first, more⟩ := List.forall_mem_cons.mp steady
    rw [lengthThrough?, op.length?_of_steady first]
    exact ih more

theorem lengthThrough?_append (ops more : List Op) (length : Int) :
    lengthThrough? (ops ++ more) [length] =
      (lengthThrough? ops [length]).bind fun between => lengthThrough? more [between] := by
  induction ops generalizing length with
  | nil => rfl
  | cons op ops ih =>
    simp only [List.cons_append, lengthThrough?]
    cases op.length? [length] with
    | none => rfl
    | some between => exact ih between

/-- The operations of an offset make up for the length of its window. -/
theorem lengthThrough?_offsetChain (offset duration : Int) :
    lengthThrough? (offsetChain offset) [duration - offset] = some duration := by
  unfold offsetChain
  split
  · show some (duration - offset - (offset.natAbs : Int)) = some duration
    congr 1
    omega
  · split
    · show some (duration - offset + offset) = some duration
      rw [Int.sub_add_cancel]
    · show some (duration - offset) = some duration
      congr 1
      omega

/-! ## Nodes and graphs -/

/-- How long a node is when the streams it may read are as long as given. -/
def Node.length? (node : Node) (lengthOf : Source → Option Int) : Option Int :=
  (node.sources.mapM lengthOf).bind (lengthThrough? node.ops)

/-- How long a source is when the nodes before some position are as long as given. -/
def sourceLength? (inputs : List Window) (known : List (Option Int)) : Source → Option Int
  | .input slot _ => (Value.itemAt? inputs slot).map (·.duration)
  | .node position => (Value.itemAt? known position).join

namespace Graph

/-- The lengths of all nodes in their order. -/
def lengths (graph : Graph) : List (Option Int) :=
  graph.nodes.foldl
    (fun known node => known ++ [node.length? (sourceLength? graph.inputs known)]) []

/-- How long a stream of a graph is; none if an operation does not take what it is given. -/
def length? (graph : Graph) (source : Source) : Option Int :=
  sourceLength? graph.inputs graph.lengths source

variable {graph grown : Graph}

theorem length?_node (graph : Graph) (position : Nat) :
    graph.length? (.node position) = graph.lengths[position]?.join := by
  simp [length?, sourceLength?]

theorem lengths_push (graph : Graph) (node : Node) :
    (graph.push node).lengths = graph.lengths ++ [node.length? graph.length?] := by
  simp only [lengths, push, List.foldl_append, List.foldl_cons, List.foldl_nil]
  rfl

/-- Every node has a place among the lengths. -/
theorem length_lengths (graph : Graph) : graph.lengths.length = graph.nodes.length := by
  have grown : Graph.Extends { graph with nodes := [] } graph := ⟨graph.nodes, rfl⟩
  refine grown.induction (motive := fun between => between.lengths.length = between.nodes.length)
    rfl fun between node ih => ?_
  rw [lengths_push, nodes_push, List.length_append, List.length_append, ih]
  rfl

theorem length?_push_self (graph : Graph) (node : Node) :
    (graph.push node).length? (.node graph.nodes.length) = node.length? graph.length? := by
  rw [length?_node, lengths_push, ← length_lengths, List.getElem?_concat_length]
  rfl

/-- A length that is known stays when nodes are added. -/
theorem Extends.length?_eq {position : Nat} {length : Int} (extended : graph.Extends grown)
    (known : graph.length? (.node position) = some length) :
    grown.length? (.node position) = some length := by
  refine extended.induction
    (motive := fun between => between.length? (.node position) = some length) known
    fun between node ih => ?_
  rw [length?_node] at ih ⊢
  -- A known length is that of a node, and new nodes come behind it.
  have within : position < between.lengths.length := by
    refine Nat.lt_of_not_le fun beyond => ?_
    rw [List.getElem?_eq_none beyond] at ih
    cases ih
  rw [lengths_push, List.getElem?_append_left within, ih]

end Graph

end Montage
