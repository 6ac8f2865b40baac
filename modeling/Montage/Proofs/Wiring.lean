import Mathlib.Data.List.Nodup
import Montage.Proofs.Assembly
import Montage.Proofs.Labels

/-!
# Streams without loose ends

A pad of a window and a node of a graph both give out one stream. While a graph grows, every
stream given out is either read once or still loose, and nothing else is read (`Graph.Wired`).
Main statements: `Wired.push` says that a node takes the streams it reads off the loose ones and
puts its own there, and `Wired.count_reads` how often each stream is read.
-/

namespace Montage

/-! ## Streams given out and read -/

/-- The pads of a window in a slot. A video file gives out its picture and its sound. -/
def Window.pads (slot : Nat) (window : Window) : List Source :=
  match window.kind with
  | .video => [.input slot .video, .input slot .audio]
  | .audio => [.input slot .audio]
  | .other _ => []

/-- The pads of windows in slots that are numbered from `slot` on. -/
def padsFrom (slot : Nat) : List Window → List Source
  | [] => []
  | window :: rest => window.pads slot ++ padsFrom (slot + 1) rest

namespace Graph

/-- Every source that some node reads, as often as it is read. -/
def reads (graph : Graph) : List Source :=
  graph.nodes.flatMap (·.sources)

/-- Every stream that is given out: the pads of the windows and the nodes. -/
def outlets (graph : Graph) : List Source :=
  padsFrom 0 graph.inputs ++ (List.range graph.nodes.length).map fun (position : Nat) =>
    .node position

/-- What a source carries; none for a node that is not there. -/
def kindOf? (graph : Graph) : Source → Option StreamKind
  | .input _ kind => some kind
  | .node position => (Value.itemAt? graph.nodes position).map (·.kind)

/-- Whatever is given out is read once or loose, and nothing else is read. Each loose stream is
listed with what it carries. -/
structure Wired (graph : Graph) (loose : List (Source × StreamKind)) : Prop where
  balance : (graph.reads ++ loose.map (·.1)).Perm graph.outlets
  looseKinds : ∀ stream ∈ loose, graph.kindOf? stream.1 = some stream.2
  backward : ∀ (position : Nat) node, graph.nodes[position]? = some node →
    ∀ index : Int, .node index ∈ node.sources → 0 ≤ index ∧ index < position
  nodeKinds : ∀ node ∈ graph.nodes, node.kind = .video ∨ node.kind = .audio
  sourceKinds : ∀ node ∈ graph.nodes, ∀ source ∈ node.sources,
    graph.kindOf? source = some node.kind

/-! ## Pads -/

theorem mem_padsFrom_iff {source : Source} {slot : Nat} {windows : List Window} :
    source ∈ padsFrom slot windows ↔
      ∃ (position : Nat) (window : Window), windows[position]? = some window ∧
        source ∈ window.pads (slot + position) := by
  induction windows generalizing slot with
  | nil => simp [padsFrom]
  | cons head rest ih =>
    rw [padsFrom, List.mem_append, ih]
    constructor
    · rintro (here | ⟨position, window, found, given⟩)
      · exact ⟨0, head, rfl, here⟩
      · exact ⟨position + 1, window, found, by rwa [Nat.add_comm position, ← Nat.add_assoc]⟩
    · rintro ⟨position, window, found, given⟩
      cases position with
      | zero =>
        obtain rfl : head = window := by simpa using found
        exact .inl given
      | succ position =>
        exact .inr ⟨position, window, found, by rwa [Nat.add_assoc, Nat.add_comm 1]⟩

theorem slot_of_mem_pads {source : Source} {slot : Nat} {window : Window}
    (given : source ∈ window.pads slot) : ∃ kind, source = .input slot kind := by
  unfold Window.pads at given
  split at given
  · rcases List.mem_pair.mp given with rfl | rfl
    · exact ⟨_, rfl⟩
    · exact ⟨_, rfl⟩
  · exact ⟨_, List.mem_singleton.mp given⟩
  · simp at given

theorem nodup_padsFrom (slot : Nat) (windows : List Window) : (padsFrom slot windows).Nodup := by
  induction windows generalizing slot with
  | nil => exact List.nodup_nil
  | cons head rest ih =>
    refine List.Nodup.append ?_ (ih (slot + 1)) ?_
    · unfold Window.pads
      split <;> simp
    · intro source here later
      obtain ⟨_, rfl⟩ := slot_of_mem_pads here
      obtain ⟨position, window, _, given⟩ := mem_padsFrom_iff.mp later
      obtain ⟨_, same⟩ := slot_of_mem_pads given
      obtain ⟨same, _⟩ := Source.input.inj same
      omega

/-! ## Outlets -/

section Outlets

variable {graph : Graph}

theorem node_mem_outlets_iff {index : Int} :
    .node index ∈ graph.outlets ↔ 0 ≤ index ∧ index < graph.nodes.length := by
  unfold outlets
  rw [List.mem_append]
  constructor
  · rintro (pad | node)
    · obtain ⟨_, _, _, given⟩ := mem_padsFrom_iff.mp pad
      obtain ⟨_, same⟩ := slot_of_mem_pads given
      cases same
    · obtain ⟨position, within, same⟩ := List.mem_map.mp node
      cases same
      exact ⟨Int.natCast_nonneg position, Int.ofNat_lt.mpr (List.mem_range.mp within)⟩
  · rintro ⟨nonneg, within⟩
    refine .inr (List.mem_map.mpr ⟨index.toNat, List.mem_range.mpr (by omega), ?_⟩)
    rw [Int.toNat_of_nonneg nonneg]

theorem input_mem_outlets_iff {slot : Int} {kind : StreamKind} :
    .input slot kind ∈ graph.outlets ↔
      ∃ (position : Nat) (window : Window), slot = position ∧
        graph.inputs[position]? = some window ∧ .input slot kind ∈ window.pads position := by
  unfold outlets
  rw [List.mem_append]
  constructor
  · rintro (pad | node)
    · obtain ⟨position, window, found, given⟩ := mem_padsFrom_iff.mp pad
      rw [Nat.zero_add] at given
      obtain ⟨_, same⟩ := slot_of_mem_pads given
      exact ⟨position, window, (Source.input.inj same).1, found, given⟩
    · obtain ⟨_, _, same⟩ := List.mem_map.mp node
      cases same
  · rintro ⟨position, window, _, found, given⟩
    exact .inl (mem_padsFrom_iff.mpr ⟨position, window, found, by rwa [Nat.zero_add]⟩)

theorem nodup_outlets (graph : Graph) : graph.outlets.Nodup := by
  refine List.Nodup.append (nodup_padsFrom 0 graph.inputs) ?_ ?_
  · refine List.Nodup.map ?_ List.nodup_range
    intro position other same
    exact Int.ofNat.inj (Source.node.inj same)
  · intro source pad node
    obtain ⟨_, _, _, given⟩ := mem_padsFrom_iff.mp pad
    obtain ⟨_, rfl⟩ := slot_of_mem_pads given
    simp at node

theorem outlets_push (node : Node) :
    (graph.push node).outlets = graph.outlets ++ [.node graph.nodes.length] := by
  simp [outlets, push, List.range_succ]

theorem reads_push (node : Node) : (graph.push node).reads = graph.reads ++ node.sources := by
  simp [reads]

/-- What an outlet carries does not change when a node is added. -/
theorem kindOf?_push_of_mem {source : Source} {node : Node} (given : source ∈ graph.outlets) :
    (graph.push node).kindOf? source = graph.kindOf? source := by
  cases source with
  | input => rfl
  | node index =>
    obtain ⟨nonneg, within⟩ := node_mem_outlets_iff.mp given
    have position : index.toNat < graph.nodes.length := by omega
    simp only [kindOf?, Value.itemAt?, if_neg (Int.not_lt.mpr nonneg),
      getElem?_nodes_push_of_lt graph node position]

theorem kindOf?_push_self (node : Node) :
    (graph.push node).kindOf? (.node graph.nodes.length) = some node.kind := by
  simp [kindOf?]

end Outlets

/-! ## One node -/

namespace Wired

variable {graph : Graph} {loose other rest : List (Source × StreamKind)}

theorem perm (wired : Wired graph loose) (same : loose.Perm other) : Wired graph other where
  balance := ((same.map (·.1)).symm.append_left graph.reads).trans wired.balance
  looseKinds := fun stream present => wired.looseKinds stream (same.mem_iff.mpr present)
  backward := wired.backward
  nodeKinds := wired.nodeKinds
  sourceKinds := wired.sourceKinds

/-- Every stream given out is read once unless it is loose, and no other is read. -/
theorem count_reads (wired : Wired graph loose) (source : Source) :
    graph.reads.count source + (loose.map (·.1)).count source =
      if source ∈ graph.outlets then 1 else 0 := by
  rw [← List.count_append, wired.balance.count_eq]
  split
  · next given => exact List.count_eq_one_of_mem graph.nodup_outlets given
  · next absent => exact List.count_eq_zero_of_not_mem absent

theorem nodup_loose (wired : Wired graph loose) : (loose.map (·.1)).Nodup :=
  (wired.balance.nodup_iff.mpr graph.nodup_outlets).of_append_right

theorem mem_outlets_of_loose (wired : Wired graph loose) {stream : Source × StreamKind}
    (present : stream ∈ loose) : stream.1 ∈ graph.outlets :=
  wired.balance.subset (List.mem_append_right _ (List.mem_map_of_mem present))

theorem mem_outlets_of_read (wired : Wired graph loose) {source : Source}
    (present : source ∈ graph.reads) : source ∈ graph.outlets :=
  wired.balance.subset (List.mem_append_left _ present)

/-- A graph with windows and no nodes has all its pads loose. -/
theorem of_no_nodes (empty : graph.nodes = [])
    (pads : loose.map (·.1) = padsFrom 0 graph.inputs)
    (kinds : ∀ stream ∈ loose, graph.kindOf? stream.1 = some stream.2) : Wired graph loose where
  balance := by simp [reads, outlets, empty, pads]
  looseKinds := kinds
  backward := by simp [empty]
  nodeKinds := by simp [empty]
  sourceKinds := by simp [empty]

/-- A node that reads loose streams of its kind takes them off and is loose itself. -/
theorem push (wired : Wired graph loose) (node : Node)
    (known : node.kind = .video ∨ node.kind = .audio)
    (enough : loose.Perm (node.sources.map (fun source => (source, node.kind)) ++ rest)) :
    Wired (graph.push node) ((.node graph.nodes.length, node.kind) :: rest) := by
  have ready := wired.perm enough
  have own : ∀ source ∈ node.sources, (source, node.kind) ∈
      node.sources.map (fun source => (source, node.kind)) ++ rest := fun source present =>
    List.mem_append_left _ (List.mem_map_of_mem present)
  refine ⟨?_, ?_, ?_, ?_, ?_⟩
  · -- The streams that the node reads go from the loose ones to those read.
    have sources : (node.sources.map (fun source => (source, node.kind))).map (·.1) =
        node.sources := by simp [Function.comp_def]
    have balance := ready.balance
    rw [List.map_append, sources, ← List.append_assoc] at balance
    rw [reads_push, outlets_push, List.map_cons]
    exact List.perm_middle.trans ((balance.cons _).trans (List.perm_append_singleton _ _).symm)
  · intro stream present
    rcases List.mem_cons.mp present with rfl | later
    · exact kindOf?_push_self node
    · have inReady := List.mem_append_right
        (node.sources.map (fun source => (source, node.kind))) later
      rw [kindOf?_push_of_mem (ready.mem_outlets_of_loose inReady)]
      exact ready.looseKinds stream inReady
  · intro position found foundAt index present
    rcases earlier_or_last_of_push foundAt with earlier | ⟨rfl, rfl⟩
    · exact wired.backward position found earlier index present
    · -- What the new node reads was loose, so it was given out before.
      exact node_mem_outlets_iff.mp (ready.mem_outlets_of_loose (own _ present))
  · intro found present
    rcases List.mem_append.mp present with earlier | last
    · exact wired.nodeKinds found earlier
    · rwa [List.mem_singleton.mp last]
  · intro found present source read
    rcases List.mem_append.mp present with earlier | last
    · have given := wired.mem_outlets_of_read (List.mem_flatMap.mpr ⟨found, earlier, read⟩)
      rw [kindOf?_push_of_mem given]
      exact wired.sourceKinds found earlier source read
    · obtain rfl := List.mem_singleton.mp last
      rw [kindOf?_push_of_mem (ready.mem_outlets_of_loose (own _ read))]
      exact ready.looseKinds _ (own _ read)

end Wired

end Graph

end Montage
